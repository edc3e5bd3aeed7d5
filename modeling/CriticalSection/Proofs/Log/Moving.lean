import CriticalSection.Log.Text
import CriticalSection.Proofs.Outcome

/-!
# Moved logs

A log is **moved** by a number of milliseconds when every time is that much later and nothing else
differs. Moves add up, and they keep the gaps between the records. A log is moved just when all of
the new times are times within 64 bits.
-/

set_option autoImplicit false

namespace CriticalSection

/-! ## Times within 64 bits -/

namespace Time

/-- **A number of milliseconds that is a time**: it fits in 64 bits. -/
def Fits (n : Int) : Prop := Int64.minValue.toInt ≤ n ∧ n ≤ Int64.maxValue.toInt

instance (n : Int) : Decidable (Fits n) :=
  inferInstanceAs (Decidable (Int64.minValue.toInt ≤ n ∧ n ≤ Int64.maxValue.toInt))

theorem fits_toInt (a : Int64) : Fits a.toInt := ⟨a.minValue_le_toInt, a.toInt_le⟩

theorem toInt_ofInt {n : Int} (h : Fits n) : (Int64.ofInt n).toInt = n :=
  Int64.toInt_ofInt_of_le h.1 (Int.lt_of_le_of_lt h.2 (by decide))

variable {a b c : Int64}

theorem sum?_eq_some_iff : sum? a b = some c ↔ c.toInt = a.toInt + b.toInt := by
  unfold sum?
  rw [Option.ite_none_right_eq_some]
  constructor
  · rintro ⟨hfits, heq⟩
    rw [← Option.some.inj heq, toInt_ofInt hfits]
  · intro h
    refine ⟨h ▸ fits_toInt c, congrArg some (Int64.toInt_inj.mp ?_)⟩
    rw [toInt_ofInt (h ▸ fits_toInt c), h]

theorem sum?_eq_none_iff : sum? a b = none ↔ ¬ Fits (a.toInt + b.toInt) := by
  change (if Fits (a.toInt + b.toInt) then _ else none) = none ↔ _
  split
  · next hfits => exact iff_of_false (Option.some_ne_none _) (not_not_intro hfits)
  · next hfits => exact iff_of_true rfl hfits

theorem toInt_of_sum? (h : sum? a b = some c) : c.toInt = a.toInt + b.toInt :=
  sum?_eq_some_iff.mp h

theorem toInt_of_difference? (h : difference? a b = some c) : c.toInt = a.toInt - b.toInt := by
  unfold difference? at h
  obtain ⟨hrange, heq⟩ := Option.ite_none_right_eq_some.mp h
  rw [← Option.some.inj heq, toInt_ofInt hrange]

end Time

/-! ## Moved events -/

/-- **An event that is moved**: it is later by a number of milliseconds, and the same in everything
else. -/
structure Event.Moved (n : Int) (e e' : Event) : Prop where
  same : e' = { e with time := e'.time }
  time : e'.time.toInt = e.time.toInt + n

namespace Event

variable {e e' e'' : Event} {n m : Int} {step : Int64}

theorem Moved.process (h : e.Moved n e') : e'.process = e.process := by
  rw [h.same]

theorem Moved.trans (h : e.Moved n e') (h' : e'.Moved m e'') : e.Moved (n + m) e'' := by
  refine ⟨?_, ?_⟩
  · rw [h'.same, h.same]
  · rw [h'.time, h.time, Int.add_assoc]

/-- The event so many milliseconds later. -/
def later (n : Int) (e : Event) : Event := { e with time := Int64.ofInt (e.time.toInt + n) }

/-- **Moving an event** makes it later, and its new time fits in 64 bits. -/
theorem moved_iff : e.Moved n e' ↔ Time.Fits (e.time.toInt + n) ∧ e' = e.later n := by
  constructor
  · intro h
    have hfits : Time.Fits (e.time.toInt + n) := h.time ▸ Time.fits_toInt e'.time
    have htime : e'.time = Int64.ofInt (e.time.toInt + n) :=
      Int64.toInt_inj.mp (by rw [h.time, Time.toInt_ofInt hfits])
    exact ⟨hfits, by rw [h.same, htime]; rfl⟩
  · rintro ⟨hfits, rfl⟩
    exact ⟨rfl, Time.toInt_ofInt hfits⟩

theorem moved_zero_iff : e.Moved 0 e' ↔ e' = e := by
  constructor
  · intro h
    have htime : e'.time = e.time := Int64.toInt_inj.mp (by rw [h.time, Int.add_zero])
    rw [h.same, htime]
  · rintro rfl
    exact ⟨rfl, (Int.add_zero _).symm⟩

theorem shift_eq_ok_iff : e.shift step = .ok e' ↔ e.Moved step.toInt e' := by
  unfold shift
  constructor
  · intro h
    split at h
    · next time htime =>
        obtain rfl := Except.ok.inj h
        exact ⟨rfl, Time.sum?_eq_some_iff.mp htime⟩
    · cases h
  · intro h
    rw [Time.sum?_eq_some_iff.mpr h.time]
    exact congrArg Except.ok h.same.symm

theorem shift_eq_error_iff {fault : Fault} :
    e.shift step = .error fault ↔ fault = .overflow ∧ ¬ Time.Fits (e.time.toInt + step.toInt) := by
  rw [← Time.sum?_eq_none_iff, shift]
  cases Time.sum? e.time step with
  | none => simp [overflowed, eq_comm]
  | some time => simp

end Event

/-! ## Moved logs -/

namespace Log

variable {log moved moved' : Log} {n m : Int} {step : Int64}

/-- **A log that is moved**: each of its events is. -/
def Moved (n : Int) (log moved : Log) : Prop := List.Forall₂ (Event.Moved n) log moved

/-- **The gaps** between the records: how much later than each event each event is. -/
def gaps (log : Log) : List (List Int) :=
  log.map fun e => log.map fun f => f.time.toInt - e.time.toInt

theorem Moved.trans (h : log.Moved n moved) (h' : moved.Moved m moved') :
    log.Moved (n + m) moved' := by
  induction h generalizing moved' with
  | nil =>
      cases h'
      exact .nil
  | cons he _ ih =>
      cases h' with
      | cons he' hrest => exact .cons (he.trans he') (ih hrest)

theorem moved_zero_iff : log.Moved 0 moved ↔ moved = log := by
  induction log generalizing moved with
  | nil => exact List.forall₂_nil_left_iff
  | cons e rest ih =>
      cases moved with
      | nil => exact iff_of_false (by rintro ⟨⟩) (List.cons_ne_nil _ _).symm
      | cons e' rest' =>
          rw [Moved, List.forall₂_cons, Event.moved_zero_iff, List.cons.injEq]
          exact and_congr_right' ih

/-- **All times of a log fit** in 64 bits when they are moved. -/
def Fits (n : Int) (log : Log) : Prop := ∀ e ∈ log, Time.Fits (e.time.toInt + n)

/-- **Moving a log** moves its events one by one. -/
theorem moved_iff : log.Moved n moved ↔ log.Fits n ∧ moved = log.map (Event.later n) := by
  induction log generalizing moved with
  | nil => simp [Moved, Fits]
  | cons e rest ih =>
      cases moved with
      | nil => exact iff_of_false (by rintro ⟨⟩) fun h => List.cons_ne_nil _ _ h.2.symm
      | cons e' rest' =>
          rw [Moved, List.forall₂_cons, Event.moved_iff, Fits, List.forall_mem_cons, List.map_cons,
            List.cons.injEq, and_and_and_comm]
          exact and_congr_right' ih

/-- A log that is moved again has to fit where it comes in the end. -/
theorem Moved.fits_iff (h : log.Moved n moved) : moved.Fits m ↔ log.Fits (n + m) := by
  induction h with
  | nil => simp [Fits]
  | cons he _ ih =>
      rw [Fits, Fits, List.forall_mem_cons, List.forall_mem_cons, he.time, Int.add_assoc]
      exact and_congr_right' ih

/-- **The gaps stay**, and with them the order of the times. -/
theorem Moved.gaps (h : log.Moved n moved) : moved.gaps = log.gaps := by
  obtain ⟨hfits, rfl⟩ := moved_iff.mp h
  unfold Log.gaps
  rw [List.map_map]
  refine List.map_congr_left fun e he => ?_
  rw [Function.comp_apply, List.map_map]
  refine List.map_congr_left fun f hf => ?_
  change (Int64.ofInt _).toInt - (Int64.ofInt _).toInt = _
  rw [Time.toInt_ofInt (hfits e he), Time.toInt_ofInt (hfits f hf)]
  omega

/-- **A log is moved** by a number of milliseconds when all new times are times. -/
theorem shift_eq_ok_iff : log.shift step = .ok moved ↔ log.Moved step.toInt moved := by
  unfold shift Moved
  simp only [Outcome.mapM_eq_ok_iff, Event.shift_eq_ok_iff]

theorem shift_of_fits (h : log.Fits step.toInt) :
    log.shift step = .ok (log.map (Event.later step.toInt)) :=
  shift_eq_ok_iff.mpr (moved_iff.mpr ⟨h, rfl⟩)

theorem Fits.exists_shift (h : log.Fits step.toInt) :
    ∃ moved, log.shift step = .ok moved ∧ log.Moved step.toInt moved :=
  ⟨_, shift_of_fits h, moved_iff.mpr ⟨h, rfl⟩⟩

/-- There is no other reason that it is not moved. -/
theorem shift_eq_error_iff {fault : Fault} :
    log.shift step = .error fault ↔
      fault = .overflow ∧ ∃ e ∈ log, ¬ Time.Fits (e.time.toInt + step.toInt) := by
  constructor
  · intro h
    obtain ⟨before, e, behind, rfl, -, he⟩ := Outcome.mapM_eq_error_iff.mp h
    obtain ⟨hfault, hfits⟩ := Event.shift_eq_error_iff.mp he
    exact ⟨hfault, e, List.mem_append_cons_self, hfits⟩
  · rintro ⟨rfl, e, he, hfits⟩
    cases hshift : log.shift step with
    | ok moved => exact absurd ((moved_iff.mp (shift_eq_ok_iff.mp hshift)).1 e he) hfits
    | error fault =>
        obtain ⟨_, _, _, -, -, hother⟩ := Outcome.mapM_eq_error_iff.mp hshift
        rw [(Event.shift_eq_error_iff.mp hother).1]

theorem exists_shift (h : ∀ e ∈ log, Time.sum? e.time step ≠ none) :
    ∃ moved, log.shift step = .ok moved ∧ log.Moved step.toInt moved := by
  have hfits : log.Fits step.toInt :=
    fun e he => not_not.mp (mt Time.sum?_eq_none_iff.mpr (h e he))
  exact hfits.exists_shift

end Log

end CriticalSection
