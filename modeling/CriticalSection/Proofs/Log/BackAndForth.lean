import Mathlib.Data.List.Infix
import CriticalSection.Proofs.Decimal.Whole
import CriticalSection.Proofs.Log.Moving
import CriticalSection.Proofs.Offset.Sampling

/-!
# Moving a log back and forth

An offset is rounded to whole milliseconds with halves going up, on both sides of zero. A log that
is moved by an offset and then by its negative is therefore the same again only if the offset is
whole; an odd number of halves leaves it one millisecond later. Moves by several offsets add up,
each offset rounded for itself.
-/

set_option autoImplicit false

namespace CriticalSection

/-! ## Rounding halves -/

/-- Halves are rounded up. -/
theorem Quantity.toInt_round_half {k : Int} (hk : k.natAbs < 2 ^ 52) :
    (Quantity.round (k / 2 : Rat)).toInt = (k + 1) / 2 := by
  have hsum : (k / 2 + 1 / 2 : Rat) = (k + 1 : Int) / (2 : Nat) := by
    push_cast
    ring
  have hfloor : ⌊(k / 2 + 1 / 2 : Rat)⌋ = (k + 1) / 2 := by
    rw [hsum, Rat.floor_intCast_div_natCast]
    rfl
  have hmin : Int64.minValue.toInt = -2 ^ 63 := by decide
  have hmax : Int64.maxValue.toInt = 2 ^ 63 - 1 := by decide
  change (clamp ⌊(k / 2 + 1 / 2 : Rat)⌋).toInt = _
  rw [hfloor]
  exact toInt_clamp (by omega)

namespace Binary64

variable {x : Float} {k : Int}

/-- **Floating-point halves are rounded up**, without any loss before. -/
theorem Has.toInt_round_half (hx : Has x (k / 2)) (hk : k.natAbs < 2 ^ 52) :
    (Quantity.round x).toInt = (k + 1) / 2 := by
  have hexact : Exact (k / 2 + 1 / 2 : Rat) := by
    have hhalves : Exact ((k + 1 : Int) / 2 : Rat) := exact_halves (by omega)
    rwa [Int.cast_add, Int.cast_one, add_div] at hhalves
  rw [hx.round_eq hexact, Quantity.toInt_round_half hk]

theorem Has.neg_half (hx : Has x (k / 2)) : Has (-x) ((-k : Int) / 2) := by
  rw [Int.cast_neg, neg_div]
  exact hx.neg

end Binary64

/-! ## Moving by offsets -/

namespace Log

variable {log moved : Log} {n m : Int}

/-- A log is moved again where the times of the log itself fit. -/
theorem Moved.exists_shift {step : Int64} (h : log.Moved n moved)
    (hfits : log.Fits (n + step.toInt)) :
    ∃ behind, moved.shift step = .ok behind ∧ log.Moved (n + step.toInt) behind := by
  obtain ⟨behind, hshift, hmoved⟩ := (h.fits_iff.mpr hfits).exists_shift
  exact ⟨behind, hshift, h.trans hmoved⟩

section Offsets

variable {α : Type} [Quantity α]

/-- **Moves a log by one offset after the other.** -/
def shifts (log : Log) (offsets : List α) : Outcome Log :=
  offsets.foldlM (fun log offset => log.shift (Quantity.round offset)) log

/-- **How far offsets move a log**: each of them is rounded for itself. -/
def rounded (offsets : List α) : Int :=
  (offsets.map fun offset => (Quantity.round offset).toInt).sum

theorem rounded_cons (offset : α) (offsets : List α) :
    rounded (offset :: offsets) = (Quantity.round offset).toInt + rounded offsets := by
  rw [rounded, List.map_cons, List.sum_cons, ← rounded]

theorem shifts_cons {offset : α} (h : log.shift (Quantity.round offset) = .ok moved)
    (offsets : List α) : log.shifts (offset :: offsets) = moved.shifts offsets := by
  rw [shifts, List.foldlM_cons, h]
  rfl

/-- **Moves by several offsets add up**, as long as all times fit on the way. -/
theorem exists_shifts {offsets : List α}
    (h : ∀ before, before <+: offsets → log.Fits (rounded before)) :
    ∃ final, log.shifts offsets = .ok final ∧ log.Moved (rounded offsets) final := by
  induction offsets generalizing log with
  | nil => exact ⟨log, rfl, moved_zero_iff.mpr rfl⟩
  | cons offset rest ih =>
      have hfirst : log.Fits (Quantity.round offset).toInt := by
        have hone := h [offset] (List.prefix_append [offset] rest)
        rwa [rounded_cons, rounded, List.map_nil, List.sum_nil, Int.add_zero] at hone
      obtain ⟨moved, hshift, hmoved⟩ := hfirst.exists_shift
      -- the moved log has room on the rest of the way
      have hrest : ∀ before, before <+: rest → moved.Fits (rounded before) := by
        intro before hbefore
        rw [hmoved.fits_iff, ← rounded_cons]
        exact h _ (List.prefix_cons_inj offset |>.mpr hbefore)
      obtain ⟨final, hshifts, hfinal⟩ := ih hrest
      refine ⟨final, ?_, ?_⟩
      · rw [shifts_cons hshift, hshifts]
      · rw [rounded_cons]
        exact hmoved.trans hfinal

end Offsets

/-! ## Back and forth -/

/-- Going back undoes a whole number of milliseconds, and leaves one over from an odd number of
halves. -/
theorem exists_back {o : Float} {k : Int} (ho : Binary64.Has o (k / 2)) (hk : k.natAbs < 2 ^ 52)
    (hfits : log.Fits ((k + 1) / 2)) (hback : log.Fits (k % 2)) :
    ∃ moved back, log.shift (Quantity.round o) = .ok moved ∧ log.Moved ((k + 1) / 2) moved ∧
      moved.shift (Quantity.round (-o)) = .ok back ∧ log.Moved (k % 2) back := by
  have hthere := ho.toInt_round_half hk
  have hhere := ho.neg_half.toInt_round_half (by rwa [Int.natAbs_neg])
  have hsum : (k + 1) / 2 + (Quantity.round (-o)).toInt = k % 2 := by
    rw [hhere]
    omega
  obtain ⟨moved, hshift, hmoved⟩ := Fits.exists_shift (hthere ▸ hfits)
  rw [hthere] at hmoved
  obtain ⟨back, hshift', hback⟩ := hmoved.exists_shift (hsum ▸ hback)
  rw [hsum] at hback
  exact ⟨moved, back, hshift, hmoved, hshift', hback⟩

/-- **Moving a log back and forth.** A number of halves, rounded up, moves every event, and its
negative moves all of them back; what is left over is nothing or, from an odd number of halves, one
millisecond. Moves by any offsets, each rounded for itself, add up and keep all gaps. Every offset
that is estimated by asking a peer is a number of halves. -/
theorem back_and_forth (log : Log) :
    (∀ (o : Float) (k : Int), Binary64.Is o (k / 2) → |(k / 2 : Rat)| < 2 ^ 51 →
      log.Fits ((k + 1) / 2) → (¬ 2 ∣ k → log.Fits 1) →
      ∃ moved back, log.shift (Quantity.round o) = .ok moved ∧ log.Moved ((k + 1) / 2) moved ∧
        moved.shift (Quantity.round (-o)) = .ok back ∧
        (2 ∣ k → back = log) ∧ (¬ 2 ∣ k → log.Moved 1 back)) ∧
    (∀ offsets : List Float, (∀ before, before <+: offsets → log.Fits (rounded before)) →
      ∃ final, log.shifts offsets = .ok final ∧ log.Moved (rounded offsets) final ∧
        final.gaps = log.gaps) ∧
    ∀ (σ : Type) (sampling : Sampling) (peer : Peer σ) (surroundings : σ)
      (estimate : Estimate Float), (sampling.estimate peer surroundings).1 = .ok estimate →
      ∃ k : Int, Binary64.Is estimate.offset (k / 2) := by
  refine ⟨?_, ?_, ?_⟩
  · intro o k ho hk hfits hodd
    have hk' : k.natAbs < 2 ^ 52 := Binary64.natAbs_lt_of_abs_half_lt hk
    have hhas : Binary64.Has o (k / 2) := ho.has (Binary64.exact_halves (by omega))
    have hback : log.Fits (k % 2) := by
      rcases Int.emod_two_eq k with hzero | hone
      · rw [hzero]
        exact (moved_iff.mp (moved_zero_iff.mpr rfl)).1
      · rw [hone]
        exact hodd (by omega)
    obtain ⟨moved, back, hshift, hmoved, hshift', hback⟩ := exists_back hhas hk' hfits hback
    refine ⟨moved, back, hshift, hmoved, hshift', fun heven => ?_, fun hodd => ?_⟩
    · have hzero : k % 2 = 0 := Int.emod_eq_zero_of_dvd heven
      exact moved_zero_iff.mp (hzero ▸ hback)
    · have hone : k % 2 = 1 := by omega
      exact hone ▸ hback
  · intro offsets hfits
    obtain ⟨final, hshifts, hfinal⟩ := exists_shifts hfits
    exact ⟨final, hshifts, hfinal, hfinal.gaps⟩
  · intro σ sampling peer surroundings estimate hestimate
    obtain ⟨e, he⟩ := Sampling.exists_of_estimate hestimate
    exact Binary64.is_offset he

/-- A visit that is moved by two and a half milliseconds and back, or by two and a half and then
back by four and a half; and an offset that is estimated from one exchange. -/
theorem back_and_forth_halves :
    (∃ moved back, shift [⟨"P1", .enter, 100⟩, ⟨"P1", .exit, 200⟩] (Quantity.round (2.5 : Float)) =
        .ok moved ∧ moved.shift (Quantity.round (-2.5 : Float)) = .ok back ∧
        Moved 1 [⟨"P1", .enter, 100⟩, ⟨"P1", .exit, 200⟩] back) ∧
    (∃ final, shifts [⟨"P1", .enter, 100⟩, ⟨"P1", .exit, 200⟩] [(2.5 : Float), -4.5] = .ok final ∧
        Moved (-1) [⟨"P1", .enter, 100⟩, ⟨"P1", .exit, 200⟩] final) ∧
    ∃ (estimate : Estimate Float) (k : Int),
      ((Sampling.standard.withSamples 1).estimate (Script.peer "A")
        (Script.start [0, 5] [some (10, 10)])).1 = .ok estimate ∧
      Binary64.Is estimate.offset (k / 2) := by
  have his : Binary64.Is (2.5 : Float) ((5 : Int) / 2) := by
    have hparts : Binary64.ofFloat 2.5 = .finite false 5629499534213120 (-51) := rfl
    rw [Binary64.Is, hparts, Binary64.value?, Binary64.number]
    norm_num
  have hrounded : rounded [(2.5 : Float), -4.5] = -1 := rfl
  have hfits : ∀ before ∈ [(2.5 : Float), -4.5].inits,
      Fits (rounded before) [⟨"P1", .enter, 100⟩, ⟨"P1", .exit, 200⟩] := by
    unfold Fits
    decide +kernel
  obtain ⟨hhalves, hoffsets, hestimates⟩ :=
    back_and_forth [⟨"P1", .enter, 100⟩, ⟨"P1", .exit, 200⟩]
  refine ⟨?_, ?_, ?_⟩
  · obtain ⟨moved, back, hshift, -, hshift', -, hback⟩ :=
      hhalves 2.5 5 his (by norm_num) (by unfold Fits; decide) (fun _ => by unfold Fits; decide)
    exact ⟨moved, back, hshift, hshift', hback (by decide)⟩
  · obtain ⟨final, hshifts, hmoved, -⟩ :=
      hoffsets [2.5, -4.5] fun before hbefore => hfits before ((List.mem_inits _ _).mpr hbefore)
    exact ⟨final, hshifts, hrounded ▸ hmoved⟩
  · have hok : ((Sampling.standard.withSamples 1).estimate (α := Float) (Script.peer "A")
        (Script.start [0, 5] [some (10, 10)])).1.isOk = true := rfl
    cases hestimate : ((Sampling.standard.withSamples 1).estimate (α := Float) (Script.peer "A")
        (Script.start [0, 5] [some (10, 10)])).1 with
    | error fault => rw [hestimate] at hok; cases hok
    | ok estimate =>
        obtain ⟨k, hk⟩ := hestimates _ _ _ _ _ hestimate
        exact ⟨estimate, k, rfl, hk⟩

end Log

end CriticalSection
