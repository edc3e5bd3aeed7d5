import CriticalSection.Proofs.Log.Occupancy

/-!
# Diaries

A **diary** tells of a section what its logs hold: the occupancies that are over, and who is inside
since when. A process that enters or leaves adds one record to its own log and none to the others.
-/

set_option autoImplicit false

namespace CriticalSection

/-- **What has been logged so far.** -/
structure Diary where
  /-- The occupancies that are over. -/
  past : List Occupancy
  /-- Who is inside, since when. -/
  present : Option (ProcessId × Int64)

namespace Diary

/-- Nothing has been logged yet. -/
def blank : Diary := ⟨[], none⟩

/-- The time since which a process is inside, if it is. -/
def since (d : Diary) (p : ProcessId) : Option Int64 :=
  match d.present with
  | some (q, time) => if q = p then some time else none
  | none => none

/-- **The log of a process.** -/
def log (d : Diary) (p : ProcessId) : Log :=
  Occupancy.records (d.past.filter fun o => o.process = p) ++
    (d.since p).toList.map fun time => ⟨p, .enter, time⟩

/-- A process enters at a time. -/
def enter (d : Diary) (p : ProcessId) (time : Int64) : Diary := ⟨d.past, some (p, time)⟩

/-- A process that has entered at a time leaves at another one. -/
def leave (d : Diary) (p : ProcessId) (entered time : Int64) : Diary :=
  ⟨d.past ++ [⟨p, entered, time⟩], none⟩

variable {d : Diary} {p q : ProcessId} {time entered : Int64}

theorem since_of_present (h : d.present = some (p, time)) (q : ProcessId) :
    d.since q = if q = p then some time else none := by
  rw [since, h]
  simp only [eq_comm]

theorem since_of_nobody (h : d.present = none) (q : ProcessId) : d.since q = none := by
  rw [since, h]

theorem present_of_since (h : d.since p = some time) : d.present = some (p, time) := by
  unfold since at h
  split at h
  · next q time' heq =>
      split at h
      · next hq =>
          obtain rfl := Option.some.inj h
          rw [heq, hq]
      · cases h
  · cases h

/-- Nobody is inside when there is no time since which anybody is. -/
theorem nobody_of_since (h : ∀ p, d.since p = none) : d.present = none := by
  rw [Option.eq_none_iff_forall_ne_some]
  rintro ⟨p, time⟩ hpresent
  have hp := h p
  rw [since_of_present hpresent, if_pos rfl] at hp
  cases hp

/-- Everybody logs for itself. -/
theorem process_of_mem_log {event : Event} (h : event ∈ d.log p) : event.process = p := by
  rcases List.mem_append.mp h with h | h
  · obtain ⟨o, ho, hevent⟩ := List.mem_flatMap.mp h
    have hp : o.process = p := of_decide_eq_true (List.mem_filter.mp ho).2
    simp only [List.mem_cons, List.not_mem_nil, or_false] at hevent
    rcases hevent with rfl | rfl <;> exact hp
  · obtain ⟨time, -, rfl⟩ := List.mem_map.mp h
    rfl

/-- While nobody is inside, the log of a process has the records of its occupancies. -/
theorem log_of_nobody (h : d.present = none) (p : ProcessId) :
    d.log p = Occupancy.records (d.past.filter fun o => o.process = p) := by
  rw [log, since_of_nobody h]
  exact List.append_nil _

@[simp]
theorem since_enter (d : Diary) (p q : ProcessId) (time : Int64) :
    (d.enter p time).since q = if q = p then some time else none := since_of_present rfl q

@[simp]
theorem since_leave (d : Diary) (p q : ProcessId) (entered time : Int64) :
    (d.leave p entered time).since q = none := since_of_nobody rfl q

/-- **Who enters while nobody is inside** has one more record, and the others have none. -/
theorem log_enter (h : d.present = none) (p q : ProcessId) (time : Int64) :
    (d.enter p time).log q = d.log q ++ if q = p then [⟨p, .enter, time⟩] else [] := by
  rw [log, log, since_enter, since_of_nobody h]
  split
  · next heq =>
      subst heq
      simp [enter]
  · simp [enter]

/-- **Who leaves** has one more record, and the others have none. -/
theorem log_leave (h : d.present = some (p, entered)) (q : ProcessId) (time : Int64) :
    (d.leave p entered time).log q = d.log q ++ if q = p then [⟨p, .exit, time⟩] else [] := by
  rw [log, log, since_leave, since_of_present h]
  split
  · next heq =>
      subst heq
      simp [leave, List.filter_append, Occupancy.entry, Occupancy.departure]
  · next hne =>
      simp [leave, List.filter_append, Ne.symm hne]

/-! ## Diaries of a section that is occupied in turn -/

/-- **A proper diary** at some time: its occupancies have been in turn and are over, each of them
has lasted as long as its process holds the section at least, and who is inside has entered after
them. -/
structure Proper (d : Diary) (holding : ProcessId → UInt64) (now : Int64) : Prop where
  inTurn : Occupancy.InTurn d.past
  left : ∀ o ∈ d.past, o.exit ≤ now
  stayed : ∀ o ∈ d.past, o.enter.toInt + (holding o.process).toNat ≤ o.exit.toInt
  entered : ∀ p time, d.present = some (p, time) → time ≤ now ∧ ∀ o ∈ d.past, o.exit ≤ time

variable {holding : ProcessId → UInt64} {now now' : Int64}

theorem proper_blank (holding : ProcessId → UInt64) (now : Int64) : blank.Proper holding now :=
  ⟨⟨by simp [blank], by simp [blank]⟩, by simp [blank], by simp [blank], by simp [blank]⟩

theorem Proper.later (h : d.Proper holding now) (hnow : now ≤ now') : d.Proper holding now' := by
  refine ⟨h.inTurn, fun o ho => Int64.le_trans (h.left o ho) hnow, h.stayed,
    fun p time hpresent => ?_⟩
  obtain ⟨hle, hpast⟩ := h.entered p time hpresent
  exact ⟨Int64.le_trans hle hnow, hpast⟩

theorem Proper.enter (h : d.Proper holding now) (p : ProcessId) :
    (d.enter p now).Proper holding now := by
  refine ⟨h.inTurn, h.left, h.stayed, fun q time hpresent => ?_⟩
  obtain ⟨rfl, rfl⟩ := Prod.mk.inj (Option.some.inj hpresent)
  exact ⟨Int64.le_refl _, h.left⟩

theorem Proper.leave (h : d.Proper holding now) (hpresent : d.present = some (p, entered))
    (hstay : entered.toInt + (holding p).toNat ≤ now.toInt) :
    (d.leave p entered now).Proper holding now := by
  obtain ⟨hle, hpast⟩ := h.entered p entered hpresent
  refine ⟨h.inTurn.concat hle hpast, fun o ho => ?_, fun o ho => ?_, fun q time hnone => ?_⟩
  · rcases List.mem_append.mp ho with ho | ho
    · exact h.left o ho
    · obtain rfl := List.mem_singleton.mp ho
      exact Int64.le_refl _
  · rcases List.mem_append.mp ho with ho | ho
    · exact h.stayed o ho
    · obtain rfl := List.mem_singleton.mp ho
      exact hstay
  · cases hnone

/-! ## Putting logs together -/

variable {order : List ProcessId}

/-- What the logs of some processes tell of one process: its occupancies, if it is among them. -/
theorem of_flatMap_log (hnobody : d.present = none) (hnodup : order.Nodup) (q : ProcessId) :
    Log.of (order.flatMap d.log) q =
      Occupancy.records ((d.past.filter fun o => o.process ∈ order).filter
        fun o => o.process = q) := by
  rw [Log.of_flatMap (fun _ _ => process_of_mem_log) hnodup, log_of_nobody hnobody,
    List.filter_filter]
  by_cases hq : q ∈ order
  · rw [if_pos hq]
    congr 1
    apply List.filter_congr
    intro o _
    by_cases ho : o.process = q <;> simp [ho, hq]
  · have hnone : ∀ o ∈ d.past, ¬ (decide (o.process = q) && decide (o.process ∈ order)) = true := by
      intro o _ ho
      simp only [Bool.and_eq_true, decide_eq_true_eq] at ho
      exact hq (ho.1 ▸ ho.2)
    rw [if_neg hq, List.filter_eq_nil_iff.mpr hnone]
    rfl

/-- **The logs of some processes**, put together in the order of time, record their occupancies. -/
theorem Proper.records_sort (h : d.Proper holding now) (hnobody : d.present = none)
    (hnodup : order.Nodup) :
    (Log.sort (order.flatMap d.log)).Records (d.past.filter fun o => o.process ∈ order) := by
  intro q
  have hown := of_flatMap_log hnobody hnodup q
  have hinOrder : (Log.of (order.flatMap d.log) q).InOrder := by
    rw [hown]
    exact (h.inTurn.sublist (List.filter_sublist.trans List.filter_sublist)).inOrder
  rw [Log.of_sort hinOrder, hown]

end Diary

end CriticalSection
