import CriticalSection.Proofs.Log.Occupancy

/-!
# Journals

A **journal** tells of one process what its log holds: when each of its stays began and ended, and
since when it stays, if it has logged an entry and no exit yet. The process may look at a clock that
is wrong, as long as it does not go backwards; then its log is in the order of time.
-/

set_option autoImplicit false

namespace CriticalSection

/-- **What a process has logged so far.** -/
structure Journal where
  /-- When each stay that is over began and ended. -/
  stays : List (Int64 × Int64)
  /-- Since when the process stays, if it has logged an entry and no exit. -/
  since : Option Int64

namespace Journal

/-- Nothing has been logged yet. -/
def blank : Journal := ⟨[], none⟩

/-- The process enters at a time. -/
def enter (j : Journal) (time : Int64) : Journal := ⟨j.stays, some time⟩

/-- The process, which has entered at a time, leaves at another one. -/
def leave (j : Journal) (entered time : Int64) : Journal := ⟨j.stays ++ [(entered, time)], none⟩

/-- **The log of the process**: pairs of an entry and an exit, and at most one more entry. -/
def log (j : Journal) (p : ProcessId) : Log :=
  Occupancy.records (j.stays.map fun (entered, left) => ⟨p, entered, left⟩) ++
    j.since.toList.map fun time => ⟨p, .enter, time⟩

variable {j : Journal} {entered : Int64}

/-- **Who enters** has one more record. -/
theorem log_enter (h : j.since = none) (p : ProcessId) (time : Int64) :
    (j.enter time).log p = j.log p ++ [⟨p, .enter, time⟩] := by
  simp [log, enter, h]

/-- **Who leaves** has one more record. -/
theorem log_leave (h : j.since = some entered) (p : ProcessId) (time : Int64) :
    (j.leave entered time).log p = j.log p ++ [⟨p, .exit, time⟩] := by
  simp [log, leave, h, Occupancy.entry, Occupancy.departure]

end Journal

namespace Log

/-- **A log in the order of time** with no record after a time. -/
structure Until (log : Log) (limit : Int) : Prop where
  inOrder : log.InOrder
  le : ∀ event ∈ log, event.time.toInt ≤ limit

variable {log : Log} {limit limit' : Int}

theorem until_nil (limit : Int) : Until [] limit := ⟨List.Pairwise.nil, by simp⟩

theorem Until.later (h : log.Until limit) (hle : limit ≤ limit') : log.Until limit' :=
  ⟨h.inOrder, fun event hevent => Int.le_trans (h.le event hevent) hle⟩

/-- A record may follow that is not before the time. -/
theorem Until.concat (h : log.Until limit) {event : Event} (hle : limit ≤ event.time.toInt) :
    Until (log ++ [event]) event.time.toInt := by
  have hbefore : ∀ e ∈ log, e.time.toInt ≤ event.time.toInt :=
    fun e he => Int.le_trans (h.le e he) hle
  refine ⟨List.pairwise_append.mpr ⟨h.inOrder, List.pairwise_singleton _ _, ?_⟩, ?_⟩
  · intro e he e' he'
    obtain rfl := List.mem_singleton.mp he'
    exact Int64.le_iff_toInt_le.mpr (hbefore e he)
  · intro e he
    rcases List.mem_append.mp he with he | he
    · exact hbefore e he
    · obtain rfl := List.mem_singleton.mp he
      exact Int.le_refl _

end Log

end CriticalSection
