import CriticalSection.Proofs.Verifier.Sides

/-!
# Ties between intervals

An interval is named by its process and the rank of its first record. Logs with the same records of
every process have the same intervals under these names, with the same times. So a meeting can be
looked for in another such log: its records are there (`Meeting.Found`), and whether they meet there
too depends on the order in which they stand. Two intervals are tied when a record of the one has
the time of a record of the other. If they are not, their times tell the order of their records, and
they meet in both logs or in neither, in the same shape.
-/

set_option autoImplicit false

namespace CriticalSection

/-! ## Definitions -/

namespace Log

/-- The times of the interval that begins with a record: that of its entry and that of its exit. -/
def times (log : Log) (i : Nat) (a : Event) : Option Int64 × Option Int64 :=
  let other := (Meeting.partner? log i).map fun other => other.2.time
  match a.kind with
  | .enter => (some a.time, other)
  | .exit => (other, some a.time)

/-- **A log has an interval** of this name with these times. It begins with an entry, or with an
exit that has no partner. -/
def HasInterval (log : Log) (name : ProcessId × Nat) (times : Option Int64 × Option Int64) : Prop :=
  ∃ i a, log[i]? = some a ∧ (a.kind = .enter ∨ (Pairing.ofLog log).partner[i]? = none) ∧
    (a.process, log.rank a.process i) = name ∧ log.times i a = times

end Log

/-- **A meeting found again**: where the records that make it stand in another log. -/
structure Meeting.Found (m : Meeting) (log log' : Log) (first last position : Nat) : Prop where
  enter : log'[first]? = some m.window.enter
  exit : Meeting.partner? log' first = some (last, m.window.exit)
  record : log'[position]? = some m.record
  other : (Meeting.partner? log' position).map Prod.snd = m.other.map Prod.snd
  rank_enter : log'.rank m.window.enter.process first =
    log.rank m.window.enter.process m.window.first
  rank_record : log'.rank m.record.process position = log.rank m.record.process m.position

/-! ## Intervals by their names -/

namespace Log

variable {α : Type} {log log' : Log} {i i' : Nat} {a : Event} {name : ProcessId × Nat}
  {times times' : Option Int64 × Option Int64}

/-- An interval has one entry and one exit. -/
theorem HasInterval.unique (h : log.HasInterval name times) (h' : log.HasInterval name times') :
    times = times' := by
  obtain ⟨i, a, ha, -, rfl, rfl⟩ := h
  obtain ⟨i', a', ha', -, hname, rfl⟩ := h'
  obtain ⟨hprocess, hrank⟩ := Prod.mk.inj hname
  obtain rfl := eq_of_rank_eq ha' ha hprocess hrank
  rw [Option.some.inj (ha.symm.trans ha')]

theorem SameRecords.symm (h : log.SameRecords log') : log'.SameRecords log :=
  fun p => (h p).symm

theorem SameRecords.hasInterval (h : log.SameRecords log') (hname : log.HasInterval name times) :
    log'.HasInterval name times := by
  obtain ⟨i, a, ha, hbegins, rfl, rfl⟩ := hname
  obtain ⟨i', ha', hrank⟩ := h.exists_position ha
  have hpartner := h.partner? ha ha' hrank.symm
  refine ⟨i', a, ha', hbegins.imp_right fun hnone => ?_, by rw [hrank], ?_⟩
  · rw [Verifier.partner?_eq_none_iff.mpr hnone, Option.map_none] at hpartner
    exact Verifier.partner?_eq_none_iff.mp (Option.map_eq_none_iff.mp hpartner.symm)
  · have htimes := congrArg (Option.map Event.time) hpartner
    rw [Option.map_map, Option.map_map] at htimes
    unfold Log.times
    cases a.kind with
    | enter => exact congrArg (some a.time, ·) htimes.symm
    | exit => exact congrArg (·, some a.time) htimes.symm

end Log

/-! ## Meetings found again -/

namespace Meeting

variable {α : Type} {log log' : Log} {m : Meeting} {first last position : Nat}

/-- The record begins an interval in the other log too. -/
theorem Found.begins (h : m.Found log log' first last position) (hm : m.Occurs log) :
    m.record.kind = .enter ∨ (Pairing.ofLog log').partner[position]? = none := by
  refine hm.begins.imp_right fun hnone => ?_
  have hother := h.other
  rw [hm.other, Verifier.partner?_eq_none_iff.mpr hnone] at hother
  exact Verifier.partner?_eq_none_iff.mp (Option.map_eq_none_iff.mp hother)

end Meeting

end CriticalSection
