import CriticalSection.Verifier.Report
import CriticalSection.Proofs.Verifier.Pairing

/-!
# Meetings

Two intervals of different processes **meet** when one of them begins inside the other. That is
read off a log without keeping account of what has been judged: for each entry with a partner, in
order, take the records between the two, in order, that are entries of other processes, or exits of
other processes without an entry. An exit with an entry shows nothing new. If the entry is inside
the window too, it has been met there before; if it comes before the window, then the window has
been met inside the interval of that process, which was searched earlier.
-/

set_option autoImplicit false

namespace CriticalSection

/-! ## Definitions -/

/-- **A meeting**: a window and a record of another process inside it, with the partner of the
record and its position, if it has one. -/
structure Meeting where
  window : Window
  position : Nat
  record : Event
  other : Option (Nat × Event)

/-- **A window of a log**: an entry and the exit that is its partner. -/
structure Window.Opens (w : Window) (log : Log) : Prop where
  enter : log[w.first]? = some w.enter
  entering : w.enter.kind = .enter
  partner : (Pairing.ofLog log).partner[w.first]? = some w.last
  exit : log[w.last]? = some w.exit

namespace Meeting

/-- The partner of the record at a position, with its own position. -/
def partner? (log : Log) (position : Nat) : Option (Nat × Event) :=
  ((Pairing.ofLog log).partner[position]?).bind fun i => (log[i]?).map fun event => (i, event)

/-- **A meeting takes place in a log.** -/
structure Occurs (m : Meeting) (log : Log) : Prop where
  opens : m.window.Opens log
  after : m.window.first < m.position
  before : m.position < m.window.last
  record : log[m.position]? = some m.record
  foreign : m.record.process ≠ m.window.enter.process
  /-- The record is an entry, or an exit without one. -/
  begins : m.record.kind = .enter ∨ (Pairing.ofLog log).partner[m.position]? = none
  other : m.other = partner? log m.position

/-- The meeting at a position inside the window that opens at another one, if there is one. -/
def at? (log : Log) (first position : Nat) : Option Meeting := do
  let enter ← log[first]?
  let last ← (Pairing.ofLog log).partner[first]?
  let exit ← log[last]?
  let record ← log[position]?
  if enter.kind = .enter ∧ first < position ∧ position < last ∧ record.process ≠ enter.process ∧
      (record.kind = .enter ∨ (Pairing.ofLog log).partner[position]? = none) then
    some ⟨⟨first, last, enter, exit⟩, position, record, partner? log position⟩
  else none

/-- The names of the two intervals that meet. -/
def intervals (m : Meeting) : Nat × Nat := Verifier.ordered m.window.first m.position

/-- The order of meetings: by their windows, and in a window by their records. -/
def Before (m m' : Meeting) : Prop :=
  m.window.first < m'.window.first ∨
    m.window.first = m'.window.first ∧ m.position < m'.position

/-- The overlap to report of a meeting. -/
def overlap {α : Type} [Quantity α] (margins : Margins α) (m : Meeting) : Overlap α :=
  m.window.judge margins m.position m.record m.other

end Meeting

/-- **Two positions meet**: there is an entry at the first, with its exit at `last`, and between the
two another process enters at the second position, or leaves there without having entered. -/
def Log.Meets (log : Log) (first last position : Nat) : Prop :=
  ∃ a b, log[first]? = some a ∧ log[position]? = some b ∧ a.kind = .enter ∧
    (Pairing.ofLog log).partner[first]? = some last ∧ first < position ∧ position < last ∧
    b.process ≠ a.process ∧
    (b.kind = .enter ∨ (Pairing.ofLog log).partner[position]? = none)

/-- **The meetings in a log**: for each window in order, for each position in order. -/
def Log.meetings (log : Log) : List Meeting :=
  (List.range log.length).flatMap fun first =>
    (List.range log.length).filterMap (Meeting.at? log first)

/-! ## Which meetings there are -/

theorem Window.Opens.last_lt {w : Window} {log : Log} (h : w.Opens log) :
    w.last < log.length := (List.getElem?_eq_some_iff.mp h.exit).1

/-- **Every entry with a partner opens a window.** -/
theorem Window.exists_opens {log : Log} {first last : Nat} {a : Event}
    (ha : log[first]? = some a) (hkind : a.kind = .enter)
    (hpartner : (Pairing.ofLog log).partner[first]? = some last) :
    ∃ exit, Window.Opens ⟨first, last, a, exit⟩ log := by
  obtain ⟨-, exit, -, hexit, -⟩ := Pairing.encloses_of_enter hpartner ha hkind
  exact ⟨exit, ha, hkind, hpartner, hexit⟩

theorem Verifier.ordered_of_lt {i j : Nat} (h : i < j) : ordered i j = (i, j) := by
  unfold ordered
  rw [Nat.min_eq_left (Nat.le_of_lt h), Nat.max_eq_right (Nat.le_of_lt h)]

theorem Verifier.ordered_comm (i j : Nat) : ordered i j = ordered j i := by
  unfold ordered
  rw [Nat.min_comm, Nat.max_comm]

namespace Meeting

variable {log : Log} {first position : Nat} {m : Meeting}

theorem at?_eq_some :
    at? log first position = some m ↔
      m.window.first = first ∧ m.position = position ∧ m.Occurs log := by
  simp only [at?, Option.bind_eq_bind, Option.bind_eq_some_iff, Option.ite_none_right_eq_some,
    Option.some.injEq]
  constructor
  · rintro ⟨enter, henter, last, hlast, exit, hexit, record, hrecord,
      ⟨hentering, hafter, hbefore, hforeign, hbegins⟩, rfl⟩
    exact ⟨rfl, rfl, ⟨henter, hentering, hlast, hexit⟩, hafter, hbefore, hrecord, hforeign,
      hbegins, rfl⟩
  · rintro ⟨rfl, rfl, h⟩
    refine ⟨_, h.opens.enter, _, h.opens.partner, _, h.opens.exit, _, h.record,
      ⟨h.opens.entering, h.after, h.before, h.foreign, h.begins⟩, ?_⟩
    rw [← h.other]

/-- Between the ends of a window, a record of another process that begins an interval is a
meeting. -/
theorem at?_of_opens {w : Window} (h : w.Opens log) (hafter : w.first < position)
    (hbefore : position < w.last) :
    at? log w.first position = (log[position]?).bind fun record =>
      if record.process ≠ w.enter.process ∧
          (record.kind = .enter ∨ (Pairing.ofLog log).partner[position]? = none) then
        some ⟨w, position, record, partner? log position⟩
      else none := by
  simp [at?, h.enter, h.partner, h.exit, h.entering, hafter, hbefore]

theorem Occurs.intervals_eq (h : m.Occurs log) : m.intervals = (m.window.first, m.position) :=
  Verifier.ordered_of_lt h.after

end Meeting

namespace Log

variable {log : Log} {m : Meeting}

/-- The windows that open before a position have just the meetings that begin before it. -/
theorem mem_flatMap_meetings {n : Nat} :
    m ∈ (List.range n).flatMap (fun first =>
        (List.range log.length).filterMap (Meeting.at? log first)) ↔
      m.Occurs log ∧ m.window.first < n := by
  simp only [List.mem_flatMap, List.mem_filterMap, List.mem_range, Meeting.at?_eq_some]
  constructor
  · rintro ⟨first, hfirst, position, -, rfl, rfl, h⟩
    exact ⟨h, hfirst⟩
  · rintro ⟨h, hfirst⟩
    have := h.opens.last_lt
    have := h.before
    exact ⟨m.window.first, hfirst, m.position, by omega, rfl, rfl, h⟩

/-- **The list holds all meetings that take place.** -/
theorem mem_meetings : m ∈ log.meetings ↔ m.Occurs log := by
  rw [meetings, mem_flatMap_meetings]
  refine ⟨fun h => h.1, fun h => ⟨h, ?_⟩⟩
  exact (List.getElem?_eq_some_iff.mp h.opens.enter).1

/-- **Whatever meets is on the list.** -/
theorem Meets.exists_mem {first last position : Nat} (h : log.Meets first last position) :
    ∃ m ∈ log.meetings, m.window.first = first ∧ m.window.last = last ∧
      m.position = position := by
  obtain ⟨a, b, ha, hb, hkind, hpartner, hafter, hbefore, hforeign, hbegins⟩ := h
  obtain ⟨exit, hopens⟩ := Window.exists_opens ha hkind hpartner
  refine ⟨⟨⟨first, last, a, exit⟩, position, b, Meeting.partner? log position⟩, ?_, rfl, rfl, rfl⟩
  exact mem_meetings.mpr ⟨hopens, hafter, hbefore, hb, hforeign, hbegins, rfl⟩

/-- **The list is in order.** -/
theorem pairwise_meetings (log : Log) : log.meetings.Pairwise Meeting.Before := by
  refine List.pairwise_flatMap.mpr ⟨fun first _ => ?_, ?_⟩
  · refine List.pairwise_filterMap.mpr (List.pairwise_lt_range.imp ?_)
    intro x x' hlt m hm m' hm'
    obtain ⟨rfl, rfl, -⟩ := Meeting.at?_eq_some.mp hm
    obtain ⟨hfirst, rfl, -⟩ := Meeting.at?_eq_some.mp hm'
    exact Or.inr ⟨hfirst.symm, hlt⟩
  · refine List.pairwise_lt_range.imp ?_
    intro first first' hlt m hm m' hm'
    obtain ⟨x, -, hm⟩ := List.mem_filterMap.mp hm
    obtain ⟨x', -, hm'⟩ := List.mem_filterMap.mp hm'
    obtain ⟨rfl, -⟩ := Meeting.at?_eq_some.mp hm
    obtain ⟨rfl, -⟩ := Meeting.at?_eq_some.mp hm'
    exact Or.inl hlt

/-- **No two meetings are of the same two intervals.** -/
theorem nodup_intervals (log : Log) : (log.meetings.map Meeting.intervals).Nodup := by
  refine List.pairwise_map.mpr ((pairwise_meetings log).imp_of_mem ?_)
  intro m m' hm hm' hbefore heq
  rw [(mem_meetings.mp hm).intervals_eq, (mem_meetings.mp hm').intervals_eq] at heq
  obtain ⟨hfirst, hposition⟩ := Prod.mk.inj heq
  rcases hbefore with hlt | ⟨-, hlt⟩ <;> omega

end Log

end CriticalSection
