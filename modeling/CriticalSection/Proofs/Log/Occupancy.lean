import Mathlib.Data.List.Pairwise
import CriticalSection.Proofs.Log.Order

/-!
# Occupancies

An **occupancy** is one stay of a process in the critical section, from its entry to its exit. A log
records a number of them when the records of each process are those of its own occupancies, one
after another; the records of different processes may stand in any order among each other.
-/

set_option autoImplicit false

namespace CriticalSection

/-- **One stay of a process** in the critical section. -/
structure Occupancy where
  process : ProcessId
  enter : Int64
  exit : Int64
  deriving DecidableEq, Repr

namespace Occupancy

/-- The record of the entry. -/
def entry (o : Occupancy) : Event := ⟨o.process, .enter, o.enter⟩

/-- The record of the exit. -/
def departure (o : Occupancy) : Event := ⟨o.process, .exit, o.exit⟩

/-- The records of some occupancies, one after another. -/
def records (os : List Occupancy) : Log := os.flatMap fun o => [o.entry, o.departure]

@[simp]
theorem records_nil : records [] = [] := rfl

@[simp]
theorem records_cons (o : Occupancy) (os : List Occupancy) :
    records (o :: os) = o.entry :: o.departure :: records os := rfl

@[simp]
theorem records_append (os os' : List Occupancy) :
    records (os ++ os') = records os ++ records os' :=
  List.flatMap_append

/-- **Occupancies of the section in turn**: none ends before it begins, and each begins when those
before it have ended. -/
structure InTurn (os : List Occupancy) : Prop where
  forward : ∀ o ∈ os, o.enter ≤ o.exit
  apart : os.Pairwise fun o o' => o.exit ≤ o'.enter

variable {os : List Occupancy} {o o' : Occupancy}

theorem InTurn.sublist {part : List Occupancy} (h : InTurn os) (hpart : part.Sublist os) :
    InTurn part :=
  ⟨fun o ho => h.forward o (hpart.subset ho), h.apart.sublist hpart⟩

/-- Of two occupancies one has ended when the other one begins. -/
theorem InTurn.ended (h : InTurn os) (ho : o ∈ os) (ho' : o' ∈ os) (hne : o ≠ o') :
    o.exit ≤ o'.enter ∨ o'.exit ≤ o.enter := by
  have hsymm : Std.Symm fun o o' : Occupancy => o.exit ≤ o'.enter ∨ o'.exit ≤ o.enter :=
    ⟨fun _ _ => Or.symm⟩
  have heither : os.Pairwise fun o o' => o.exit ≤ o'.enter ∨ o'.exit ≤ o.enter :=
    h.apart.imp Or.inl
  exact heither.forall ho ho' hne

/-- One more may follow when all others have ended. -/
theorem InTurn.concat (h : InTurn os) (hforward : o.enter ≤ o.exit)
    (hlast : ∀ o' ∈ os, o'.exit ≤ o.enter) : InTurn (os ++ [o]) := by
  refine ⟨fun o' ho' => ?_, List.pairwise_append.mpr ⟨h.apart, List.pairwise_singleton _ _, ?_⟩⟩
  · rcases List.mem_append.mp ho' with ho' | ho'
    · exact h.forward o' ho'
    · obtain rfl := List.mem_singleton.mp ho'
      exact hforward
  · intro o' ho' o'' ho''
    obtain rfl := List.mem_singleton.mp ho''
    exact hlast o' ho'

/-- The records of occupancies in turn are in the order of time. -/
theorem InTurn.inOrder (h : InTurn os) : (records os).InOrder := by
  induction os with
  | nil => exact List.Pairwise.nil
  | cons o rest ih =>
      have hforward := h.forward o List.mem_cons_self
      obtain ⟨hlater, hrest⟩ := List.pairwise_cons.mp h.apart
      have hafter : ∀ event ∈ records rest, o.exit ≤ event.time := by
        intro event hevent
        obtain ⟨o', ho', hevent⟩ := List.mem_flatMap.mp hevent
        have henter := hlater o' ho'
        have hexit := Int64.le_trans henter (h.forward o' (List.mem_cons_of_mem _ ho'))
        simp only [List.mem_cons, List.not_mem_nil, or_false] at hevent
        rcases hevent with rfl | rfl
        · exact henter
        · exact hexit
      have horder := ih (h.sublist (List.sublist_cons_self o rest))
      refine List.pairwise_cons.mpr ⟨fun event hevent => ?_,
        List.pairwise_cons.mpr ⟨hafter, horder⟩⟩
      rcases List.mem_cons.mp hevent with rfl | hevent
      · exact hforward
      · exact Int64.le_trans hforward (hafter event hevent)

/-! ## Finding the occupancy of a record -/

/-- **Every record is the entry or the exit of an occupancy**, and the other one is next to it. -/
theorem records_split {front rest : Log} {event : Event}
    (h : records os = front ++ event :: rest) :
    ∃ before o after, os = before ++ o :: after ∧
      (front = records before ∧ event = o.entry ∧ rest = o.departure :: records after ∨
        front = records before ++ [o.entry] ∧ event = o.departure ∧ rest = records after) := by
  induction os generalizing front with
  | nil => simp at h
  | cons o os ih =>
      rw [records_cons] at h
      rcases front with _ | ⟨a, _ | ⟨b, front⟩⟩
      · obtain ⟨rfl, rfl⟩ := List.cons.inj h
        exact ⟨[], o, os, rfl, Or.inl ⟨rfl, rfl, rfl⟩⟩
      · obtain ⟨rfl, htail⟩ := List.cons.inj h
        obtain ⟨rfl, rfl⟩ := List.cons.inj htail
        exact ⟨[], o, os, rfl, Or.inr ⟨rfl, rfl, rfl⟩⟩
      · obtain ⟨rfl, htail⟩ := List.cons.inj h
        obtain ⟨rfl, hrecords⟩ := List.cons.inj htail
        obtain ⟨before, o', after, rfl, hsplit⟩ := ih hrecords
        refine ⟨o :: before, o', after, rfl, ?_⟩
        rcases hsplit with ⟨hfront, hevent, hrest⟩ | ⟨hfront, hevent, hrest⟩
        · exact Or.inl ⟨by rw [hfront, records_cons], hevent, hrest⟩
        · exact Or.inr ⟨by rw [hfront, records_cons]; rfl, hevent, hrest⟩

/-- An entry is followed by the exit of the same occupancy. -/
theorem records_split_enter {front rest : Log} {event : Event}
    (h : records os = front ++ event :: rest) (hkind : event.kind = .enter) :
    ∃ before o after, os = before ++ o :: after ∧ front = records before ∧ event = o.entry ∧
      rest = o.departure :: records after := by
  obtain ⟨before, o, after, hos, hsplit | ⟨-, rfl, -⟩⟩ := records_split h
  · exact ⟨before, o, after, hos, hsplit⟩
  · cases hkind

/-- Before an exit stands the entry of the same occupancy. -/
theorem records_split_exit {front rest : Log} {event : Event}
    (h : records os = front ++ event :: rest) (hkind : event.kind = .exit) :
    ∃ before o after, os = before ++ o :: after ∧ front = records before ++ [o.entry] ∧
      event = o.departure ∧ rest = records after := by
  obtain ⟨before, o, after, hos, ⟨-, rfl, -⟩ | hsplit⟩ := records_split h
  · cases hkind
  · exact ⟨before, o, after, hos, hsplit⟩

end Occupancy

namespace Log

/-- **A log records occupancies** when the records of every process are those of its own. -/
def Records (log : Log) (os : List Occupancy) : Prop :=
  ∀ q, log.of q = Occupancy.records (os.filter fun o => o.process = q)

end Log

end CriticalSection
