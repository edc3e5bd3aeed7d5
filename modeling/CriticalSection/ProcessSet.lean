import CriticalSection.Error

/-!
# Sets of processes

A finite set of processes, kept as the list of its members in ascending order, so that equal sets
are equal lists.
-/

set_option autoImplicit false

namespace CriticalSection

/-- A set of processes. -/
structure ProcessSet where
  /-- The members in ascending order. -/
  toList : List ProcessId
  sorted : toList.Pairwise (· < ·)
  deriving DecidableEq

namespace ProcessSet

/-- Puts a process at its place in an ascending list. -/
def place (p : ProcessId) : List ProcessId → List ProcessId
  | [] => [p]
  | q :: rest => if p < q then p :: q :: rest else if p = q then q :: rest else q :: place p rest

theorem mem_place {p q : ProcessId} {list : List ProcessId} :
    q ∈ place p list ↔ q = p ∨ q ∈ list := by
  induction list with
  | nil => simp [place]
  | cons r rest ih =>
    simp only [place]
    split
    · simp
    · split
      · next h => subst h; simp
      · simp [ih]; grind

theorem sorted_place {p : ProcessId} {list : List ProcessId} (h : list.Pairwise (· < ·)) :
    (place p list).Pairwise (· < ·) := by
  induction list with
  | nil => simp [place]
  | cons q rest ih =>
    have hq := List.pairwise_cons.1 h
    simp only [place]
    split
    · next hpq =>
      refine List.pairwise_cons.2 ⟨fun r hr => ?_, h⟩
      rcases List.mem_cons.1 hr with rfl | hr
      · exact hpq
      · exact String.lt_trans hpq (hq.1 r hr)
    · split
      · exact h
      · next hpq hne =>
        refine List.pairwise_cons.2 ⟨fun r hr => ?_, ih hq.2⟩
        rcases mem_place.1 hr with rfl | hr
        · exact Decidable.byContradiction fun hrq =>
            hne (String.le_antisymm (String.not_lt.1 hrq) (String.not_lt.1 hpq))
        · exact hq.1 r hr

/-- The empty set. -/
def empty : ProcessSet := ⟨[], List.Pairwise.nil⟩

/-- The set with one process more. -/
def insert (set : ProcessSet) (p : ProcessId) : ProcessSet :=
  ⟨place p set.toList, sorted_place set.sorted⟩

/-- **The set of the processes on a list.** -/
def ofList (list : List ProcessId) : ProcessSet :=
  list.foldr (fun p set => set.insert p) empty

/-- The number of members. -/
def size (set : ProcessSet) : Nat := set.toList.length

end ProcessSet

end CriticalSection
