import Mathlib.Data.List.Nodup
import Mathlib.Data.List.Perm.Subperm
import Mathlib.Logic.Function.Basic
import CriticalSection.Proofs.Coordinator.Waits

/-!
# Arrivals at the barriers of a process

Some members come to the two barriers of a process again and again, all of them in the same order
of phases, and none of them comes again before the barrier it waits at has opened. Then the barriers
open in that order too, each time with all members in front of them. Between two openings some
members have arrived once more than the barriers have opened, the others have not yet, and the
barrier whose turn it is not is empty.
-/

set_option autoImplicit false

namespace CriticalSection

/-! ## Attendance -/

/-- **The attendance at a process**: how often its barriers have opened, and how often each process
has arrived at them. -/
structure Attendance where
  opened : Nat
  arrivals : ProcessId → Nat

namespace Attendance

/-- Before anybody has arrived. -/
def empty : Attendance := ⟨0, fun _ => 0⟩

/-- One more arrival of a process, at which a barrier opens or not. -/
def arrive (a : Attendance) (p : ProcessId) (opens : Bool) : Attendance where
  opened := a.opened + opens.toNat
  arrivals := Function.update a.arrivals p (a.arrivals p + 1)

theorem arrivals_arrive (a : Attendance) (p : ProcessId) (opens : Bool) :
    (a.arrive p opens).arrivals p = a.arrivals p + 1 := Function.update_self ..

theorem arrivals_arrive_of_ne (a : Attendance) {p q : ProcessId} (opens : Bool) (h : q ≠ p) :
    (a.arrive p opens).arrivals q = a.arrivals q := Function.update_of_ne h ..

theorem opened_arrive (a : Attendance) (p : ProcessId) (opens : Bool) :
    (a.arrive p opens).opened = a.opened + opens.toNat := rfl

end Attendance

namespace Coordinator

/-- **How the barriers of a process stand** when some members come to them in an order of phases. -/
structure Attended (c : Coordinator) (order : Nat → Phase) (members : List ProcessId)
    (owner : ProcessId) (a : Attendance) : Prop where
  /-- Nobody is behind, and nobody is more than one arrival ahead. -/
  pace : ∀ p ∈ members, a.arrivals p = a.opened ∨ a.arrivals p = a.opened + 1
  nodup : (c.barrier (order a.opened) owner).arrived.Nodup
  /-- In front of the barrier whose turn it is are the members that are ahead. -/
  arrived : ∀ p, p ∈ (c.barrier (order a.opened) owner).arrived ↔
    p ∈ members ∧ a.arrivals p = a.opened + 1
  missing : (c.barrier (order a.opened) owner).arrived.length < members.length
  elsewhere : ∀ phase, phase ≠ order a.opened → (c.barrier phase owner).arrived = []

/-! ## One arrival -/

/-- Whether a barrier of a process opens when a caller arrives at it. -/
def lets (c : Coordinator) (phase : Phase) (owner caller : ProcessId) : Bool :=
  ((c.barrier phase owner).arrive caller c.issued).opens c.expected

theorem fst_rendezvous (c : Coordinator) (phase : Phase) (owner caller : ProcessId) :
    (c.rendezvous phase owner caller).1 =
      if c.lets phase owner caller then .answered (.ok ())
      else .parked ⟨.barrier phase owner, c.issued⟩ := by
  unfold rendezvous lets
  dsimp only
  split <;> rfl

theorem barrier_rendezvous (c : Coordinator) (phase : Phase) (owner caller : ProcessId)
    (other : Phase) (q : ProcessId) :
    (c.rendezvous phase owner caller).2.barrier other q =
      if other = phase ∧ q = owner then
        if c.lets phase owner caller then .closed
        else (c.barrier phase owner).arrive caller c.issued
      else c.barrier other q := by
  unfold rendezvous lets
  dsimp only
  split
  · rw [← barrier_insert]
    cases other <;> rfl
  · rw [← barrier_insert]
    cases other <;> rfl

theorem expected_rendezvous (c : Coordinator) (phase : Phase) (owner caller : ProcessId) :
    (c.rendezvous phase owner caller).2.expected = c.expected := by
  unfold rendezvous
  dsimp only
  split <;> cases phase <;> rfl

section Attended

variable {c c' : Coordinator} {order : Nat → Phase} {members : List ProcessId}
  {owner p : ProcessId} {a : Attendance}

/-- At the barriers of a new coordinator nobody has arrived. -/
theorem attended_empty (order : Nat → Phase) (hp : p ∈ members)
    (hclosed : ∀ phase, c.barrier phase owner = .closed) :
    c.Attended order members owner .empty := by
  refine ⟨fun _ _ => Or.inl rfl, ?_, fun q => ?_, ?_, fun phase _ => ?_⟩
  · rw [hclosed]
    exact List.nodup_nil
  · rw [hclosed]
    simp [Barrier.closed, Attendance.empty]
  · rw [hclosed]
    exact List.length_pos_of_mem hp
  · rw [hclosed]
    rfl

/-- Only the barriers of the process itself count. -/
theorem Attended.congr (h : c.Attended order members owner a)
    (hbarrier : ∀ phase, c'.barrier phase owner = c.barrier phase owner) :
    c'.Attended order members owner a := by
  refine ⟨h.pace, ?_, ?_, ?_, fun phase hphase => ?_⟩
  · rw [hbarrier]
    exact h.nodup
  · rw [hbarrier]
    exact h.arrived
  · rw [hbarrier]
    exact h.missing
  · rw [hbarrier]
    exact h.elsewhere phase hphase

/-- **Somebody is still missing**, or the barrier would have opened. -/
theorem Attended.exists_missing (h : c.Attended order members owner a) (hmembers : members.Nodup) :
    ∃ p ∈ members, a.arrivals p = a.opened := by
  by_contra hnobody
  have hall : members ⊆ (c.barrier (order a.opened) owner).arrived := by
    intro p hp
    rcases h.pace p hp with hbehind | hahead
    · exact absurd ⟨p, hp, hbehind⟩ hnobody
    · exact (h.arrived p).mpr ⟨hp, hahead⟩
  have hlength := (hmembers.subperm hall).length_le
  have hmissing := h.missing
  omega

/-- Who is in front of a barrier once a member has arrived that is not ahead. -/
theorem Attended.mem_insert (h : c.Attended order members owner a) (hp : p ∈ members)
    (hdue : a.arrivals p = a.opened) (opens : Bool) (q : ProcessId) :
    q ∈ (c.barrier (order a.opened) owner).arrived.insert p ↔
      q ∈ members ∧ (a.arrive p opens).arrivals q = a.opened + 1 := by
  rw [List.mem_insert_iff, h.arrived]
  by_cases hq : q = p
  · subst hq
    rw [Attendance.arrivals_arrive, hdue]
    simp [hp]
  · rw [Attendance.arrivals_arrive_of_ne a opens hq]
    simp [hq]

/-- An arrival at which the barrier opens: all members have arrived, and nobody is ahead any more.
-/
theorem Attended.opening (h : c.Attended order members owner a)
    (hexpected : c.expected.toNat = members.length) (hp : p ∈ members)
    (hdue : a.arrivals p = a.opened) (hlets : c.lets (order a.opened) owner p = true) :
    (c.rendezvous (order a.opened) owner p).2.Attended order members owner (a.arrive p true) := by
  have hmem := h.mem_insert hp hdue true
  have hnodup : ((c.barrier (order a.opened) owner).arrived.insert p).Nodup :=
    List.Nodup.insert h.nodup
  -- There are as many processes in front of the barrier as there are members.
  have hlength : members.length ≤
      ((c.barrier (order a.opened) owner).arrived.insert p).length := by
    rw [← hexpected]
    exact of_decide_eq_true hlets
  have hperm := (hnodup.subperm fun q hq => ((hmem q).mp hq).1).perm_of_length_le hlength
  have hall : ∀ q ∈ members, (a.arrive p true).arrivals q = a.opened + 1 :=
    fun q hq => ((hmem q).mp (hperm.mem_iff.mpr hq)).2
  have hclosed : ∀ phase, ((c.rendezvous (order a.opened) owner p).2.barrier phase
      owner).arrived = [] := by
    intro phase
    rw [barrier_rendezvous, hlets]
    by_cases hphase : phase = order a.opened
    · simp [hphase, Barrier.closed]
    · simp [hphase, h.elsewhere phase hphase]
  refine ⟨fun q hq => Or.inl (hall q hq), ?_, fun q => ?_, ?_, fun phase _ => hclosed phase⟩
  · rw [hclosed]
    exact List.nodup_nil
  · rw [hclosed]
    refine iff_of_false List.not_mem_nil fun hq => ?_
    have hopened : (a.arrive p true).opened = a.opened + 1 := rfl
    have harrived := hall q hq.1
    omega
  · rw [hclosed]
    exact List.length_pos_of_mem hp

/-- An arrival at which the barrier stays closed: one member more is ahead, and somebody is still
missing. -/
theorem Attended.waiting (h : c.Attended order members owner a)
    (hexpected : c.expected.toNat = members.length) (hp : p ∈ members)
    (hdue : a.arrivals p = a.opened) (hlets : c.lets (order a.opened) owner p = false) :
    (c.rendezvous (order a.opened) owner p).2.Attended order members owner (a.arrive p false) := by
  have hopened : (a.arrive p false).opened = a.opened := rfl
  have harrived : ((c.rendezvous (order a.opened) owner p).2.barrier (order a.opened)
      owner).arrived = (c.barrier (order a.opened) owner).arrived.insert p := by
    rw [barrier_rendezvous, hlets]
    simp [Barrier.arrive]
  refine ⟨fun q hq => ?_, ?_, ?_, ?_, fun phase hphase => ?_⟩
  · by_cases hqp : q = p
    · subst hqp
      rw [Attendance.arrivals_arrive, hopened, hdue]
      exact Or.inr rfl
    · rw [Attendance.arrivals_arrive_of_ne a false hqp]
      exact h.pace q hq
  · rw [hopened, harrived]
    exact List.Nodup.insert h.nodup
  · rw [hopened, harrived]
    exact h.mem_insert hp hdue false
  · rw [hopened, harrived, ← hexpected]
    exact Nat.lt_of_not_le (of_decide_eq_false hlets)
  · rw [hopened] at hphase
    rw [barrier_rendezvous, if_neg fun hsame => hphase hsame.1]
    exact h.elsewhere phase hphase

/-- **One arrival.** A member that is not ahead arrives at the barrier whose turn it is, and the
barrier opens or not. -/
theorem Attended.rendezvous (h : c.Attended order members owner a)
    (hexpected : c.expected.toNat = members.length) (hp : p ∈ members)
    (hdue : a.arrivals p = a.opened) :
    (c.rendezvous (order a.opened) owner p).2.Attended order members owner
      (a.arrive p (c.lets (order a.opened) owner p)) := by
  cases hlets : c.lets (order a.opened) owner p with
  | true => exact h.opening hexpected hp hdue hlets
  | false => exact h.waiting hexpected hp hdue hlets

/-- An arrival at the barrier of one process is none at those of another. -/
theorem Attended.rendezvous_of_ne (h : c.Attended order members owner a) (phase : Phase)
    {other : ProcessId} (hne : owner ≠ other) (caller : ProcessId) :
    (c.rendezvous phase other caller).2.Attended order members owner a := by
  refine h.congr fun phase' => ?_
  rw [barrier_rendezvous, if_neg fun hsame => hne hsame.2]

end Attended

end Coordinator

end CriticalSection
