import CriticalSection.Proofs.Coordinator.Renumbering

/-!
# Several coordinators and a single one

When each process has its place at one of several coordinators, these **mirror** a single one if
they are its parts and no number of the single one stands for the tickets of two of them
(`Coordinator.Mirrors`). What is asked about a process, at its place and at the single coordinator,
is answered in the same way, and leaves them so (`Coordinator.Follows`).
-/

set_option autoImplicit false

namespace CriticalSection

namespace Coordinator

variable {ι : Type} {f : ProcessId → ι} {i : ι} {a c c' : Coordinator}

/-! ## Numbers at the single coordinator -/

section Extend

variable [DecidableEq ι] {numbers : ι → Nat → Nat} {j : ι} {n m number : Nat}

/-- The numbers that tickets have at the single coordinator, with one for another ticket. -/
def extend (numbers : ι → Nat → Nat) (i : ι) (n number : Nat) : ι → Nat → Nat :=
  Function.update numbers i (Function.update (numbers i) n number)

theorem extend_self (numbers : ι → Nat → Nat) (i : ι) (n number : Nat) :
    extend numbers i n number i = Function.update (numbers i) n number :=
  Function.update_self ..

theorem extend_new : extend numbers i n number i n = number := by
  rw [extend_self, Function.update_self]

/-- All other tickets keep their numbers. -/
theorem extend_old (h : j = i → m ≠ n) : extend numbers i n number j m = numbers j m := by
  by_cases hj : j = i
  · subst hj
    rw [extend_self, Function.update_of_ne (h rfl)]
  · rw [extend, Function.update_of_ne hj]

end Extend

/-! ## Mirrors -/

section Mirrors

variable {numbers numbers' : ι → Nat → Nat} {cs : ι → Coordinator} {p : ProcessId}

/-- **Several coordinators mirror a single one** when each process has its place at one of them. -/
structure Mirrors (f : ProcessId → ι) (numbers : ι → Nat → Nat) (cs : ι → Coordinator)
    (c : Coordinator) : Prop where
  part : ∀ i, IsPart f i (numbers i) (cs i) c
  /-- No number of the single coordinator stands for tickets of two others. -/
  apart : ∀ i j n m, i ≠ j → n < (cs i).issued → m < (cs j).issued → numbers i n ≠ numbers j m
  fresh : ∀ n, c.issued ≤ n → c.answers[n]? = none

namespace Mirrors

/-- New coordinators mirror a new one. -/
theorem new (f : ProcessId → ι) (expected : UInt64) :
    Mirrors f (fun _ n => n) (fun _ => .new expected) (.new expected) := by
  have hnobody : ∀ t, ¬ (Coordinator.new expected).Waits t := not_waits_of_empty expected 0 ∅
  refine ⟨fun i => ⟨rfl, fun p _ => ?_, fun phase p _ => ?_, fun n hn => ?_,
    fun t ht => absurd ht (hnobody t), fun t ht => absurd ht (hnobody t), fun n hn => hn,
    fun n m _ _ heq => heq, fun n _ => ?_⟩, fun i j n m _ hn => ?_, fun n _ => ?_⟩
  · simp [Coordinator.new]
  · exact (barrier_of_empty expected ∅ 0 ∅ phase p).trans
      (congrArg (Barrier.renumber _) (barrier_of_empty expected ∅ 0 ∅ phase p).symm)
  · exact absurd hn (Nat.not_lt_zero n)
  · exact Std.TreeMap.getElem?_emptyc
  · exact absurd hn (Nat.not_lt_zero n)
  · exact Std.TreeMap.getElem?_emptyc

theorem restart (h : Mirrors f numbers cs c) (expected : UInt64) :
    Mirrors f numbers (fun i => (cs i).restart expected) (c.restart expected) := by
  refine ⟨fun i => (h.part i).restart expected fun place n hc hplace m hm heq => ?_,
    h.apart, fun n hn => ?_⟩
  · obtain ⟨k, hk, hnumber⟩ := ((h.part (f place.owner)).waits_iff rfl).mp hc
    exact h.apart i (f place.owner) m k (Ne.symm hplace) hm ((h.part _).issued _ hk)
      (heq.trans hnumber.symm)
  · rw [answers_restart_of_not_waits, h.fresh n hn]
    intro place hc
    obtain ⟨k, hk, hnumber⟩ := ((h.part (f place.owner)).waits_iff rfl).mp hc
    have := (h.part (f place.owner)).number_lt k ((h.part _).issued _ hk)
    exact Nat.not_lt.mpr hn (hnumber ▸ this)

theorem records_eq (h : Mirrors f numbers cs c) (p : ProcessId) :
    c.records[p]? = ((cs (f p)).records[p]?).map (Record.renumber (numbers (f p))) :=
  (h.part (f p)).records p rfl

theorem barrier_eq (h : Mirrors f numbers cs c) (phase : Phase) (p : ProcessId) :
    c.barrier phase p = ((cs (f p)).barrier phase p).renumber (numbers (f p)) :=
  (h.part (f p)).barriers phase p rfl

variable [DecidableEq ι]

/-- A change at one of the coordinators, in which no ticket is given out. -/
theorem update (h : Mirrors f numbers cs c) (hself : IsPart f i (numbers i) a c')
    (hissued : a.issued = (cs i).issued) (hother : ∀ j, j ≠ i → IsPart f j (numbers j) (cs j) c')
    (hfresh : ∀ n, c'.issued ≤ n → c'.answers[n]? = none) :
    Mirrors f numbers (Function.update cs i a) c' := by
  have hsame : ∀ j, (Function.update cs i a j).issued = (cs j).issued := by
    intro j
    by_cases hj : j = i
    · subst hj
      rw [Function.update_self, hissued]
    · rw [Function.update_of_ne hj]
  refine ⟨fun j => ?_, fun j k n m hne hn hm => ?_, hfresh⟩
  · by_cases hj : j = i
    · subst hj
      rw [Function.update_self]
      exact hself
    · rw [Function.update_of_ne hj]
      exact hother j hj
  · rw [hsame] at hn hm
    exact h.apart j k n m hne hn hm

theorem withRecord (h : Mirrors f numbers cs c) {r : Record}
    (hr : ∀ n ∈ r.tickets, n < (cs (f p)).issued) :
    Mirrors f numbers (Function.update cs (f p) ((cs (f p)).withRecord p r))
      (c.withRecord p (r.renumber (numbers (f p)))) := by
  refine h.update ((h.part _).withRecord hr) rfl (fun j hj => ?_) h.fresh
  refine (h.part j).frame rfl (fun q hq => ?_) (fun _ _ _ => rfl) (fun _ _ => rfl) (Nat.le_refl _)
  rw [records_withRecord, if_neg]
  rintro rfl
  exact hj hq.symm

theorem withBarrier (h : Mirrors f numbers cs c) (phase : Phase) {b : Barrier}
    (hb : ∀ n ∈ b.waiting, n < (cs (f p)).issued) :
    Mirrors f numbers
      (Function.update cs (f p)
        ((cs (f p)).withBarriers phase (((cs (f p)).barriers phase).insert p b)))
      (c.withBarriers phase ((c.barriers phase).insert p (b.renumber (numbers (f p))))) := by
  refine h.update ((h.part _).withBarrier phase hb) (issued_withBarriers _ _ _) (fun j hj => ?_)
    fun n hn => ?_
  · refine (h.part j).frame (expected_withBarriers c phase _) (fun q _ => ?_) (fun other q hq => ?_)
      (fun n _ => ?_) (Nat.le_of_eq (issued_withBarriers c phase _).symm)
    · rw [records_withBarriers]
    · rw [barrier_insert, if_neg]
      rintro ⟨-, rfl⟩
      exact hj hq.symm
    · rw [answers_withBarriers]
  · rw [issued_withBarriers] at hn
    rw [answers_withBarriers, h.fresh n hn]

theorem settle (h : Mirrors f numbers cs c) (i : ι) (answer : Answer) {tickets : List Nat}
    (htickets : ∀ n ∈ tickets, n < (cs i).issued) :
    Mirrors f numbers (Function.update cs i ((cs i).settle answer tickets))
      (c.settle answer (tickets.map (numbers i))) := by
  refine h.update ((h.part i).settle answer htickets) rfl (fun j hj => ?_) fun n hn => ?_
  · refine (h.part j).frame rfl (fun _ _ => rfl) (fun _ _ _ => rfl) (fun n hn => ?_) (Nat.le_refl _)
    rw [answers_settle, if_neg]
    intro hmem
    obtain ⟨m, hm, heq⟩ := List.mem_map.mp hmem
    exact h.apart i j m n (Ne.symm hj) (htickets m hm) hn heq
  · rw [answers_settle, if_neg, h.fresh n hn]
    intro hmem
    obtain ⟨m, hm, rfl⟩ := List.mem_map.mp hmem
    exact Nat.not_lt.mpr hn ((h.part i).number_lt m (htickets m hm))

/-- **A ticket is given out** at one of the coordinators and at the single one. -/
theorem issue (h : Mirrors f numbers cs c) (i : ι) :
    Mirrors f (extend numbers i (cs i).issued c.issued)
      (Function.update cs i { cs i with issued := (cs i).issued + 1 })
      { c with issued := c.issued + 1 } := by
  have hpart := (h.part i).issue (h.fresh _ (Nat.le_refl _))
  refine ⟨fun j => ?_, fun j k n m hne hn hm => ?_, fun n hn => h.fresh n (Nat.le_of_succ_le hn)⟩
  · by_cases hj : j = i
    · subst hj
      rw [extend_self, Function.update_self]
      exact hpart
    · rw [extend, Function.update_of_ne hj, Function.update_of_ne hj]
      exact (h.part j).frame rfl (fun _ _ => rfl) (fun phase _ _ => by cases phase <;> rfl)
        (fun _ _ => rfl) (Nat.le_succ _)
  · -- The new number is past all that stand for tickets so far.
    have hcases : ∀ j n,
        n < (Function.update cs i { cs i with issued := (cs i).issued + 1 } j).issued →
        (n < (cs j).issued ∧ extend numbers i (cs i).issued c.issued j n = numbers j n) ∨
        (j = i ∧ extend numbers i (cs i).issued c.issued j n = c.issued) := by
      intro j n hn
      by_cases hj : j = i
      · subst hj
        rw [Function.update_self] at hn
        rcases Nat.lt_or_eq_of_le (Nat.le_of_lt_succ hn) with hlt | rfl
        · exact Or.inl ⟨hlt, extend_old fun _ => Nat.ne_of_lt hlt⟩
        · exact Or.inr ⟨rfl, extend_new⟩
      · rw [Function.update_of_ne hj] at hn
        exact Or.inl ⟨hn, extend_old fun heq => absurd heq hj⟩
    rcases hcases j n hn with ⟨hlt, hold⟩ | ⟨rfl, hnew⟩
    · rcases hcases k m hm with ⟨hlt', hold'⟩ | ⟨rfl, hnew'⟩
      · rw [hold, hold']
        exact h.apart j k n m hne hlt hlt'
      · rw [hold, hnew']
        exact Nat.ne_of_lt ((h.part j).number_lt n hlt)
    · rcases hcases k m hm with ⟨hlt', hold'⟩ | ⟨rfl, -⟩
      · rw [hnew, hold']
        exact (Nat.ne_of_lt ((h.part k).number_lt m hlt')).symm
      · exact absurd rfl hne

theorem hangUp (h : Mirrors f numbers cs c) {t : Ticket}
    (ht : t.number < (cs (f t.place.owner)).issued) :
    Mirrors f numbers
      (Function.update cs (f t.place.owner) ((cs (f t.place.owner)).hangUp t))
      (c.hangUp ⟨t.place, numbers (f t.place.owner) t.number⟩) := by
  refine h.update ((h.part _).hangUp ht) (issued_hangUp _ _) (fun j hj => ?_) fun n hn => ?_
  · refine (h.part j).frame (expected_hangUp c _) (fun p hp => ?_) (fun phase p hp => ?_)
      (fun n _ => ?_) (Nat.le_of_eq (issued_hangUp c _).symm)
    · rw [records_hangUp, if_neg]
      intro hplace
      exact hj (by rw [show t.place = .record p from hplace]; exact hp.symm)
    · rw [barrier_hangUp, if_neg]
      intro hplace
      exact hj (by rw [show t.place = .barrier phase p from hplace]; exact hp.symm)
    · rw [answers_hangUp]
  · rw [issued_hangUp] at hn
    rw [answers_hangUp, h.fresh n hn]

theorem subscribe (h : Mirrors f numbers cs c) (p : ProcessId) :
    Mirrors f numbers (Function.update cs (f p) ((cs (f p)).subscribe p)) (c.subscribe p) := by
  unfold Coordinator.subscribe
  rw [h.records_eq p]
  cases hr : (cs (f p)).records[p]? with
  | none => exact h.withRecord (r := .fresh) (by simp [Record.fresh, Record.tickets])
  | some old =>
      have hsettled := h.settle (f p) .interrupted ((h.part _).record_lt hr)
      have hfresh := hsettled.withRecord (p := p) (r := .fresh)
        (by simp [Record.fresh, Record.tickets])
      rw [Function.update_self, Function.update_idem] at hfresh
      simp only [Option.map_some, Record.tickets_renumber]
      exact hfresh

end Mirrors

/-! ## Calls at a place and at the single coordinator -/

variable {α β : Type} [DecidableEq ι]

/-- **A call that concerns a process goes at its place as at the single coordinator**: both react
in the same way, up to the number of the ticket, and go on mirroring. -/
structure Follows (f : ProcessId → ι) (numbers : ι → Nat → Nat) (cs : ι → Coordinator)
    (p : ProcessId) (here there : Reaction α × Coordinator) (numbers' : ι → Nat → Nat) : Prop where
  mirrors : Mirrors f numbers' (Function.update cs (f p) here.2) there.2
  /-- The tickets that have been given out keep their numbers. -/
  kept : ∀ i n, n < (cs i).issued → numbers' i n = numbers i n
  issued : (cs (f p)).issued ≤ here.2.issued
  reaction : there.1 = here.1.renumber fun t => numbers' (f p) t.number
  parked : ∀ t, here.1 = .parked t → t.place.owner = p ∧ t.number < here.2.issued

namespace Follows

theorem map {here there : Reaction α × Coordinator}
    (h : Follows f numbers cs p here there numbers') (g : α → β) :
    Follows f numbers cs p (here.1.map g, here.2) (there.1.map g, there.2) numbers' := by
  refine ⟨h.mirrors, h.kept, h.issued, ?_, fun t ht => h.parked t ?_⟩
  · rw [Reaction.renumber_map, h.reaction]
  · cases hreaction : here.1 with
    | answered outcome =>
        rw [hreaction] at ht
        cases ht
    | parked u =>
        rw [hreaction] at ht
        exact congrArg Reaction.parked (Reaction.parked.inj ht)

/-- A call that is answered at once. -/
theorem answered (h : Mirrors f numbers (Function.update cs (f p) a) c)
    (hissued : a.issued = (cs (f p)).issued) (outcome : Outcome α) :
    Follows f numbers cs p (.answered outcome, a) (.answered outcome, c) numbers :=
  ⟨h, fun _ _ _ => rfl, Nat.le_of_eq hissued.symm, rfl, fun _ ht => by cases ht⟩

/-- A call that changes nothing. -/
theorem unchanged (h : Mirrors f numbers cs c) (p : ProcessId) (outcome : Outcome α) :
    Follows f numbers cs p (.answered outcome, cs (f p)) (.answered outcome, c) numbers :=
  answered ((Function.update_eq_self (f p) cs).symm ▸ h) rfl outcome

/-- A call that is parked with the next ticket. -/
theorem issue {place : Place} (hplace : place.owner = p)
    (hissued : a.issued = (cs (f p)).issued + 1)
    (h : Mirrors f (extend numbers (f p) (cs (f p)).issued c.issued) (Function.update cs (f p) a)
      c') :
    Follows f numbers cs p (.parked (α := α) ⟨place, (cs (f p)).issued⟩, a)
      (.parked ⟨place, c.issued⟩, c') (extend numbers (f p) (cs (f p)).issued c.issued) := by
  refine ⟨h, fun i n hn => ?_, ?_, ?_, fun t ht => ?_⟩
  · refine extend_old fun hi => ?_
    subst hi
    exact Nat.ne_of_lt hn
  · show (cs (f p)).issued ≤ a.issued
    omega
  · simp [Reaction.renumber, extend_new]
  · obtain rfl := Reaction.parked.inj ht
    refine ⟨hplace, ?_⟩
    show (cs (f p)).issued < a.issued
    omega

end Follows

namespace Mirrors

theorem announce (h : Mirrors f numbers cs c) (p : ProcessId) :
    Follows f numbers cs p (.answered ((cs (f p)).announce p).1, ((cs (f p)).announce p).2)
      (.answered (c.announce p).1, (c.announce p).2) numbers := by
  unfold Coordinator.announce
  rw [h.records_eq p]
  cases hr : (cs (f p)).records[p]? with
  | none => exact .unchanged h p _
  | some r =>
      simp only [Option.map_some, Record.announce_renumber]
      refine .answered (h.withRecord ?_) rfl _
      rw [Record.tickets_announce]
      exact (h.part _).record_lt hr

theorem enter (h : Mirrors f numbers cs c) (p : ProcessId) :
    Follows f numbers cs p (.answered ((cs (f p)).enter p).1, ((cs (f p)).enter p).2)
      (.answered (c.enter p).1, (c.enter p).2) numbers := by
  unfold Coordinator.enter
  rw [h.records_eq p]
  cases hr : (cs (f p)).records[p]? with
  | none => exact .unchanged h p _
  | some r =>
      have hlt : ∀ n ∈ r.enter.tickets, n < (cs (f p)).issued := fun n => (h.part _).record_lt hr n
      exact .answered (h.withRecord hlt) rfl _

theorem leave (h : Mirrors f numbers cs c) (p : ProcessId) :
    Follows f numbers cs p (.answered ((cs (f p)).leave p).1, ((cs (f p)).leave p).2)
      (.answered (c.leave p).1, (c.leave p).2) numbers := by
  unfold Coordinator.leave
  rw [h.records_eq p]
  cases hr : (cs (f p)).records[p]? with
  | none => exact .unchanged h p _
  | some r =>
      have hlt := (h.part _).record_lt hr
      have hleft : ∀ n ∈ r.leave.2.tickets, n < (cs (f p)).issued :=
        fun n hn => hlt n ((Record.tickets_leave r).subset hn)
      have hmirrors := h.withRecord hleft
      simp only [Option.map_some, Record.leave_renumber, Record.tickets_renumber]
      cases hleave : r.leave with
      | mk outcome left =>
          rw [hleave] at hmirrors
          cases outcome with
          | error fault => exact .answered hmirrors rfl _
          | ok done =>
              -- who waited for the process is granted
              have hwaiting : ∀ n ∈ r.tickets, n <
                  (Function.update cs (f p) ((cs (f p)).withRecord p left) (f p)).issued := by
                rw [Function.update_self]
                exact hlt
              have hgranted := hmirrors.settle (f p) .granted hwaiting
              rw [Function.update_self, Function.update_idem] at hgranted
              exact .answered hgranted rfl _

/-- **A request** is parked at both or granted by both. -/
theorem request (h : Mirrors f numbers cs c) (p : ProcessId) (request : Stamp) :
    ∃ numbers', Follows f numbers cs p ((cs (f p)).request p request) (c.request p request)
      numbers' := by
  unfold Coordinator.request
  rw [h.records_eq p]
  cases hr : (cs (f p)).records[p]? with
  | none => exact ⟨numbers, .unchanged h p _⟩
  | some r =>
      have hlt : ∀ n ∈ (r.hear request).tickets, n < (cs (f p)).issued :=
        fun n => (h.part _).record_lt hr n
      have hsame : (r.renumber (numbers (f p))).defers p request = r.defers p request := rfl
      simp only [Option.map_some]
      by_cases hdefers : r.defers p request = true
      · -- The ticket is given out first, and then the request is parked with it.
        have hparked := (h.issue (f p)).withRecord (p := p)
          (r := (r.hear request).park ⟨(cs (f p)).issued, request⟩) (by
            intro n hn
            rw [Record.tickets_park, List.mem_append, List.mem_singleton] at hn
            rw [Function.update_self]
            exact Nat.lt_succ_iff_lt_or_eq.mpr (hn.imp_left (hlt n)))
        have hheard : (r.hear request).renumber
              (Function.update (numbers (f p)) (cs (f p)).issued c.issued) =
            (r.renumber (numbers (f p))).hear request :=
          Record.renumber_congr fun n hn => Function.update_of_ne (Nat.ne_of_lt (hlt n hn)) _ _
        rw [extend_self, Function.update_self, Function.update_idem, Record.park_renumber,
          Waiting.renumber, Function.update_self, hheard] at hparked
        rw [if_pos hdefers, if_pos (hsame.trans hdefers)]
        exact ⟨_, .issue rfl rfl hparked⟩
      · rw [if_neg hdefers, if_neg (hsame ▸ hdefers)]
        exact ⟨numbers, .answered (h.withRecord hlt) rfl _⟩

/-- **An arrival at a barrier** opens it at both or waits at both. -/
theorem rendezvous (h : Mirrors f numbers cs c) (phase : Phase) (p caller : ProcessId) :
    ∃ numbers', Follows f numbers cs p ((cs (f p)).rendezvous phase p caller)
      (c.rendezvous phase p caller) numbers' := by
  have hlt := (h.part (f p)).barrier_lt phase p
  have hopens : ((c.barrier phase p).arrive caller c.issued).opens c.expected =
      (((cs (f p)).barrier phase p).arrive caller (cs (f p)).issued).opens (cs (f p)).expected := by
    rw [h.barrier_eq, (h.part (f p)).expected]
    exact Barrier.opens_arrive_renumber _ _ _ _ _ _
  unfold Coordinator.rendezvous
  dsimp only
  rw [hopens]
  split
  · -- The barrier is closed again, and those that waited there are granted.
    have hclosed := h.withBarrier (p := p) phase (b := .closed) (by simp [Barrier.closed])
    have hwaiting : ∀ n ∈ ((cs (f p)).barrier phase p).waiting, n < (Function.update cs (f p)
        ((cs (f p)).withBarriers phase (((cs (f p)).barriers phase).insert p .closed))
        (f p)).issued := by
      rw [Function.update_self, issued_withBarriers]
      exact hlt
    have hgranted := hclosed.settle (f p) .granted hwaiting
    rw [Function.update_self, Function.update_idem] at hgranted
    rw [h.barrier_eq]
    exact ⟨numbers, .answered hgranted (issued_withBarriers _ _ _) _⟩
  · have hwaits := (h.issue (f p)).withBarrier (p := p) phase
      (b := ((cs (f p)).barrier phase p).arrive caller (cs (f p)).issued) (by
        intro n hn
        rw [Barrier.arrive, List.mem_append, List.mem_singleton] at hn
        rw [Function.update_self]
        exact Nat.lt_succ_iff_lt_or_eq.mpr (hn.imp_left (hlt n)))
    have hsame : ((cs (f p)).barrier phase p).renumber
          (Function.update (numbers (f p)) (cs (f p)).issued c.issued) = c.barrier phase p := by
      rw [h.barrier_eq]
      exact Barrier.renumber_congr fun n hn => Function.update_of_ne (Nat.ne_of_lt (hlt n hn)) _ _
    rw [extend_self, Function.update_self, Function.update_idem, Barrier.arrive_renumber,
      Function.update_self, hsame] at hwaits
    cases phase with
    | ready => exact ⟨_, .issue rfl rfl hwaits⟩
    | finished => exact ⟨_, .issue rfl rfl hwaits⟩

end Mirrors

end Mirrors

end Coordinator

end CriticalSection
