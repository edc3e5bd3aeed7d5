import Mathlib.Logic.Function.Basic
import CriticalSection.Proofs.Coordinator.Waits

/-!
# Coordinators as parts of a whole

All that processes at one coordinator have in common are the numbers on the tickets it gives out. A
coordinator is a **part** of another one when that holds the same records and barriers of some
processes, with other numbers on their tickets (`Coordinator.IsPart`). It stays one when the same is
done to both.
-/

set_option autoImplicit false

namespace CriticalSection

/-! ## Other numbers on the tickets -/

/-- The process at which a call is parked. -/
def Place.owner : Place → ProcessId
  | .record owner => owner
  | .barrier _ owner => owner

/-- A reaction with other numbers on its tickets. -/
def Reaction.renumber {α : Type} (number : Ticket → Nat) : Reaction α → Reaction α
  | .answered outcome => .answered outcome
  | .parked t => .parked ⟨t.place, number t⟩

theorem Reaction.renumber_map {α β : Type} (number : Ticket → Nat) (g : α → β)
    (reaction : Reaction α) :
    (reaction.map g).renumber number = (reaction.renumber number).map g := by
  cases reaction <;> rfl

/-- Whatever has a number is dropped from a list after the numbers have been replaced as well as
before, when no other one has been replaced by the same. -/
theorem filter_map_ne {α β : Type} [DecidableEq β] {xs : List α} (g : α → α) (key : α → β)
    {k k' : β} (h : ∀ x ∈ xs, key (g x) = k' ↔ key x = k) :
    (xs.filter fun x => key x ≠ k).map g = (xs.map g).filter fun x => key x ≠ k' := by
  rw [List.filter_map]
  refine congrArg (List.map g) (List.filter_congr fun x hx => ?_)
  simp [h x hx]

/-- A waiting request with another number on its ticket. -/
def Waiting.renumber (number : Nat → Nat) (waiting : Waiting) : Waiting :=
  { waiting with ticket := number waiting.ticket }

namespace Record

/-- A record with other numbers on the tickets of its queue. -/
def renumber (number : Nat → Nat) (r : Record) : Record :=
  { r with queue := r.queue.map (Waiting.renumber number) }

variable {number number' : Nat → Nat} {r : Record}

theorem tickets_renumber (number : Nat → Nat) (r : Record) :
    (r.renumber number).tickets = r.tickets.map number := by
  simp [renumber, Waiting.renumber, tickets]

/-- Only the numbers in the queue matter. -/
theorem renumber_congr (h : ∀ n ∈ r.tickets, number n = number' n) :
    r.renumber number = r.renumber number' := by
  have hqueue : ∀ waiting ∈ r.queue, waiting.renumber number = waiting.renumber number' := by
    intro waiting hwaiting
    rw [Waiting.renumber, h _ (List.mem_map_of_mem hwaiting)]
    rfl
  rw [renumber, List.map_congr_left hqueue]
  rfl

theorem announce_renumber (number : Nat → Nat) (r : Record) :
    (r.renumber number).announce = (r.announce.1, r.announce.2.renumber number) := by
  have hclock : (r.renumber number).clock = r.clock := rfl
  unfold announce
  rw [hclock]
  split <;> rfl

theorem leave_renumber (number : Nat → Nat) (r : Record) :
    (r.renumber number).leave = (r.leave.1, r.leave.2.renumber number) := by
  have hclock : (r.renumber number).clock = r.clock := rfl
  unfold leave
  rw [hclock]
  split <;> rfl

theorem park_renumber (number : Nat → Nat) (r : Record) (waiting : Waiting) :
    (r.park waiting).renumber number =
      (r.renumber number).park (waiting.renumber number) := by
  simp [renumber, park]

theorem drop_renumber {n : Nat} (h : ∀ m ∈ r.tickets, number m = number n → m = n) :
    (r.drop n).renumber number = (r.renumber number).drop (number n) := by
  have hqueue : ∀ waiting ∈ r.queue,
      (waiting.renumber number).ticket = number n ↔ waiting.ticket = n :=
    fun waiting hwaiting => ⟨h _ (List.mem_map_of_mem hwaiting), congrArg number⟩
  exact congrArg (fun queue => { r with queue }) (filter_map_ne _ Waiting.ticket hqueue)

/-- Neither announcing nor leaving puts a ticket into the queue. -/
theorem tickets_announce (r : Record) : r.announce.2.tickets = r.tickets := by
  unfold announce
  split <;> rfl

theorem tickets_leave (r : Record) : r.leave.2.tickets.Sublist r.tickets := by
  unfold leave
  split
  · exact List.nil_sublist _
  · exact List.Sublist.refl _

end Record

namespace Barrier

/-- A barrier with other numbers on the tickets of those that wait. -/
def renumber (number : Nat → Nat) (b : Barrier) : Barrier :=
  { b with waiting := b.waiting.map number }

variable {number number' : Nat → Nat} {b : Barrier}

/-- Only the numbers that wait matter. -/
theorem renumber_congr (h : ∀ n ∈ b.waiting, number n = number' n) :
    b.renumber number = b.renumber number' := by
  rw [renumber, List.map_congr_left h]
  rfl

theorem arrive_renumber (number : Nat → Nat) (b : Barrier) (caller : ProcessId) (n : Nat) :
    (b.arrive caller n).renumber number = (b.renumber number).arrive caller (number n) := by
  simp [renumber, arrive]

theorem opens_arrive_renumber (number : Nat → Nat) (b : Barrier) (caller : ProcessId) (n m : Nat)
    (expected : UInt64) :
    ((b.renumber number).arrive caller m).opens expected = (b.arrive caller n).opens expected := rfl

theorem drop_renumber {n : Nat} (h : ∀ m ∈ b.waiting, number m = number n → m = n) :
    (b.drop n).renumber number = (b.renumber number).drop (number n) := by
  have hwaiting : ∀ m ∈ b.waiting, number m = number n ↔ m = n :=
    fun m hm => ⟨h m hm, congrArg number⟩
  exact congrArg (Barrier.mk b.arrived) (filter_map_ne number id hwaiting)

end Barrier

namespace Coordinator

/-! ## Parts -/

variable {ι : Type} {f : ProcessId → ι} {i : ι} {number : Nat → Nat} {a a' c c' : Coordinator}

/-- **A coordinator is the part of another one** that hosts the processes placed at `i`, its tickets
having other numbers there. -/
structure IsPart (f : ProcessId → ι) (i : ι) (number : Nat → Nat) (a c : Coordinator) : Prop where
  expected : c.expected = a.expected
  records : ∀ p : ProcessId, f p = i → c.records[p]? = (a.records[p]?).map (Record.renumber number)
  barriers : ∀ phase p, f p = i → c.barrier phase p = (a.barrier phase p).renumber number
  answers : ∀ n, n < a.issued → c.answers[number n]? = a.answers[n]?
  /-- Nothing waits at the part for processes that have their place elsewhere. -/
  home : ∀ t, a.Waits t → f t.place.owner = i
  issued : ∀ t, a.Waits t → t.number < a.issued
  number_lt : ∀ n, n < a.issued → number n < c.issued
  injective : ∀ n m, n < a.issued → m < a.issued → number n = number m → n = m
  fresh : ∀ n, a.issued ≤ n → a.answers[n]? = none

namespace IsPart

/-- A part stays a part when the whole changes only at processes placed elsewhere. -/
theorem frame (h : IsPart f i number a c) (hexpected : c'.expected = c.expected)
    (hrecords : ∀ p : ProcessId, f p = i → c'.records[p]? = c.records[p]?)
    (hbarriers : ∀ phase p, f p = i → c'.barrier phase p = c.barrier phase p)
    (hanswers : ∀ n, n < a.issued → c'.answers[number n]? = c.answers[number n]?)
    (hissued : c.issued ≤ c'.issued) : IsPart f i number a c' where
  expected := hexpected.trans h.expected
  records p hp := (hrecords p hp).trans (h.records p hp)
  barriers phase p hp := (hbarriers phase p hp).trans (h.barriers phase p hp)
  answers n hn := (hanswers n hn).trans (h.answers n hn)
  home := h.home
  issued := h.issued
  number_lt n hn := Nat.lt_of_lt_of_le (h.number_lt n hn) hissued
  injective := h.injective
  fresh := h.fresh

/-- The tickets in a queue have been given out. -/
theorem record_lt (h : IsPart f i number a c) {p : ProcessId} {r : Record}
    (hr : a.records[p]? = some r) : ∀ n ∈ r.tickets, n < a.issued :=
  fun n hn => h.issued ⟨.record p, n⟩ (waits_record.mpr ⟨r, hr, hn⟩)

theorem barrier_lt (h : IsPart f i number a c) (phase : Phase) (p : ProcessId) :
    ∀ n ∈ (a.barrier phase p).waiting, n < a.issued :=
  fun n hn => h.issued ⟨.barrier phase p, n⟩ (waits_barrier.mpr hn)

/-- A part stays a part when the same is done to it and to the whole, as long as no ticket is given
out and nobody is answered. -/
theorem reshape (h : IsPart f i number a c)
    (ha : a'.expected = a.expected ∧ a'.issued = a.issued ∧ a'.answers = a.answers)
    (hc : c'.expected = c.expected ∧ c'.issued = c.issued ∧ c'.answers = c.answers)
    (hrecords : ∀ p : ProcessId, f p = i →
      c'.records[p]? = (a'.records[p]?).map (Record.renumber number))
    (hbarriers : ∀ phase p, f p = i → c'.barrier phase p = (a'.barrier phase p).renumber number)
    (hwaits : ∀ t, a'.Waits t → f t.place.owner = i ∧ t.number < a.issued) :
    IsPart f i number a' c' := by
  obtain ⟨hexpected, hissued, hanswers⟩ := ha
  obtain ⟨hexpected', hissued', hanswers'⟩ := hc
  refine ⟨?_, hrecords, hbarriers, ?_, fun t ht => (hwaits t ht).1, ?_, ?_, ?_, ?_⟩
  · rw [hexpected', hexpected, h.expected]
  · rw [hissued, hanswers', hanswers]
    exact h.answers
  · rw [hissued]
    exact fun t ht => (hwaits t ht).2
  · rw [hissued, hissued']
    exact h.number_lt
  · rw [hissued]
    exact h.injective
  · rw [hissued, hanswers]
    exact h.fresh

theorem withRecord {p : ProcessId} (h : IsPart f (f p) number a c) {r : Record}
    (hr : ∀ n ∈ r.tickets, n < a.issued) :
    IsPart f (f p) number (a.withRecord p r) (c.withRecord p (r.renumber number)) := by
  refine h.reshape ⟨rfl, rfl, rfl⟩ ⟨rfl, rfl, rfl⟩ (fun q hq => ?_) h.barriers fun t ht => ?_
  · rw [records_withRecord, records_withRecord]
    split
    · rfl
    · exact h.records q hq
  · rw [waits_withRecord] at ht
    split at ht
    · next hplace =>
        rw [hplace]
        exact ⟨rfl, hr _ ht⟩
    · exact ⟨h.home t ht, h.issued t ht⟩

theorem withBarrier {p : ProcessId} (h : IsPart f (f p) number a c) (phase : Phase) {b : Barrier}
    (hb : ∀ n ∈ b.waiting, n < a.issued) :
    IsPart f (f p) number (a.withBarriers phase ((a.barriers phase).insert p b))
      (c.withBarriers phase ((c.barriers phase).insert p (b.renumber number))) := by
  have hsame : ∀ (c : Coordinator) (barriers : Std.TreeMap ProcessId Barrier),
      (c.withBarriers phase barriers).expected = c.expected ∧
        (c.withBarriers phase barriers).issued = c.issued ∧
        (c.withBarriers phase barriers).answers = c.answers :=
    fun c barriers => ⟨expected_withBarriers c phase barriers,
      issued_withBarriers c phase barriers, answers_withBarriers c phase barriers⟩
  refine h.reshape (hsame a _) (hsame c _) (fun q hq => ?_) (fun other q hq => ?_) fun t ht => ?_
  · rw [records_withBarriers, records_withBarriers, h.records q hq]
  · rw [barrier_insert, barrier_insert]
    split
    · rfl
    · exact h.barriers other q hq
  · rw [waits_withBarrier] at ht
    split at ht
    · next hplace =>
        rw [hplace]
        exact ⟨rfl, hb _ ht⟩
    · exact ⟨h.home t ht, h.issued t ht⟩

/-- **The caller of a call parked at the part hangs up.** -/
theorem hangUp {t : Ticket} (h : IsPart f (f t.place.owner) number a c) (ht : t.number < a.issued) :
    IsPart f (f t.place.owner) number (a.hangUp t) (c.hangUp ⟨t.place, number t.number⟩) := by
  have hsame : ∀ (c : Coordinator) (t : Ticket), (c.hangUp t).expected = c.expected ∧
      (c.hangUp t).issued = c.issued ∧ (c.hangUp t).answers = c.answers :=
    fun c t => ⟨expected_hangUp c t, issued_hangUp c t, answers_hangUp c t⟩
  refine h.reshape (hsame a t) (hsame c _) (fun p hp => ?_) (fun phase p hp => ?_) fun u hu => ?_
  · rw [records_hangUp, records_hangUp, h.records p hp]
    cases hr : a.records[p]? with
    | none => simp
    | some r =>
        have hinjective : ∀ m ∈ r.tickets, number m = number t.number → m = t.number :=
          fun m hm => h.injective m t.number (h.record_lt hr m hm) ht
        have hdrop := Record.drop_renumber hinjective
        split <;> simp [hdrop]
  · rw [barrier_hangUp, barrier_hangUp, h.barriers phase p hp]
    have hinjective : ∀ m ∈ (a.barrier phase p).waiting,
        number m = number t.number → m = t.number :=
      fun m hm => h.injective m t.number (h.barrier_lt phase p m hm) ht
    have hdrop := Barrier.drop_renumber hinjective
    split <;> simp [hdrop]
  · have hwaits := ((waits_hangUp a t u).mp hu).1
    exact ⟨h.home u hwaits, h.issued u hwaits⟩

/-- The callers that hold some tickets of the part are answered, there and at the whole. -/
theorem settle (h : IsPart f i number a c) (answer : Answer) {tickets : List Nat}
    (htickets : ∀ n ∈ tickets, n < a.issued) :
    IsPart f i number (a.settle answer tickets) (c.settle answer (tickets.map number)) := by
  refine ⟨h.expected, h.records, h.barriers, fun n hn => ?_, h.home, h.issued, h.number_lt,
    h.injective, fun n hn => ?_⟩
  · have hmem : number n ∈ tickets.map number ↔ n ∈ tickets := by
      rw [List.mem_map]
      constructor
      · rintro ⟨m, hm, heq⟩
        rwa [← h.injective m n (htickets m hm) hn heq]
      · exact fun hn => ⟨n, hn, rfl⟩
    rw [answers_settle, answers_settle, h.answers n hn]
    simp only [hmem]
  · have hnot : n ∉ tickets := fun hmem => Nat.not_lt.mpr hn (htickets n hmem)
    rw [answers_settle, if_neg hnot, h.fresh n hn]

/-- **The part and the whole give out a ticket**; the new number of the whole stands for that of the
part. -/
theorem issue (h : IsPart f i number a c) (hfresh : c.answers[c.issued]? = none) :
    IsPart f i (Function.update number a.issued c.issued) { a with issued := a.issued + 1 }
      { c with issued := c.issued + 1 } := by
  have hold : ∀ n, n < a.issued → Function.update number a.issued c.issued n = number n :=
    fun n hn => Function.update_of_ne (Nat.ne_of_lt hn) _ _
  have hnew : Function.update number a.issued c.issued a.issued = c.issued :=
    Function.update_self _ _ _
  have hcases : ∀ {n}, n < a.issued + 1 → n < a.issued ∨ n = a.issued :=
    fun hn => Nat.lt_or_eq_of_le (Nat.le_of_lt_succ hn)
  refine ⟨h.expected, fun p hp => ?_, fun phase p hp => ?_, fun n hn => ?_, fun t ht => ?_,
    fun t ht => ?_, fun n hn => ?_, fun n m hn hm heq => ?_, fun n hn => ?_⟩
  · show c.records[p]? = (a.records[p]?).map _
    rw [h.records p hp]
    cases hr : a.records[p]? with
    | none => rfl
    | some r =>
        refine congrArg some (Record.renumber_congr fun n hn => ?_)
        exact (hold n (h.record_lt hr n hn)).symm
  · have hbarrier : ∀ (c : Coordinator) (issued : Nat),
        barrier { c with issued := issued } phase p = c.barrier phase p := by
      intro c issued
      cases phase <;> rfl
    rw [hbarrier, hbarrier, h.barriers phase p hp]
    refine Barrier.renumber_congr fun n hn => ?_
    exact (hold n (h.barrier_lt phase p n hn)).symm
  · show c.answers[_]? = a.answers[n]?
    rcases hcases hn with hlt | rfl
    · rw [hold n hlt, h.answers n hlt]
    · rw [hnew, hfresh, h.fresh _ (Nat.le_refl _)]
  · exact h.home t ((waits_withIssued a _ t).mp ht)
  · exact Nat.lt_succ_of_lt (h.issued t ((waits_withIssued a _ t).mp ht))
  · show _ < c.issued + 1
    rcases hcases hn with hlt | rfl
    · rw [hold n hlt]
      exact Nat.lt_succ_of_lt (h.number_lt n hlt)
    · rw [hnew]
      exact Nat.lt_succ_self _
  · rcases hcases hn with hlt | rfl
    · have hlt' := h.number_lt n hlt
      rcases hcases hm with hltm | rfl
      · rw [hold n hlt, hold m hltm] at heq
        exact h.injective n m hlt hltm heq
      · rw [hold n hlt, hnew] at heq
        omega
    · rcases hcases hm with hltm | rfl
      · have hlt' := h.number_lt m hltm
        rw [hnew, hold m hltm] at heq
        omega
      · rfl
  · exact h.fresh n (Nat.le_of_succ_le hn)

/-- **What waits at the whole** for a process of the part waits at the part, under its number
there. -/
theorem waits_iff (h : IsPart f i number a c) {place : Place} (hplace : f place.owner = i)
    {n : Nat} : c.Waits ⟨place, n⟩ ↔ ∃ m, a.Waits ⟨place, m⟩ ∧ number m = n := by
  cases place with
  | record p =>
      simp only [waits_record, h.records p hplace, Option.map_eq_some_iff]
      constructor
      · rintro ⟨_, ⟨r, hr, rfl⟩, hn⟩
        rw [Record.tickets_renumber, List.mem_map] at hn
        obtain ⟨m, hm, rfl⟩ := hn
        exact ⟨m, ⟨r, hr, hm⟩, rfl⟩
      · rintro ⟨m, ⟨r, hr, hm⟩, rfl⟩
        refine ⟨_, ⟨r, hr, rfl⟩, ?_⟩
        rw [Record.tickets_renumber]
        exact List.mem_map_of_mem hm
  | barrier phase p =>
      simp only [waits_barrier, h.barriers phase p hplace]
      exact List.mem_map

/-- **The part and the whole start anew.** -/
theorem restart (h : IsPart f i number a c) (expected : UInt64)
    (hapart : ∀ place n, c.Waits ⟨place, n⟩ → f place.owner ≠ i →
      ∀ m, m < a.issued → number m ≠ n) :
    IsPart f i number (a.restart expected) (c.restart expected) := by
  have hnobody : ∀ t, ¬ (a.restart expected).Waits t := not_waits_of_empty expected _ _
  refine ⟨rfl, fun p _ => ?_, fun phase p _ => ?_, fun n hn => ?_,
    fun t ht => absurd ht (hnobody t), fun t ht => absurd ht (hnobody t), h.number_lt, h.injective,
    fun n hn => ?_⟩
  · show (∅ : Std.TreeMap ProcessId Record)[p]? = ((∅ : Std.TreeMap ProcessId Record)[p]?).map _
    simp
  · exact (barrier_of_empty expected ∅ _ _ phase p).trans
      (congrArg (Barrier.renumber number) (barrier_of_empty expected ∅ _ _ phase p).symm)
  · by_cases hwaits : ∃ place, a.Waits ⟨place, n⟩
    · obtain ⟨place, ha⟩ := hwaits
      have hc := (h.waits_iff (h.home _ ha)).mpr ⟨n, ha, rfl⟩
      rw [answers_restart_of_waits hc, answers_restart_of_waits ha]
    · -- A number of the whole at which somebody waited would be that of a ticket of another part.
      have hc : ∀ place, ¬ c.Waits ⟨place, number n⟩ := by
        intro place hc
        by_cases hplace : f place.owner = i
        · obtain ⟨m, hm, heq⟩ := (h.waits_iff hplace).mp hc
          obtain rfl := h.injective m n (h.issued _ hm) hn heq
          exact hwaits ⟨place, hm⟩
        · exact hapart place _ hc hplace n hn rfl
      rw [answers_restart_of_not_waits hc, h.answers n hn,
        answers_restart_of_not_waits fun place ha => hwaits ⟨place, ha⟩]
  · rw [answers_restart_of_not_waits fun place ha => Nat.not_lt.mpr hn (h.issued _ ha)]
    exact h.fresh n hn

end IsPart

end Coordinator

end CriticalSection
