import CriticalSection.Coordinator.Operation
import CriticalSection.Proofs.Coordinator

/-!
# Which calls end which waits

A call ends all waits at some places or none: a process that leaves grants those at its record, one
that subscribes interrupts them, a barrier that opens grants those in front of it, and starting
anew interrupts all there are. Every other wait goes on, at most one more begins, and an answer that
has been given stays.
-/

set_option autoImplicit false

namespace CriticalSection

/-- The wait that a reaction begins. -/
def Reaction.began {α : Type} : Reaction α → Option Ticket
  | .answered _ => none
  | .parked t => some t

theorem Reaction.began_map {α β : Type} (f : α → β) (reaction : Reaction α) :
    (reaction.map f).began = reaction.began := by
  cases reaction <;> rfl

theorem Record.tickets_drop (r : Record) (n : Nat) :
    (r.drop n).tickets = r.tickets.filter fun number => number ≠ n := by
  rw [tickets, tickets, List.filter_map]
  rfl

namespace Coordinator

/-- **The answer with which an operation ends the waits at a place**, if it ends them. -/
def ending (c : Coordinator) : Operation → Place → Option Answer
  | .subscribe p, place => if place = .record p then some .interrupted else none
  | .leave p, place => if place = .record p then some .granted else none
  | .restart _, _ => some .interrupted
  | .ready owner caller, place =>
    if place = .barrier .ready owner ∧
        ((c.barrier .ready owner).arrive caller c.issued).opens c.expected then
      some .granted
    else none
  | .finished owner caller, place =>
    if place = .barrier .finished owner ∧
        ((c.barrier .finished owner).arrive caller c.issued).opens c.expected then
      some .granted
    else none
  | _, _ => none

/-- **A change that ends waits**: those at some places are answered, the others go on, at most one
with the next number begins, and nothing is answered twice. -/
structure Ends (c : Coordinator) (ending : Place → Option Answer) (began : Option Ticket)
    (c' : Coordinator) : Prop where
  orderly : c'.Orderly
  waits : ∀ t, c'.Waits t ↔ c.Waits t ∧ ending t.place = none ∨ began = some t
  answers : ∀ t, c.Waits t → c'.answers[t.number]? = ending t.place
  kept : ∀ (n : Nat) (answer : Answer), c.answers[n]? = some answer →
    c'.answers[n]? = some answer
  issued : c.issued ≤ c'.issued
  number : ∀ t, began = some t → t.number = c.issued

section Ends

variable {c c' : Coordinator} {ending : Place → Option Answer}

/-- A coordinator stays orderly when nothing waits that has not waited before. -/
theorem Orderly.of_waits (h : c.Orderly) (hwaits : ∀ t, c'.Waits t → c.Waits t)
    (hanswers : c'.answers = c.answers) (hissued : c'.issued = c.issued)
    (hnodup : ∀ (q : ProcessId) (r : Record), c'.records[q]? = some r → r.tickets.Nodup) :
    c'.Orderly := by
  refine ⟨fun t ht => ?_, fun n hn => ?_, fun t ht => ?_, fun t u ht hu => ?_, hnodup⟩
  · rw [hissued]
    exact h.issued t (hwaits t ht)
  · rw [hanswers]
    exact h.fresh n (hissued ▸ hn)
  · rw [hanswers]
    exact h.unanswered t (hwaits t ht)
  · exact h.unique t u (hwaits t ht) (hwaits u hu)

/-- What leaves all waits, answers and numbers alone ends no wait. -/
theorem Orderly.ends_nothing (h : c.Orderly) (hwaits : ∀ t, c'.Waits t ↔ c.Waits t)
    (hanswers : c'.answers = c.answers) (hissued : c'.issued = c.issued)
    (hnodup : ∀ (q : ProcessId) (r : Record), c'.records[q]? = some r → r.tickets.Nodup)
    (hending : ∀ t, c.Waits t → ending t.place = none) : c.Ends ending none c' := by
  refine ⟨h.of_waits (fun t => (hwaits t).mp) hanswers hissued hnodup, fun t => ?_,
    fun t ht => ?_, fun n answer hn => ?_, Nat.le_of_eq hissued.symm, by simp⟩
  · rw [hwaits]
    simp only [reduceCtorEq, or_false]
    exact ⟨fun ht => ⟨ht, hending t ht⟩, And.left⟩
  · rw [hanswers, h.unanswered t ht, hending t ht]
  · rw [hanswers, hn]

/-- A change that gives out the next number for one more wait ends no wait. -/
theorem Orderly.ends_issue (h : c.Orderly) (horderly : c'.Orderly) (place : Place)
    (hwaits : ∀ t, c'.Waits t ↔ c.Waits t ∨ t = ⟨place, c.issued⟩)
    (hanswers : c'.answers = c.answers) (hissued : c'.issued = c.issued + 1)
    (hending : ∀ t, ending t = none) : c.Ends ending (some ⟨place, c.issued⟩) c' := by
  refine ⟨horderly, fun t => ?_, fun t ht => ?_, fun n answer hn => ?_, by omega, ?_⟩
  · rw [hwaits, hending, Option.some.injEq]
    simp [eq_comm]
  · rw [hanswers, h.unanswered t ht, hending]
  · rw [hanswers, hn]
  · rintro t ht
    rw [← Option.some.inj ht]

/-- **When the waits at some places are over and their numbers are answered**, those waits end and
no others. -/
theorem Orderly.ends_settle (h : c.Orderly) (c' : Coordinator) (answer : Answer)
    {tickets : List Nat} (ended : Place → Prop) [DecidablePred ended]
    (hwaits : ∀ t, c'.Waits t ↔ c.Waits t ∧ ¬ ended t.place)
    (htickets : ∀ n, n ∈ tickets ↔ ∃ place, ended place ∧ c.Waits ⟨place, n⟩)
    (hanswers : c'.answers = c.answers) (hissued : c'.issued = c.issued)
    (hnodup : ∀ (q : ProcessId) (r : Record), c'.records[q]? = some r → r.tickets.Nodup) :
    c.Ends (fun place => if ended place then some answer else none) none
      (c'.settle answer tickets) := by
  have horderly : c'.Orderly :=
    h.of_waits (fun t ht => ((hwaits t).mp ht).1) hanswers hissued hnodup
  -- A number that is answered waits at one of those places, and at no other place.
  have hmem : ∀ t, c.Waits t → (t.number ∈ tickets ↔ ended t.place) := by
    intro t ht
    rw [htickets]
    constructor
    · rintro ⟨place, hended, hplace⟩
      rwa [h.unique t ⟨place, t.number⟩ ht hplace rfl]
    · exact fun hended => ⟨t.place, hended, ht⟩
  refine ⟨horderly.settle answer (fun n hn => ?_) fun t ht => ?_, fun t => ?_, fun t ht => ?_,
    fun n old hn => ?_, Nat.le_of_eq hissued.symm, by simp⟩
  · obtain ⟨place, -, hplace⟩ := (htickets n).mp hn
    rw [hissued]
    exact h.issued _ hplace
  · obtain ⟨hold, hended⟩ := (hwaits t).mp ht
    rwa [hmem t hold]
  · show c'.Waits t ↔ _
    rw [hwaits]
    simp
  · rw [answers_settle, hanswers, h.unanswered t ht]
    simp only [hmem t ht]
  · rw [answers_settle, hanswers, if_neg, hn]
    intro hn'
    obtain ⟨place, -, hplace⟩ := (htickets n).mp hn'
    rw [h.unanswered _ hplace] at hn
    cases hn

/-- What an operation ends is known from the places at which something waits. -/
theorem Ends.congr {began : Option Ticket} {ending' : Place → Option Answer}
    (h : c.Ends ending began c') (heq : ∀ t, c.Waits t → ending' t.place = ending t.place) :
    c.Ends ending' began c' := by
  refine ⟨h.orderly, fun t => ?_, fun t ht => ?_, h.kept, h.issued, h.number⟩
  · rw [h.waits]
    refine or_congr (and_congr_right fun ht => ?_) Iff.rfl
    rw [heq t ht]
  · rw [heq t ht]
    exact h.answers t ht

end Ends

/-! ## The waits after a change -/

theorem waits_withRecord (c : Coordinator) (p : ProcessId) (r : Record) (t : Ticket) :
    (c.withRecord p r).Waits t ↔
      if t.place = .record p then t.number ∈ r.tickets else c.Waits t := by
  obtain ⟨q | ⟨phase, q⟩, n⟩ := t
  · show (∃ r', (c.withRecord p r).records[q]? = some r' ∧ n ∈ r'.tickets) ↔ _
    rw [records_withRecord]
    by_cases hq : q = p
    · simp [hq]
    · simp only [if_neg hq, Place.record.injEq]
      exact Iff.rfl
  · exact Iff.rfl

theorem waits_at_record {c : Coordinator} {p : ProcessId} {r : Record}
    (hr : c.records[p]? = some r) {t : Ticket} (hplace : t.place = .record p) :
    c.Waits t ↔ t.number ∈ r.tickets := by
  obtain ⟨place, n⟩ := t
  obtain rfl : place = .record p := hplace
  simp [waits_record, hr]

theorem not_waits_at_record {c : Coordinator} {p : ProcessId} (hr : c.records[p]? = none)
    {t : Ticket} (hplace : t.place = .record p) : ¬ c.Waits t := by
  obtain ⟨place, n⟩ := t
  obtain rfl : place = .record p := hplace
  simp [waits_record, hr]

theorem waits_withBarrier (c : Coordinator) (phase : Phase) (p : ProcessId) (b : Barrier)
    (t : Ticket) :
    (c.withBarriers phase ((c.barriers phase).insert p b)).Waits t ↔
      if t.place = .barrier phase p then t.number ∈ b.waiting else c.Waits t := by
  obtain ⟨q | ⟨other, q⟩, n⟩ := t
  · simp only [reduceCtorEq, if_false]
    show (∃ r, (c.withBarriers phase _).records[q]? = some r ∧ n ∈ r.tickets) ↔ _
    rw [records_withBarriers]
    exact Iff.rfl
  · rw [waits_barrier, barrier_insert]
    by_cases h : other = phase ∧ q = p
    · simp [h.1, h.2]
    · rw [if_neg h, if_neg (by simpa using h)]
      exact Iff.rfl

theorem waits_withIssued (c : Coordinator) (issued : Nat) (t : Ticket) :
    Waits { c with issued := issued } t ↔ c.Waits t := by
  obtain ⟨q | ⟨phase, q⟩, n⟩ := t
  · exact Iff.rfl
  · cases phase <;> exact Iff.rfl

/-- The waits at a record are over when a record without any takes its place. -/
theorem waits_withRecord_empty (c : Coordinator) (p : ProcessId) {r : Record}
    (hr : r.tickets = []) (t : Ticket) :
    (c.withRecord p r).Waits t ↔ c.Waits t ∧ ¬ t.place = .record p := by
  rw [waits_withRecord, hr]
  split <;> simp_all

/-! ## Calls that concern a record -/

section Records

variable {c : Coordinator} {p : ProcessId}

theorem Orderly.nodup_withRecord (h : c.Orderly) {r : Record} (hr : r.tickets.Nodup)
    (q : ProcessId) (r' : Record) (hr' : (c.withRecord p r).records[q]? = some r') :
    r'.tickets.Nodup := by
  rw [records_withRecord] at hr'
  split at hr'
  · rwa [← Option.some.inj hr']
  · exact h.nodup q r' hr'

/-- A record may change in all but its queue. -/
theorem Orderly.ends_withRecord (h : c.Orderly) {r : Record} (r' : Record)
    (hr : c.records[p]? = some r) (hsame : r'.tickets = r.tickets) {ending : Place → Option Answer}
    (hending : ∀ place, ending place = none) : c.Ends ending none (c.withRecord p r') := by
  have hwaits : ∀ t, (c.withRecord p r').Waits t ↔ c.Waits t := by
    intro t
    rw [waits_withRecord]
    split
    · next hplace => rw [hsame, waits_at_record hr hplace]
    · exact Iff.rfl
  exact h.ends_nothing hwaits rfl rfl (h.nodup_withRecord (hsame ▸ h.nodup p r hr))
    fun t _ => hending t.place

/-- The queue of a record is emptied and everybody in it is answered. -/
theorem Orderly.ends_queue (h : c.Orderly) (answer : Answer) {r r' : Record}
    (hr : c.records[p]? = some r) (hempty : r'.tickets = []) :
    c.Ends (fun place => if place = .record p then some answer else none) none
      ((c.withRecord p r').settle answer r.tickets) := by
  refine h.ends_settle _ answer (· = .record p) (waits_withRecord_empty c p hempty) (fun n => ?_)
    rfl rfl (h.nodup_withRecord (hempty ▸ List.nodup_nil))
  constructor
  · exact fun hn => ⟨_, rfl, r, hr, hn⟩
  · rintro ⟨place, rfl, ht⟩
    exact (waits_at_record hr rfl).mp ht

/-- What concerns the record of a process that is not hosted concerns no wait. -/
theorem Orderly.ends_absent (h : c.Orderly) (answer : Answer) {c' : Coordinator}
    (hr : c.records[p]? = none) (hwaits : ∀ t, c'.Waits t ↔ c.Waits t)
    (hanswers : c'.answers = c.answers) (hissued : c'.issued = c.issued)
    (hnodup : ∀ (q : ProcessId) (r : Record), c'.records[q]? = some r → r.tickets.Nodup) :
    c.Ends (fun place => if place = .record p then some answer else none) none c' :=
  h.ends_nothing hwaits hanswers hissued hnodup fun _ ht =>
    if_neg fun hplace => not_waits_at_record hr hplace ht

/-- **A process that subscribes** interrupts whoever waits at its old record. -/
theorem Orderly.ends_subscribe (h : c.Orderly) (p : ProcessId) :
    c.Ends (fun place => if place = .record p then some .interrupted else none) none
      (c.subscribe p) := by
  unfold Coordinator.subscribe
  split
  · next r hr => exact h.ends_queue .interrupted hr rfl
  · next hr =>
      refine h.ends_absent .interrupted hr (fun t => ?_) rfl rfl
        (h.nodup_withRecord List.nodup_nil)
      show (c.withRecord p .fresh).Waits t ↔ _
      rw [waits_withRecord_empty c p rfl]
      exact and_iff_left_of_imp fun ht hplace => not_waits_at_record hr hplace ht

/-- **A process that leaves in time** grants whoever waits at its record. -/
theorem Orderly.ends_leave (h : c.Orderly) (p : ProcessId) (htime : (c.leave p).1 ≠ overflowed) :
    c.Ends (fun place => if place = .record p then some .granted else none) none
      (c.leave p).2 := by
  cases hr : c.records[p]? with
  | none =>
      have hleave : (c.leave p).2 = c := by simp [Coordinator.leave, hr]
      rw [hleave]
      exact h.ends_absent .granted hr (fun _ => Iff.rfl) rfl rfl h.nodup
  | some r =>
      have hlast : r.clock.time ≠ Clock.last := by
        intro hlast
        simp [Coordinator.leave, hr, Record.leave, Clock.tick, hlast, overflowed] at htime
      have hleave : (c.leave p).2 = (c.withRecord p r.leave.2).settle .granted r.tickets := by
        simp [Coordinator.leave, hr, Record.leave_of_ne_last hlast]
      rw [hleave]
      refine h.ends_queue .granted hr ?_
      rw [Record.leave_of_ne_last hlast]
      rfl

/-- A process that leaves too late ends no wait. -/
theorem Orderly.ends_leave_overflowed (h : c.Orderly) (htime : (c.leave p).1 = overflowed) :
    c.Ends (fun _ => none) none (c.leave p).2 := by
  unfold Coordinator.leave at htime ⊢
  cases hr : c.records[p]? with
  | none => simp [hr, fail, overflowed] at htime
  | some r =>
      rw [hr] at htime
      dsimp only at htime ⊢
      unfold Record.leave at htime ⊢
      rcases hticked : r.clock.tick with ⟨fault | time, clock⟩
      · exact h.ends_withRecord { r with clock := clock } hr rfl fun _ => rfl
      · rw [hticked] at htime
        cases htime

theorem Orderly.ends_announce (h : c.Orderly) (p : ProcessId) :
    c.Ends (fun _ => none) none (c.announce p).2 := by
  unfold Coordinator.announce
  split
  · exact h.ends_nothing (fun _ => Iff.rfl) rfl rfl h.nodup fun _ _ => rfl
  · next r hr =>
      refine h.ends_withRecord _ hr ?_ fun _ => rfl
      unfold Record.announce
      split <;> rfl

theorem Orderly.ends_enter (h : c.Orderly) (p : ProcessId) :
    c.Ends (fun _ => none) none (c.enter p).2 := by
  unfold Coordinator.enter
  split
  · exact h.ends_nothing (fun _ => Iff.rfl) rfl rfl h.nodup fun _ _ => rfl
  · next r hr => exact h.ends_withRecord r.enter hr rfl fun _ => rfl

/-- **A request** ends no wait, and begins one if it is parked. -/
theorem Orderly.ends_request (h : c.Orderly) (owner : ProcessId) (request : Stamp) :
    c.Ends (fun _ => none) (c.request owner request).1.began (c.request owner request).2 := by
  unfold Coordinator.request
  split
  · exact h.ends_nothing (fun _ => Iff.rfl) rfl rfl h.nodup fun _ _ => rfl
  · next r hr =>
      dsimp only
      have horderly := h.request owner request
      unfold Coordinator.request at horderly
      rw [hr] at horderly
      dsimp only at horderly
      split
      · next hdefers =>
          rw [if_pos hdefers] at horderly
          refine h.ends_issue horderly (.record owner) (fun t => ?_) rfl rfl fun _ => rfl
          show (c.withRecord owner ((r.hear request).park ⟨c.issued, request⟩)).Waits t ↔ _
          rw [waits_withRecord]
          split
          · next hplace =>
              rw [waits_at_record hr hplace, Record.tickets_park, List.mem_append,
                List.mem_singleton]
              refine or_congr Iff.rfl ?_
              obtain ⟨place, n⟩ := t
              obtain rfl : place = .record owner := hplace
              simp
          · next hplace =>
              refine (or_iff_left ?_).symm
              rintro rfl
              exact hplace rfl
      · exact h.ends_withRecord (r.hear request) hr rfl fun _ => rfl

end Records

/-! ## Barriers and starting anew -/

section Barriers

variable {c : Coordinator}

/-- **An arrival at a barrier** lets everybody through who waits there, or begins one more wait. -/
theorem Orderly.ends_rendezvous (h : c.Orderly) (phase : Phase) (owner caller : ProcessId) :
    c.Ends
      (fun place =>
        if place = .barrier phase owner ∧
            ((c.barrier phase owner).arrive caller c.issued).opens c.expected then
          some .granted
        else none)
      (c.rendezvous phase owner caller).1.began (c.rendezvous phase owner caller).2 := by
  have horderly := h.rendezvous phase owner caller
  unfold Coordinator.rendezvous at horderly ⊢
  dsimp only at horderly ⊢
  split
  · next hopens =>
      simp only [hopens, and_true]
      refine h.ends_settle _ .granted (· = .barrier phase owner) (fun t => ?_) (fun n => ?_)
        (answers_withBarriers c phase _) (issued_withBarriers c phase _) fun q r hr => ?_
      · rw [waits_withBarrier]
        split <;> simp_all [Barrier.closed]
      · constructor
        · exact fun hn => ⟨_, rfl, hn⟩
        · rintro ⟨place, rfl, ht⟩
          exact ht
      · rw [records_withBarriers] at hr
        exact h.nodup q r hr
  · next hopens =>
      rw [if_neg hopens] at horderly
      refine h.ends_issue horderly (.barrier phase owner) (fun t => ?_)
        (answers_withBarriers c phase _) rfl fun _ => if_neg fun hover => hopens hover.2
      rw [waits_withIssued, waits_withBarrier]
      split
      · next hplace =>
          obtain ⟨place, n⟩ := t
          obtain rfl : place = .barrier phase owner := hplace
          rw [Barrier.arrive, List.mem_append, List.mem_singleton, waits_barrier]
          simp
      · next hplace =>
          refine (or_iff_left ?_).symm
          rintro rfl
          exact hplace rfl

/-- The numbers that a restart interrupts are those that wait somewhere. -/
theorem mem_interrupted {n : Nat} :
    n ∈ c.records.values.flatMap Record.tickets ++ c.ready.values.flatMap Barrier.waiting ++
        c.finished.values.flatMap Barrier.waiting ↔
      ∃ place, c.Waits ⟨place, n⟩ := by
  simp only [List.mem_append, List.mem_flatMap, Table.mem_values]
  constructor
  · rintro ((⟨r, ⟨q, hr⟩, hn⟩ | ⟨b, ⟨q, hb⟩, hn⟩) | ⟨b, ⟨q, hb⟩, hn⟩)
    · exact ⟨.record q, r, hr, hn⟩
    · exact ⟨.barrier .ready q, waits_barrier.mpr (by
        rwa [barrier, barriers, Std.TreeMap.getD_eq_getD_getElem?, hb])⟩
    · exact ⟨.barrier .finished q, waits_barrier.mpr (by
        rwa [barrier, barriers, Std.TreeMap.getD_eq_getD_getElem?, hb])⟩
  · rintro ⟨q | ⟨phase, q⟩, ht⟩
    · obtain ⟨r, hr, hn⟩ := ht
      exact Or.inl (Or.inl ⟨r, ⟨q, hr⟩, hn⟩)
    · rw [waits_barrier, barrier, Std.TreeMap.getD_eq_getD_getElem?] at ht
      cases hb : (c.barriers phase)[q]? with
      | none => simp [hb, Barrier.closed] at ht
      | some b =>
          rw [hb] at ht
          cases phase with
          | ready => exact Or.inl (Or.inr ⟨b, ⟨q, hb⟩, ht⟩)
          | finished => exact Or.inr ⟨b, ⟨q, hb⟩, ht⟩

theorem answers_restart_of_waits {place : Place} {n : Nat} (h : c.Waits ⟨place, n⟩)
    (expected : UInt64) : (c.restart expected).answers[n]? = some .interrupted := by
  show (c.settle .interrupted _).answers[n]? = _
  rw [answers_settle, if_pos (mem_interrupted.mpr ⟨place, h⟩)]

theorem answers_restart_of_not_waits {n : Nat} (h : ∀ place, ¬ c.Waits ⟨place, n⟩)
    (expected : UInt64) : (c.restart expected).answers[n]? = c.answers[n]? := by
  show (c.settle .interrupted _).answers[n]? = _
  rw [answers_settle, if_neg fun hn => (mem_interrupted.mp hn).elim h]

/-- Without barriers every barrier is closed. -/
theorem barrier_of_empty (expected : UInt64) (records : Std.TreeMap ProcessId Record)
    (issued : Nat) (answers : Std.TreeMap Nat Answer) (phase : Phase) (p : ProcessId) :
    barrier ⟨expected, records, ∅, ∅, issued, answers⟩ phase p = .closed := by
  cases phase <;> simp [barrier, barriers]

/-- Without records and barriers nothing waits. -/
theorem not_waits_of_empty (expected : UInt64) (issued : Nat) (answers : Std.TreeMap Nat Answer)
    (t : Ticket) : ¬ Waits ⟨expected, ∅, ∅, ∅, issued, answers⟩ t := by
  obtain ⟨q | ⟨phase, q⟩, n⟩ := t
  · rintro ⟨r, hr, -⟩
    simp at hr
  · rw [waits_barrier, barrier_of_empty]
    exact List.not_mem_nil

/-- A coordinator that hosts nobody is orderly: nothing waits there. -/
theorem orderly_new (expected : UInt64) : (new expected).Orderly := by
  have hwaits : ∀ t, ¬ (new expected).Waits t := not_waits_of_empty expected 0 ∅
  refine ⟨fun t ht => absurd ht (hwaits t), fun n _ => Std.TreeMap.getElem?_emptyc,
    fun t ht => absurd ht (hwaits t), fun t _ ht => absurd ht (hwaits t), fun q r hr => ?_⟩
  simp [new] at hr

/-- **Starting anew** interrupts all waits. -/
theorem Orderly.ends_restart (h : c.Orderly) (expected : UInt64) :
    c.Ends (fun _ => some .interrupted) none (c.restart expected) := by
  refine (h.ends_settle ⟨expected, ∅, ∅, ∅, c.issued, c.answers⟩ .interrupted (fun _ => True)
    (fun t => ?_) (fun n => ?_) rfl rfl fun q r hr => ?_).congr
    fun t _ => (if_pos trivial).symm
  · simp [not_waits_of_empty]
  · rw [mem_interrupted]
    simp
  · simp at hr

end Barriers

/-! ## Operations -/

/-- Every operation ends the waits it is meant to end, unless a process leaves too late. -/
theorem Orderly.ends_perform_of_leave {c : Coordinator} (h : c.Orderly) (now : Int64)
    (operation : Operation) (htime : ∀ p, operation = .leave p → (c.leave p).1 ≠ overflowed) :
    c.Ends (c.ending operation) (c.perform now operation).1.began
      (c.perform now operation).2 := by
  have hnothing : c.Ends (fun _ => none) none c :=
    h.ends_nothing (fun _ => Iff.rfl) rfl rfl h.nodup fun _ _ => rfl
  cases operation with
  | subscribe p => exact h.ends_subscribe p
  | listSubscribed => exact hnothing
  | announce p => exact h.ends_announce p
  | request owner request =>
      simp only [perform, Reaction.began_map]
      exact h.ends_request owner request
  | enter p => exact h.ends_enter p
  | leave p => exact h.ends_leave p (htime p rfl)
  | ready owner caller =>
      simp only [perform, Reaction.began_map]
      exact h.ends_rendezvous .ready owner caller
  | finished owner caller =>
      simp only [perform, Reaction.began_map]
      exact h.ends_rendezvous .finished owner caller
  | restart expected => exact h.ends_restart expected
  | health => exact hnothing
  | readClock => exact hnothing

/-- **Every operation ends the waits it is meant to end**, unless a computation leaves its range. -/
theorem Orderly.ends_perform {c : Coordinator} (h : c.Orderly) (now : Int64)
    (operation : Operation) (htime : (c.perform now operation).1 ≠ .answered overflowed) :
    c.Ends (c.ending operation) (c.perform now operation).1.began
      (c.perform now operation).2 := by
  refine h.ends_perform_of_leave now operation ?_
  rintro p rfl hleave
  apply htime
  simp only [perform, hleave]
  rfl

/-- **Whatever an operation comes to, it ends waits**, and at barriers those it is meant to end: a
process that leaves too late ends none. -/
theorem Orderly.exists_ends_perform {c : Coordinator} (h : c.Orderly) (now : Int64)
    (operation : Operation) :
    ∃ ending, c.Ends ending (c.perform now operation).1.began (c.perform now operation).2 ∧
      ∀ phase owner, ending (.barrier phase owner) = c.ending operation (.barrier phase owner) := by
  by_cases hlate : ∃ p, operation = .leave p ∧ (c.leave p).1 = overflowed
  · obtain ⟨p, rfl, hleave⟩ := hlate
    exact ⟨fun _ => none, h.ends_leave_overflowed hleave, fun _ _ => rfl⟩
  · refine ⟨c.ending operation, h.ends_perform_of_leave now operation ?_, fun _ _ => rfl⟩
    intro p hp hleave
    exact hlate ⟨p, hp, hleave⟩

/-- Whoever hangs up waits no longer, and that is all. -/
theorem waits_hangUp (c : Coordinator) (t u : Ticket) :
    (c.hangUp t).Waits u ↔ c.Waits u ∧ u ≠ t := by
  obtain ⟨place, n⟩ := t
  obtain ⟨q | ⟨phase, q⟩, m⟩ := u
  · rw [waits_record, records_hangUp]
    by_cases hplace : place = .record q
    · subst hplace
      cases hr : c.records[q]? with
      | none => simp [waits_record, hr]
      | some r => simp [waits_record, hr, Record.tickets_drop]
    · rw [if_neg hplace]
      simp [waits_record, Ne.symm hplace]
  · rw [waits_barrier, barrier_hangUp]
    by_cases hplace : place = .barrier phase q
    · subst hplace
      simp [waits_barrier, Barrier.drop]
    · rw [if_neg hplace]
      simp [waits_barrier, Ne.symm hplace]

end Coordinator

end CriticalSection
