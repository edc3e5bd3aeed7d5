import CriticalSection.Proofs.Wire.Account

/-!
# Replies and hanging up

What follows for callers from the account of a connection. As long as a caller does not hang up, its
lines are answered one to one and in order, except that an operation whose computation leaves its
range ends the connection without a reply. Once the caller has hung up, the connection ends and
nothing waits for it any longer, except that a line behind a request that waits keeps the hanging up
from being noticed.
-/

set_option autoImplicit false

namespace CriticalSection

/-- The line that was read, if it was text. -/
def Incoming.line? : Incoming → Option String
  | .line text => some text
  | .garbage => none

/-- What arrives with an event, if something does. -/
def Service.Event.incoming? : Service.Event → Option Incoming
  | .arrive incoming => some incoming
  | _ => none

/-! ## How far a connection can move -/

/-- How many moves the work of a connection can still take. -/
def Work.rank : Work → Nat
  | .ended => 0
  | .idle => 1
  | .parked _ => 2
  | .ready _ => 3

theorem rank_ended : Work.ended.rank = 0 := rfl

namespace Connection

/-- **A bound on the moves of a connection** at which nothing more arrives. -/
def budget (x : Connection) : Nat :=
  4 * x.arrived.length + 3 * x.aside.toList.length + x.work.rank

theorem budget_takeUp_le (x : Connection) (hidle : x.work = .idle) (line : String) :
    (x.takeUp line).budget ≤ x.budget + 2 := by
  by_cases hblank : Wire.Blank line
  · rw [takeUp_of_blank x hblank]
    omega
  · obtain ⟨operation, hread⟩ | ⟨reason, hread⟩ := Wire.readOperation_cases line
    · rw [takeUp_of_operation x hblank hread]
      simp only [budget, hidle, Work.rank]
      omega
    · rw [takeUp_of_refused x hblank hread]
      simp only [budget, reply, hidle, Work.rank]
      omega

theorem budget_next_lt {x y : Connection} (hidle : x.work = .idle) (h : x.next = some y) :
    y.budget < x.budget := by
  unfold next at h
  split at h
  · next arrived text haside =>
      obtain rfl := Option.some.inj h
      have htake := budget_takeUp_le { x with aside := none } hidle text
      simp only [budget, haside, Option.toList_none, Option.toList_some, List.length_nil,
        List.length_singleton] at htake ⊢
      omega
  · next text rest haside harrived =>
      obtain rfl := Option.some.inj h
      have htake := budget_takeUp_le { x with arrived := rest } hidle text
      simp only [budget, harrived, List.length_cons] at htake ⊢
      omega
  · next rest haside harrived =>
      obtain rfl := Option.some.inj h
      simp only [budget, harrived, List.length_cons, Work.rank]
      omega
  · split at h
    · obtain rfl := Option.some.inj h
      simp only [budget, hidle, Work.rank]
      omega
    · cases h

theorem budget_answer_le (x : Connection) (outcome : Outcome Value) :
    (x.answer outcome).budget ≤ 4 * x.arrived.length + 3 * x.aside.toList.length + 1 := by
  obtain ⟨reply, hreply⟩ | rfl := Reply.ofOutcome_cases outcome
  · rw [answer_of_reply x hreply]
    exact Nat.le_refl _
  · rw [answer_overflowed]
    exact Nat.le_succ _

theorem budget_proceed_lt {x y : Connection} {now : Int64} {c d : Coordinator}
    (h : x.proceed now c = some (y, d)) : y.budget < x.budget := by
  unfold proceed at h
  split at h
  · next operation hready =>
      split at h
      · next outcome d' hperform =>
          obtain ⟨rfl, rfl⟩ := Prod.mk.inj (Option.some.inj h)
          have hanswer := budget_answer_le x outcome
          simp only [budget, hready, Work.rank] at hanswer ⊢
          omega
      · next t d' hperform =>
          obtain ⟨rfl, rfl⟩ := Prod.mk.inj (Option.some.inj h)
          simp only [budget, hready, Work.rank]
          omega
  · next t hparked =>
      obtain ⟨outcome, -, hanswered⟩ := Option.map_eq_some_iff.mp h
      obtain ⟨rfl, rfl⟩ := Prod.mk.inj hanswered
      have hanswer := budget_answer_le x (outcome.map fun _ => .done)
      simp only [budget, hparked, Work.rank] at hanswer ⊢
      omega
  · cases h

theorem budget_watch_lt {x y : Connection} {c d : Coordinator} (hrunning : 0 < x.work.rank)
    (h : x.watch c = some (y, d)) : y.budget < x.budget := by
  unfold watch at h
  split at h
  · cases h
  · next text rest haside harrived =>
      obtain ⟨rfl, rfl⟩ := Prod.mk.inj (Option.some.inj h)
      simp only [budget, haside, harrived, Option.toList_none, Option.toList_some,
        List.length_nil, List.length_cons]
      omega
  · next rest haside harrived =>
      obtain ⟨rfl, rfl⟩ := Prod.mk.inj (Option.some.inj h)
      simp only [budget, harrived, List.length_cons, rank_ended]
      omega
  · split at h
    · obtain ⟨rfl, rfl⟩ := Prod.mk.inj (Option.some.inj h)
      simp only [budget, rank_ended]
      omega
    · cases h

/-- **Every move uses up some of the budget.** -/
theorem budget_step_lt {x y : Connection} {watching : Bool} {now : Int64} {c d : Coordinator}
    (h : x.step watching now c = some (y, d)) : y.budget < x.budget := by
  unfold step at h
  split at h
  · cases h
  · next hidle =>
      obtain ⟨z, hnext, hmove⟩ := Option.map_eq_some_iff.mp h
      obtain ⟨rfl, rfl⟩ := Prod.mk.inj hmove
      exact budget_next_lt hidle hnext
  · next operation hready =>
      split at h
      · exact budget_watch_lt (by rw [hready]; exact Nat.succ_pos _) h
      · exact budget_proceed_lt h
  · next t hparked =>
      split at h
      · exact budget_watch_lt (by rw [hparked]; exact Nat.succ_pos _) h
      · exact budget_proceed_lt h

end Connection

namespace Service

open Wire (Blank)

variable {s : Service}

/-! ## Where moves stop -/

theorem stuck_of_ended (h : s.connection.work = .ended) : s.Stuck := by
  intro watching now
  unfold Connection.step
  rw [h]

/-- **A wait with a line behind it is not given up**, whether or not the caller has hung up. -/
theorem stuck_of_aside {t : Ticket} {line : String} (hparked : s.connection.work = .parked t)
    (haside : s.connection.aside = some line) (hwaits : s.coordinator.outcome? t = none) :
    s.Stuck := by
  intro watching now
  unfold Connection.step
  rw [hparked]
  cases watching with
  | true => simp [Connection.watch, haside]
  | false => simp [Connection.proceed, hparked, hwaits]

/-- **Where moves stop**: at the end, where nothing is left to read, or with an operation that
waits; and then either a line was put aside or there is nothing to notice. -/
theorem Stuck.cases (h : s.Stuck) :
    s.connection.work = .ended ∨
      (s.connection.work = .idle ∧ s.connection.queue = [] ∧ s.connection.closed = false) ∨
      ∃ t, s.connection.work = .parked t ∧ s.coordinator.outcome? t = none ∧
        (s.connection.aside = none → s.connection.closed = false) := by
  have hwatch := h true 0
  have hproceed := h false 0
  unfold Connection.step at hwatch hproceed
  cases hwork : s.connection.work with
  | ended => exact .inl rfl
  | idle =>
      rw [hwork] at hwatch
      have hnext := Option.map_eq_none_iff.mp hwatch
      unfold Connection.next at hnext
      split at hnext
      · cases hnext
      · cases hnext
      · cases hnext
      · next haside harrived =>
          refine .inr (.inl ⟨rfl, by simp [Connection.queue, haside, harrived], ?_⟩)
          simpa using hnext
  | ready operation =>
      rw [hwork] at hproceed
      simp only [Bool.false_eq_true, if_false, Connection.proceed, hwork] at hproceed
      split at hproceed <;> cases hproceed
  | parked t =>
      rw [hwork] at hwatch hproceed
      simp only [Bool.false_eq_true, if_false, Connection.proceed, hwork,
        Option.map_eq_none_iff] at hproceed
      refine .inr (.inr ⟨t, rfl, hproceed, fun haside => ?_⟩)
      simp only [if_true, Connection.watch, haside] at hwatch
      split at hwatch
      · next hsome => cases hsome
      · cases hwatch
      · cases hwatch
      · simpa using hwatch

/-! ## Replies -/

/-- While nobody hangs up, everything that arrives is kept. -/
theorem arrivals_run (events : List Event) (hevents : ∀ event ∈ events, event ≠ .close)
    (hopen : s.connection.closed = false) :
    (s.run events).arrivals = s.arrivals ++ events.filterMap Event.incoming? ∧
      (s.run events).connection.closed = false := by
  induction events generalizing s with
  | nil => exact ⟨by simp [run], hopen⟩
  | cons event events ih =>
      have hrest : ∀ event ∈ events, event ≠ .close :=
        fun event hevent => hevents event (by simp [hevent])
      have hafter : (s.after event).arrivals = s.arrivals ++ event.incoming?.toList ∧
          (s.after event).connection.closed = false := by
        cases event with
        | arrive incoming => simp [after, Connection.arrive, hopen, Event.incoming?]
        | close => exact absurd rfl (hevents .close (by simp))
        | move watching now =>
            obtain ⟨hsame, hclosed⟩ := (turn_move s watching now).caller
            exact ⟨hsame.trans (List.append_nil _).symm, hclosed.trans hopen⟩
        | perform now operation => exact ⟨(List.append_nil _).symm, hopen⟩
        | hangUp ticket =>
            unfold after
            dsimp only
            split <;> exact ⟨(List.append_nil _).symm, hopen⟩
      obtain ⟨harrivals, hstill⟩ := ih hrest hafter.2
      refine ⟨?_, hstill⟩
      show ((s.after event).run events).arrivals = _
      rw [harrivals, hafter.1, List.append_assoc, List.filterMap_cons]
      cases event.incoming? <;> rfl

/-- For every line that is over and not blank one reply has been sent. -/
theorem length_sent_of_served {c : Coordinator} {served : List String} {episodes : List (List Note)}
    (h : List.Forall₂ (Served c) served episodes) :
    (episodes.flatten.filterMap Note.line?).length =
      (served.filter fun line => ¬ Blank line).length := by
  induction h with
  | nil => rfl
  | @cons line episode served episodes hserved hrest ih =>
      rw [List.flatten_cons, List.filterMap_append, List.length_append, ih]
      cases hserved with
      | blank hblank => simp [hblank]
      | refused hline hread => simp [hline, Note.line?, Nat.add_comm]
      | answered hline hread hreply =>
          simp [hline, List.filterMap_cons, Note.line?, Nat.add_comm]
      | waited hline hread houtcome hreply =>
          simp [hline, List.filterMap_cons, Note.line?, Nat.add_comm]

/-- For a line that is taken up no reply has been sent yet. -/
theorem sent_of_stands {gone : Prop} {work : Work} {current : Option String} {notes : List Note}
    (h : Stands gone work current notes) : notes.filterMap Note.line? = [] := by
  induction h with
  | idle => rfl
  | ready hline hread => rfl
  | parked hline hread => rfl
  | overflowed hline hread => rfl
  | abandoned hgone hstood ih => exact ih

/-- **Replies follow requests one to one.** Whatever lines arrive at a connection, whenever they
arrive and whatever others do meanwhile: as long as the caller does not hang up, the lines are over
one after another, in their order, and what has been done for the caller are their episodes one
behind the other. A line that is not blank gets one reply in its episode: a failure if it is no
operation, and else the outcome of the operation, which was performed once. At most one more line
was taken up; all others are still there. The connection moves on until everything that arrived is
over or the operation of the line that was taken up waits, unless a computation of that operation
has left its range: that ends the connection without a reply. -/
theorem replies_follow_requests (expected : UInt64) (events : List Event)
    (hevents : ∀ event ∈ events, event ≠ .close ∧ event ≠ .arrive .garbage) :
    let s := (new expected).run events
    let lines := events.filterMap fun event => event.incoming?.bind Incoming.line?
    (∃ served current episodes notes,
      lines = served ++ current.toList ++ s.connection.queue.filterMap Incoming.line? ∧
      List.Forall₂ (Served s.coordinator) served episodes ∧
      s.notes = episodes.flatten ++ notes ∧
      Stands False s.connection.work current notes ∧
      s.connection.sent = s.notes.filterMap Note.line? ∧
      s.connection.sent.length = (served.filter fun line => ¬ Blank line).length ∧
      (s.Stuck →
        (s.connection.work = .idle ∧ served = lines) ∨
        (∃ t, s.connection.work = .parked t ∧ s.coordinator.Waits t) ∨
        ∃ line operation, current = some line ∧ Wire.readOperation line = .ok operation ∧
          notes = [.performed operation (.answered overflowed)] ∧
          s.connection.work = .ended)) ∧
    ∀ (watching : Bool) (now : Int64) (x : Connection) (c : Coordinator),
      s.connection.step watching now s.coordinator = some (x, c) →
        x.budget < s.connection.budget := by
  intro s lines
  have hsound : s.Sound := (sound_new expected).run events
  obtain ⟨harrivals, hopen⟩ : s.arrivals = [] ++ events.filterMap Event.incoming? ∧
      s.connection.closed = false :=
    arrivals_run events (fun event hevent => (hevents event hevent).1) rfl
  obtain ⟨served, current, lost, episodes, notes, haccount⟩ := hsound.accounted
  have hgarbage : Incoming.garbage ∉ s.arrivals := by
    rw [harrivals, List.nil_append, List.mem_filterMap]
    rintro ⟨event, hevent, hincoming⟩
    cases event with
    | arrive incoming => exact (hevents _ hevent).2 (by rw [Option.some.inj hincoming])
    | _ => cases hincoming
  have hgone : s.Gone → False :=
    fun hgone => hgone.elim (fun hclosed => by simp [hopen] at hclosed) hgarbage
  have hstands : Stands False s.connection.work current notes := haccount.stands.mono hgone
  obtain rfl : lost = [] := by
    refine haccount.lost.resolve_right fun hended => hgarbage ?_
    rw [haccount.arrivals, hended.1]
    simp
  have hlines : lines = served ++ current.toList ++
      s.connection.queue.filterMap Incoming.line? := by
    have hfilter := congrArg (List.filterMap Incoming.line?) haccount.arrivals
    rw [harrivals, List.nil_append, List.filterMap_filterMap] at hfilter
    refine hfilter.trans ?_
    rw [List.append_nil, List.filterMap_append, List.filterMap_map]
    simp [Function.comp_def, Incoming.line?]
  refine ⟨⟨served, current, episodes, notes, hlines, haccount.served, haccount.written, hstands,
    hsound.tidy.sent, ?_, fun hstuck => ?_⟩, fun _ _ _ _ => Connection.budget_step_lt⟩
  · rw [hsound.tidy.sent, haccount.written, List.filterMap_append, sent_of_stands hstands,
      List.append_nil]
    exact length_sent_of_served haccount.served
  · obtain hended | ⟨hidle, hqueue, -⟩ | ⟨t, hparked, hnone, -⟩ := hstuck.cases
    · refine .inr (.inr ?_)
      rw [hended] at hstands ⊢
      cases hstands with
      | @overflowed line operation hline hread => exact ⟨line, operation, rfl, hread, rfl, rfl⟩
      | abandoned hgone hstood => exact hgone.elim
    · refine .inl ⟨hidle, ?_⟩
      obtain ⟨rfl, -, -⟩ := haccount.of_idle hidle
      rw [hlines, hqueue]
      simp
    · exact .inr (.inl ⟨t, hparked, hsound.tidy.pending t hparked hnone⟩)

/-- A blank line, a line that is no operation and one that is: two replies. -/
theorem replies_follow_requests_unreadable :
    ∃ (events : List Event) (s : Service), s = (new 2).run events ∧
      (events.filterMap fun event => event.incoming?.bind Incoming.line?) =
        [" ", "nonsense", Wire.operationLine .health] ∧
      s.connection.work = .idle ∧ s.connection.queue = [] ∧ s.connection.sent.length = 2 := by
  obtain ⟨events, hevents⟩ : ∃ events : List Event, events = [.arrive (.line " "),
      .arrive (.line "nonsense"), .arrive (.line (Wire.operationLine .health)), .move false 0,
      .move false 0, .move false 0, .move false 0] := ⟨_, rfl⟩
  obtain ⟨s, hs⟩ : ∃ s, s = (new 2).run events := ⟨_, rfl⟩
  have hlines : (events.filterMap fun event => event.incoming?.bind Incoming.line?) =
      [" ", "nonsense", Wire.operationLine .health] := by
    rw [hevents]
    rfl
  have hover : s.connection.work = .idle ∧ s.connection.queue = [] := by
    rw [hs, hevents]
    decide +kernel
  have hreplies := replies_follow_requests 2 events (by simp [hevents])
  dsimp only at hreplies
  rw [← hs, hlines, hover.1, hover.2] at hreplies
  obtain ⟨⟨served, current, episodes, notes, hall, -, -, hstands, -, hsent, -⟩, -⟩ := hreplies
  refine ⟨events, s, hs, hlines, hover.1, hover.2, hsent.trans ?_⟩
  cases hstands with
  | idle =>
      rw [List.filterMap_nil, List.append_nil, Option.toList_none, List.append_nil] at hall
      rw [← hall]
      decide +kernel

/-- **A line can stay without a reply** although its caller does not hang up and nothing waits: a
process that leaves when its clock shows the last time ends the connection. -/
theorem not_replies_follow_requests :
    ∃ (events : List Event) (s : Service), s = (new 2).run events ∧
      (∀ event ∈ events, event ≠ .close ∧ event ≠ .arrive .garbage) ∧
      s.Stuck ∧ (∀ t, s.connection.work ≠ .parked t) ∧
      s.connection.sent.length <
        ((events.filterMap fun event => event.incoming?.bind Incoming.line?).filter
          fun line => ¬ Blank line).length := by
  obtain ⟨events, hevents⟩ : ∃ events : List Event, events = [.perform 0 (.subscribe "P1"),
      .perform 0 (.request "P1" ⟨Clock.last, "P2"⟩),
      .arrive (.line (Wire.operationLine (.leave "P1"))),
      .move false 0, .move false 0] := ⟨_, rfl⟩
  obtain ⟨s, hs⟩ : ∃ s, s = (new 2).run events := ⟨_, rfl⟩
  have hended : s.connection.work = .ended ∧ s.connection.sent.length = 0 := by
    rw [hs, hevents]
    decide +kernel
  have hlines : ((events.filterMap fun event => event.incoming?.bind Incoming.line?).filter
      fun line => ¬ Blank line).length = 1 := by
    rw [hevents]
    decide +kernel
  refine ⟨events, s, hs, by simp [hevents], stuck_of_ended hended.1, fun t ht => ?_, ?_⟩
  · rw [hended.1] at ht
    cases ht
  · rw [hended.2, hlines]
    decide

/-! ## Hanging up -/

deriving instance DecidableEq for Note

/-- **Hanging up withdraws what waits**, unless a line came behind it. Whatever arrives at a
connection before its caller hangs up and whatever others do: when the connection moves no further,
either it has ended and no ticket that was ever given out for the caller waits any longer, or its
last operation still waits, and behind the line of that operation the caller had sent another one,
which was read and put aside, so that nothing more is read. -/
theorem hanging_up_withdraws (expected : UInt64) (events : List Event) :
    let s := (new expected).run events
    s.connection.closed = true → s.Stuck →
      (s.connection.work = .ended ∧ ∀ t, s.Held t → ¬ s.coordinator.Waits t) ∨
      ∃ t operation request line before behind,
        s.connection.work = .parked t ∧ s.connection.aside = some line ∧ s.coordinator.Waits t ∧
        s.arrivals = before ++ .line request :: .line line :: behind ∧
        Wire.readOperation request = .ok operation ∧
        s.notes.getLast? = some (.performed operation (.parked t)) := by
  intro s hclosed hstuck
  have hsound : s.Sound := (sound_new expected).run events
  obtain hended | ⟨-, -, hopen⟩ | ⟨t, hparked, hnone, haside⟩ := hstuck.cases
  · refine .inl ⟨hended, fun t ht => hsound.tidy.not_waits (fun u hu => ?_) ht⟩
    rw [hended] at hu
    cases hu
  · rw [hclosed] at hopen
    cases hopen
  · obtain ⟨line, hline⟩ : ∃ line, s.connection.aside = some line := by
      cases hnothing : s.connection.aside with
      | none =>
          rw [haside hnothing] at hclosed
          cases hclosed
      | some line => exact ⟨line, rfl⟩
    obtain ⟨served, current, lost, episodes, notes, haccount⟩ := hsound.accounted
    obtain ⟨rfl, request, operation, rfl, hrequest, hread, rfl⟩ := haccount.of_parked hparked
    refine .inr ⟨t, operation, request, line, served.map .line, s.connection.arrived, hparked,
      hline, hsound.tidy.pending t hparked hnone, ?_, hread, ?_⟩
    · rw [haccount.arrivals]
      simp [Connection.queue, hline]
    · rw [haccount.written]
      simp

/-- The caller of a request that waits hangs up, and nothing came behind the request. -/
theorem hanging_up_withdraws_lone :
    ∃ s : Service, s.connection.closed = true ∧ s.Stuck ∧ s.Held ⟨.record "A", 0⟩ ∧
      ¬ s.coordinator.Waits ⟨.record "A", 0⟩ := by
  obtain ⟨events, hevents⟩ : ∃ events : List Event, events = [.perform 0 (.subscribe "A"),
      .perform 0 (.enter "A"),
      .arrive (.line (Wire.operationLine (.request "A" ⟨5, "B"⟩))),
      .move false 0, .move false 0, .close, .move true 0] := ⟨_, rfl⟩
  obtain ⟨s, hs⟩ : ∃ s, s = (new 2).run events := ⟨_, rfl⟩
  have hended : s.connection.work = .ended ∧ s.connection.closed = true := by
    rw [hs, hevents]
    decide +kernel
  have hheld : s.Held ⟨.record "A", 0⟩ := by
    refine ⟨.request "A" ⟨5, "B"⟩, ?_⟩
    rw [hs, hevents]
    decide +kernel
  have hwithdraws := hanging_up_withdraws 2 events
  dsimp only at hwithdraws
  rw [← hs] at hwithdraws
  refine ⟨s, hended.2, stuck_of_ended hended.1, hheld, ?_⟩
  obtain ⟨-, hover⟩ | ⟨t, operation, request, line, before, behind, hparked, -⟩ :=
    hwithdraws hended.2 (stuck_of_ended hended.1)
  · exact hover _ hheld
  · rw [hended.1] at hparked
    cases hparked

/-- **A request can go on waiting after its caller has hung up**: a blank line behind it is
enough. -/
theorem not_hanging_up_withdraws :
    ∃ (events : List Event) (s : Service), s = (new 2).run events ∧
      s.connection.closed = true ∧ s.Stuck ∧ s.connection.work ≠ .ended ∧
      (s.coordinator.records["A"]?.map fun r => r.queue.length) = some 1 := by
  obtain ⟨events, hevents⟩ : ∃ events : List Event, events = [.perform 0 (.subscribe "A"),
      .perform 0 (.enter "A"),
      .arrive (.line (Wire.operationLine (.request "A" ⟨5, "B"⟩))),
      .arrive (.line ""), .move false 0, .move false 0, .move true 0, .close] := ⟨_, rfl⟩
  obtain ⟨s, hs⟩ : ∃ s, s = (new 2).run events := ⟨_, rfl⟩
  have hparked : s.connection.work = .parked ⟨.record "A", 0⟩ ∧ s.connection.aside = some "" ∧
      s.coordinator.outcome? ⟨.record "A", 0⟩ = none := by
    rw [hs, hevents]
    decide +kernel
  have hleft : s.connection.closed = true ∧
      (s.coordinator.records["A"]?.map fun r => r.queue.length) = some 1 := by
    rw [hs, hevents]
    decide +kernel
  refine ⟨events, s, hs, hleft.1, stuck_of_aside hparked.1 hparked.2.1 hparked.2.2, ?_, hleft.2⟩
  rw [hparked.1]
  exact Work.noConfusion

end Service

end CriticalSection
