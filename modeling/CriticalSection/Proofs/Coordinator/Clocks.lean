import Mathlib.Data.List.Pairwise
import Mathlib.Order.Basic
import CriticalSection.Coordinator.Operation
import CriticalSection.Proofs.Coordinator

/-!
# The clock of one process

Between two subscriptions the clock of a process moves in two ways. Whatever it hears of moves it
forward or leaves it at the last time. Its own announcements and departures move it on by one, and
past the last time this gives zero (`Coordinator.Exhausts`). So what comes to pass at a coordinator
is followed event by event: as long as no event exhausts the clock, it never goes back, and the
times the process gets for its requests increase; each event that exhausts it sets it back.
-/

set_option autoImplicit false

namespace CriticalSection

/-! ## Definitions -/

/-- The outcome of a call that is answered at once. -/
def Reaction.outcome? {α : Type} : Reaction α → Option (Outcome α)
  | .answered outcome => some outcome
  | .parked _ => none

namespace Coordinator

/-- **What comes to pass at a coordinator**: it is called, or the caller of a parked call hangs
up. -/
inductive Event
  | call (now : Int64) (operation : Operation)
  | hangUp (ticket : Ticket)

namespace Event

/-- Whether an event leaves a process the record it has: the process is not subscribed anew, nor is
the coordinator started anew. -/
def spares (p : ProcessId) : Event → Bool
  | .call _ (.subscribe q) => q ≠ p
  | .call _ (.restart _) => false
  | _ => true

/-- Whether an event is one of those at which the clock of a process ticks. -/
def ticks (p : ProcessId) : Event → Bool
  | .call _ (.announce q) | .call _ (.leave q) => q = p
  | _ => false

end Event

/-- The coordinator after an event. -/
def after (c : Coordinator) : Event → Coordinator
  | .call now operation => (c.perform now operation).2
  | .hangUp ticket => c.hangUp ticket

/-- What a caller is told at once. -/
def told? (c : Coordinator) : Event → Option (Outcome Value)
  | .call now operation => (c.perform now operation).1.outcome?
  | .hangUp _ => none

/-- The time a process gets for a request that it announces. -/
def time? (c : Coordinator) (p : ProcessId) : Event → Option UInt64
  | .call _ (.announce q) => if q = p then (c.announce q).1.toOption else none
  | _ => none

/-- The time a snapshot of a process shows. -/
def clock? (c : Coordinator) (p : ProcessId) : Option UInt64 :=
  (c.snapshot p).toOption.map Snapshot.clock

/-- The times that snapshots of a process show, taken after each of some events. -/
def clocks (p : ProcessId) : Coordinator → List Event → List UInt64
  | _, [] => []
  | c, e :: events => ((c.after e).clock? p).toList ++ clocks p (c.after e) events

/-- The times a process gets for its requests in the course of some events. -/
def times (p : ProcessId) : Coordinator → List Event → List UInt64
  | _, [] => []
  | c, e :: events => (c.time? p e).toList ++ times p (c.after e) events

/-- **An event exhausts the clock of a process**: the process announces a request or leaves, and is
told that there is no further time. -/
def Exhausts (p : ProcessId) (c : Coordinator) (e : Event) : Prop :=
  e.ticks p = true ∧ c.told? e = some overflowed

/-- Whether the clock of a process is exhausted in the course of some events. -/
def Exhausted (p : ProcessId) : Coordinator → List Event → Prop
  | _, [] => False
  | c, e :: events => c.Exhausts p e ∨ Exhausted p (c.after e) events

/-! ## One event -/

section Event

variable {c : Coordinator} {p : ProcessId} {r : Record} {e : Event}

theorem clock?_eq (hr : c.records[p]? = some r) : c.clock? p = some r.clock.time := by
  rw [clock?, snapshot, hr]
  rfl

theorem record_of_clock? {time : UInt64} (h : c.clock? p = some time) :
    ∃ r, c.records[p]? = some r ∧ r.clock.time = time := by
  cases hr : c.records[p]? with
  | none =>
      rw [clock?, snapshot, hr] at h
      cases h
  | some r =>
      rw [clock?_eq hr] at h
      exact ⟨r, rfl, Option.some.inj h⟩

/-- A clock ticks on to the next time, and from the last one to zero, whatever comes of it. -/
theorem time_announce (r : Record) : r.announce.2.clock.time = r.clock.time + 1 := by
  unfold Record.announce
  split
  all_goals
    next heq =>
      have hclock := congrArg (fun ticked => ticked.2.time) heq
      exact hclock.symm

theorem time_leave (r : Record) : r.leave.2.clock.time = r.clock.time + 1 := by
  unfold Record.leave
  split
  all_goals
    next heq =>
      have hclock := congrArg (fun ticked => ticked.2.time) heq
      exact hclock.symm

/-- **What an event does to the clock of a process**: it ticks, or it does not go back. -/
theorem record_after (hr : c.records[p]? = some r) (hspares : e.spares p = true) :
    ∃ r', (c.after e).records[p]? = some r' ∧
      if e.ticks p then r'.clock.time = r.clock.time + 1 else r.clock.time ≤ r'.clock.time := by
  have hsame : ∀ c' : Coordinator, c'.records[p]? = c.records[p]? →
      ∃ r', c'.records[p]? = some r' ∧ r.clock.time ≤ r'.clock.time :=
    fun c' heq => ⟨r, heq.trans hr, UInt64.le_refl _⟩
  cases e with
  | hangUp t =>
      refine ⟨if t.place = .record p then r.drop t.number else r, ?_, ?_⟩
      · rw [after, records_hangUp, hr]
        split <;> rfl
      · simp only [Event.ticks, Bool.false_eq_true, if_false]
        split <;> exact UInt64.le_refl _
  | call now operation =>
      cases operation with
      | subscribe q =>
          have hne : q ≠ p := by simpa [Event.spares] using hspares
          refine hsame _ ?_
          show (c.subscribe q).records[p]? = _
          unfold subscribe
          rw [records_withRecord, if_neg (Ne.symm hne)]
          split <;> rfl
      | announce q =>
          have hrecords : (c.after (.call now (.announce q))).records[p]? =
              some (if p = q then r.announce.2 else r) := by
            show (c.announce q).2.records[p]? = _
            rw [records_announce, hr]
            split <;> rfl
          refine ⟨_, hrecords, ?_⟩
          by_cases hq : q = p
          · simp only [Event.ticks, hq, decide_true, if_true]
            exact time_announce r
          · simp only [Event.ticks, hq, Ne.symm hq, decide_false, Bool.false_eq_true, if_false]
            exact UInt64.le_refl _
      | leave q =>
          have hrecords : (c.after (.call now (.leave q))).records[p]? =
              some (if p = q then r.leave.2 else r) := by
            show (c.leave q).2.records[p]? = _
            rw [records_leave, hr]
            split <;> rfl
          refine ⟨_, hrecords, ?_⟩
          by_cases hq : q = p
          · simp only [Event.ticks, hq, decide_true, if_true]
            exact time_leave r
          · simp only [Event.ticks, hq, Ne.symm hq, decide_false, Bool.false_eq_true, if_false]
            exact UInt64.le_refl _
      | request owner stamp =>
          have hrecords : (c.after (.call now (.request owner stamp))).records[p]? =
              some (if p = owner then r.ask owner c.issued stamp else r) := by
            show (c.request owner stamp).2.records[p]? = _
            rw [records_request, hr]
            split <;> rfl
          refine ⟨_, hrecords, ?_⟩
          simp only [Event.ticks, Bool.false_eq_true, if_false]
          split
          · rw [Record.clock_ask]
            exact Clock.le_observe r.clock stamp.time
          · exact UInt64.le_refl _
      | enter q =>
          have hrecords : (c.after (.call now (.enter q))).records[p]? =
              some (if p = q then r.enter else r) := by
            show (c.enter q).2.records[p]? = _
            rw [records_enter, hr]
            split <;> rfl
          refine ⟨_, hrecords, ?_⟩
          simp only [Event.ticks, Bool.false_eq_true, if_false]
          split <;> exact UInt64.le_refl _
      | ready owner caller => exact hsame _ (by rw [after, perform, records_rendezvous])
      | finished owner caller => exact hsame _ (by rw [after, perform, records_rendezvous])
      | restart expected => simp [Event.spares] at hspares
      | listSubscribed | health | readClock => exact hsame _ rfl

/-- **A clock is exhausted** by an event at which it ticks while it shows the last time. -/
theorem exhausts_iff (hr : c.records[p]? = some r) :
    c.Exhausts p e ↔ e.ticks p = true ∧ r.clock.time = Clock.last := by
  refine and_congr_right fun hticks => ?_
  unfold Event.ticks at hticks
  split at hticks
  · next now q =>
      obtain rfl : q = p := by simpa using hticks
      have htold : c.told? (.call now (.announce q)) = some (r.announce.1.map .time) := by
        simp [told?, perform, Reaction.map, Reaction.outcome?, announce, hr]
      rw [htold]
      by_cases hlast : r.clock.time = Clock.last
      · simp [Record.announce, Clock.tick, hlast, overflowed, Except.map]
      · simp [Record.announce_of_ne_last hlast, hlast, overflowed, Except.map]
  · next now q =>
      obtain rfl : q = p := by simpa using hticks
      by_cases hlast : r.clock.time = Clock.last
      · simp [told?, perform, Reaction.map, Reaction.outcome?, leave, hr, Record.leave, Clock.tick,
          hlast, overflowed, Except.map]
      · simp [told?, perform, Reaction.map, Reaction.outcome?, leave, hr,
          Record.leave_of_ne_last hlast, hlast, overflowed, Except.map]
  · cases hticks

/-- **A process gets the next time for its request**, if its clock has one. -/
theorem time?_eq_some (hr : c.records[p]? = some r) {time : UInt64} (h : c.time? p e = some time) :
    e.ticks p = true ∧ r.clock.time ≠ Clock.last ∧ time = r.clock.time + 1 := by
  unfold time? at h
  split at h
  · next now q =>
      split at h
      · next hq =>
          subst hq
          by_cases hlast : r.clock.time = Clock.last
          · simp [announce, hr, Record.announce, Clock.tick, hlast, overflowed,
              Except.toOption] at h
          · simp only [announce, hr, Record.announce_of_ne_last hlast, Except.toOption,
              Option.some.injEq] at h
            exact ⟨by simp [Event.ticks], hlast, h.symm⟩
      · cases h
  · cases h

/-- **An event sets a clock back exactly if it exhausts it**, namely to zero. -/
theorem clock_after (hr : c.records[p]? = some r) (hspares : e.spares p = true) :
    ∃ r', (c.after e).records[p]? = some r' ∧
      (r.clock.time ≤ r'.clock.time ↔ ¬ c.Exhausts p e) ∧
      (c.Exhausts p e → r'.clock.time = 0) ∧
      ∀ time, c.time? p e = some time → r.clock.time < time ∧ time = r'.clock.time := by
  obtain ⟨r', hr', hmove⟩ := record_after hr hspares
  have hzero : Clock.last + 1 = 0 := by decide
  have hpositive : ¬ Clock.last ≤ 0 := by decide
  refine ⟨r', hr', ?_, fun hexhausts => ?_, fun time htime => ?_⟩
  · rw [exhausts_iff hr]
    split at hmove
    · next hticks =>
        by_cases hlast : r.clock.time = Clock.last
        · rw [hmove, hlast, hzero]
          simp [hticks, hpositive]
        · have hlt := Clock.lt_add_one hlast
          rw [hmove]
          simp [hlast, UInt64.le_of_lt hlt]
    · next hticks => simp [hticks, hmove]
  · obtain ⟨hticks, hlast⟩ := (exhausts_iff hr).mp hexhausts
    rw [if_pos hticks] at hmove
    rw [hmove, hlast, hzero]
  · obtain ⟨hticks, hlast, rfl⟩ := time?_eq_some hr htime
    rw [if_pos hticks] at hmove
    exact ⟨Clock.lt_add_one hlast, hmove.symm⟩

end Event

/-! ## A course of events -/

variable {c : Coordinator} {p : ProcessId}

/-- **How the clock of a process moves.** While a process keeps its record, its clock is shown after
every event; it never goes back if and only if no event exhausts it; and in that case the times the
process gets for its requests increase, from beyond the time that its clock shows at first. -/
theorem clocks_and_times {start : UInt64} (hstart : c.clock? p = some start) (events : List Event)
    (hspares : ∀ e ∈ events, e.spares p = true) :
    (clocks p c events).length = events.length ∧
      ((start :: clocks p c events).Pairwise (· ≤ ·) ↔ ¬ Exhausted p c events) ∧
      (¬ Exhausted p c events → (start :: times p c events).Pairwise (· < ·)) := by
  induction events generalizing c start with
  | nil => simp [clocks, times, Exhausted]
  | cons e events ih =>
      obtain ⟨hspare, hrest⟩ := List.forall_mem_cons.mp hspares
      obtain ⟨r, hr, rfl⟩ := record_of_clock? hstart
      obtain ⟨r', hr', hback, -, htime⟩ := clock_after hr hspare
      have hclock : (c.after e).clock? p = some r'.clock.time := clock?_eq hr'
      obtain ⟨hlength, hclocks, htimes⟩ := ih hclock hrest
      have hshown : clocks p c (e :: events) = r'.clock.time :: clocks p (c.after e) events := by
        rw [clocks, hclock]
        rfl
      rw [hshown, Exhausted, not_or]
      refine ⟨by simp [hlength], ?_, fun ⟨hne, hlater⟩ => ?_⟩
      · rw [List.pairwise_cons_cons_iff_of_trans, hback, hclocks]
      · have hincrease := htimes hlater
        have hle := hback.mpr hne
        cases hgot : c.time? p e with
        | none =>
            -- nothing was announced, so the later times are beyond an earlier one too
            rw [times, hgot, Option.toList_none, List.nil_append]
            rw [List.pairwise_cons] at hincrease ⊢
            exact ⟨fun t ht => UInt64.lt_of_le_of_lt hle (hincrease.1 t ht), hincrease.2⟩
        | some time =>
            obtain ⟨hlt, rfl⟩ := htime time hgot
            rw [times, hgot, Option.toList_some, List.singleton_append,
              List.pairwise_cons_cons_iff_of_trans]
            exact ⟨hlt, hincrease⟩

/-- A coordinator that hosts one process. -/
def lone : Coordinator := (new 1).subscribe "P1"

/-- Another process asks, and then the process enters, leaves and wants to enter again. -/
def busy : List Event :=
  [.call 0 (.request "P1" ⟨5, "P2"⟩), .call 0 (.announce "P1"), .call 0 (.enter "P1"),
    .call 0 (.leave "P1"), .call 0 (.announce "P1")]

theorem clocks_and_times_lone :
    lone.clock? "P1" = some 1 ∧ (∀ e ∈ busy, e.spares "P1" = true) ∧
      clocks "P1" lone busy = [6, 7, 7, 8, 9] ∧ ¬ Exhausted "P1" lone busy ∧
      (1 :: times "P1" lone busy).Pairwise (· < ·) := by
  have hclock : lone.clock? "P1" = some 1 := by decide
  have hspares : ∀ e ∈ busy, e.spares "P1" = true := by decide
  have hshown : clocks "P1" lone busy = [6, 7, 7, 8, 9] := by decide
  obtain ⟨-, hclocks, htimes⟩ := clocks_and_times hclock busy hspares
  have hnot : ¬ Exhausted "P1" lone busy := hclocks.mp (by rw [hshown]; decide)
  exact ⟨hclock, hspares, hshown, hnot, htimes hnot⟩

/-- Another process asks with a time close to the last one, and then the process announces three
requests, the second of which exhausts its clock. -/
def worn : List Event :=
  [.call 0 (.request "P1" ⟨Clock.last - 2, "P2"⟩), .call 0 (.announce "P1"),
    .call 0 (.announce "P1"), .call 0 (.announce "P1")]

/-- **It is not so** that a clock never goes back, nor that the times a process gets for its
requests always increase. -/
theorem not_clocks_and_times : ¬ ∀ (c : Coordinator) (p : ProcessId) (start : UInt64)
    (events : List Event), c.clock? p = some start → (∀ e ∈ events, e.spares p = true) →
      (start :: clocks p c events).Pairwise (· ≤ ·) ∨ (times p c events).Pairwise (· < ·) := by
  intro hall
  have hclocks : clocks "P1" lone worn = [Clock.last - 1, Clock.last, 0, 1] := by decide
  have htimes : times "P1" lone worn = [Clock.last, 1] := by decide
  rcases hall lone "P1" 1 worn (by decide) (by decide) with hback | hincrease
  · rw [hclocks] at hback
    exact absurd hback (by decide)
  · rw [htimes] at hincrease
    exact absurd hincrease (by decide)

end Coordinator

end CriticalSection
