import CriticalSection.Proofs.Coordinator.Clocks

/-!
# Records under any calls

A coordinator does not check in which order it is called: steps may come out of order, be repeated
or left out, a process may be subscribed again and the coordinator started anew, and anybody may ask
with any time. Whatever comes to pass, an event does one of a few things to the record of a process
(`Event.touch`), and each of them keeps the record **coherent**: nobody waits at a process that is
free, and the clock is past everything that the record has heard of. Only a clock that is exhausted
breaks this.
-/

set_option autoImplicit false

namespace CriticalSection

/-! ## Definitions -/

/-- **Coherent records**, where the times of the requests the record has received are known. -/
structure Record.Coherent (r : Record) (heard : List UInt64) : Prop where
  /-- Nobody waits for a process that is free. -/
  free : r.standing = .free → r.queue = []
  announced : r.announced ≤ r.clock.time
  started : 1 ≤ r.clock.time
  /-- The clock is past every time it has heard of, unless there is no time past it. -/
  past : ∀ t ∈ heard, t ≤ r.clock.time ∧ (r.clock.time ≠ Clock.last → t < r.clock.time)

namespace Coordinator

/-- **What an event makes of the record of a process** that keeps it, while the next ticket has a
given number. -/
def Event.touch (p : ProcessId) (issued : Nat) (r : Record) : Event → Record
  | .call _ (.announce q) => if p = q then r.announce.2 else r
  | .call _ (.request q stamp) => if p = q then r.ask q issued stamp else r
  | .call _ (.enter q) => if p = q then r.enter else r
  | .call _ (.leave q) => if p = q then r.leave.2 else r
  | .hangUp t => if t.place = .record p then r.drop t.number else r
  | _ => r

/-- The times of the requests that a process has heard of since it got its record, the latest one
first, after one more event. -/
def Event.heard (p : ProcessId) (times : List UInt64) : Event → List UInt64
  | .call _ (.request q stamp) => if p = q then stamp.time :: times else times
  | .call _ (.subscribe q) => if p = q then [] else times
  | .call _ (.restart _) => []
  | _ => times

/-- **What a process has heard of since it got its record**, in the course of some events. -/
def heard (p : ProcessId) (events : List Event) : List UInt64 := events.foldl (Event.heard p) []

/-- The coordinator after some events. -/
def run (c : Coordinator) (events : List Event) : Coordinator := events.foldl after c

/-- The record of a process is coherent, if it has one. -/
def Coherent (c : Coordinator) (p : ProcessId) (heard : List UInt64) : Prop :=
  ∀ r, c.records[p]? = some r → r.Coherent heard

instance (p : ProcessId) (c : Coordinator) (e : Event) : Decidable (c.Exhausts p e) :=
  inferInstanceAs (Decidable (e.ticks p = true ∧ c.told? e = some overflowed))

instance decidableExhausted (p : ProcessId) : ∀ (c : Coordinator) (events : List Event),
    Decidable (Exhausted p c events)
  | _, [] => inferInstanceAs (Decidable False)
  | c, e :: events =>
    have := decidableExhausted p (c.after e) events
    inferInstanceAs (Decidable (c.Exhausts p e ∨ Exhausted p (c.after e) events))

end Coordinator

/-! ## What happens to one record -/

namespace Record

variable {r : Record} {heard : List UInt64}

theorem coherent_fresh : fresh.Coherent [] :=
  ⟨fun _ => rfl, by decide, by decide, by simp⟩

/-- A clock that ticks in time is past whatever it has reached before. -/
theorem Coherent.past_tick (h : r.Coherent heard) (hlast : r.clock.time ≠ Clock.last) :
    ∀ t ∈ heard, t ≤ r.clock.time + 1 ∧ (r.clock.time + 1 ≠ Clock.last → t < r.clock.time + 1) := by
  intro t ht
  have hlt := UInt64.lt_of_le_of_lt (h.past t ht).1 (Clock.lt_add_one hlast)
  exact ⟨UInt64.le_of_lt hlt, fun _ => hlt⟩

theorem Coherent.announce (h : r.Coherent heard) (hlast : r.clock.time ≠ Clock.last) :
    r.announce.2.Coherent heard := by
  have hstarted := UInt64.le_trans h.started (UInt64.le_of_lt (Clock.lt_add_one hlast))
  rw [announce_of_ne_last hlast]
  exact ⟨(fun hfree => nomatch hfree), UInt64.le_refl _, hstarted, h.past_tick hlast⟩

theorem Coherent.leave (h : r.Coherent heard) (hlast : r.clock.time ≠ Clock.last) :
    r.leave.2.Coherent heard := by
  have hle := UInt64.le_of_lt (Clock.lt_add_one hlast)
  rw [leave_of_ne_last hlast]
  exact ⟨fun _ => rfl, UInt64.le_trans h.announced hle, UInt64.le_trans h.started hle,
    h.past_tick hlast⟩

theorem Coherent.enter (h : r.Coherent heard) : r.enter.Coherent heard :=
  ⟨(fun hfree => nomatch hfree), h.announced, h.started, h.past⟩

theorem Coherent.drop (h : r.Coherent heard) (ticket : Nat) : (r.drop ticket).Coherent heard := by
  refine ⟨fun hfree => ?_, h.announced, h.started, h.past⟩
  rw [Record.drop, h.free hfree]
  rfl

/-- **A request keeps a record coherent**, whatever its time and whoever asks. A free process lets
everybody pass, so nobody comes to wait for it. -/
theorem Coherent.ask (h : r.Coherent heard) (owner : ProcessId) (ticket : Nat) (request : Stamp) :
    (r.ask owner ticket request).Coherent (request.time :: heard) := by
  have hle := Clock.le_observe r.clock request.time
  refine ⟨?_, ?_, ?_, ?_⟩
  · intro hfree
    rw [standing_ask] at hfree
    rw [queue_ask, defers, hfree]
    exact h.free hfree
  · rw [announced_ask, clock_ask]
    exact UInt64.le_trans h.announced hle
  · rw [clock_ask]
    exact UInt64.le_trans h.started hle
  · rw [clock_ask]
    intro t ht
    rcases List.mem_cons.mp ht with rfl | ht
    · exact ⟨Clock.heard_le_observe r.clock request.time, Clock.lt_observe⟩
    · have hpast := (h.past t ht).1
      exact ⟨UInt64.le_trans hpast hle,
        fun hlast => UInt64.lt_of_le_of_lt hpast (Clock.time_lt_observe hlast)⟩

/-- **Whatever an event makes of a coherent record is coherent**, unless its clock ticks at the last
time. -/
theorem Coherent.touch (h : r.Coherent heard) {p : ProcessId} {e : Coordinator.Event}
    (hspares : e.spares p = true) (issued : Nat)
    (hlast : e.ticks p = true → r.clock.time ≠ Clock.last) :
    (e.touch p issued r).Coherent (e.heard p heard) := by
  cases e with
  | hangUp t =>
      dsimp only [Coordinator.Event.touch, Coordinator.Event.heard]
      split
      · exact h.drop t.number
      · exact h
  | call now operation =>
      cases operation with
      | announce q =>
          dsimp only [Coordinator.Event.touch, Coordinator.Event.heard]
          split
          · next hq => exact h.announce (hlast (by simp [Coordinator.Event.ticks, hq]))
          · exact h
      | leave q =>
          dsimp only [Coordinator.Event.touch, Coordinator.Event.heard]
          split
          · next hq => exact h.leave (hlast (by simp [Coordinator.Event.ticks, hq]))
          · exact h
      | enter q =>
          dsimp only [Coordinator.Event.touch, Coordinator.Event.heard]
          split
          · exact h.enter
          · exact h
      | request q stamp =>
          dsimp only [Coordinator.Event.touch, Coordinator.Event.heard]
          split
          · exact h.ask q issued stamp
          · exact h
      | subscribe q =>
          have hne : p ≠ q := fun heq => by simp [Coordinator.Event.spares, heq] at hspares
          dsimp only [Coordinator.Event.touch, Coordinator.Event.heard]
          rw [if_neg hne]
          exact h
      | restart expected => simp [Coordinator.Event.spares] at hspares
      | ready owner caller | finished owner caller | listSubscribed | health | readClock => exact h

end Record

namespace Coordinator

variable {c : Coordinator} {p : ProcessId} {e : Event}

/-! ## One event -/

/-- **The record of a process after an event** that leaves it the record it has. -/
theorem records_after (hspares : e.spares p = true) :
    (c.after e).records[p]? = c.records[p]?.map fun r => e.touch p c.issued r := by
  have hsame : c.records[p]? = c.records[p]?.map fun r => r := by simp
  cases e with
  | hangUp t =>
      rw [after, records_hangUp]
      by_cases ht : t.place = .record p <;> simp [Event.touch, ht]
  | call now operation =>
      cases operation with
      | subscribe q =>
          have hne : p ≠ q := fun h => by simp [Event.spares, h] at hspares
          rw [after, perform, subscribe, records_withRecord, if_neg hne]
          split <;> exact hsame
      | announce q =>
          rw [after, perform, records_announce]
          by_cases hq : p = q <;> simp [Event.touch, hq]
      | request q stamp =>
          rw [after, perform, records_request]
          by_cases hq : p = q <;> simp [Event.touch, hq]
      | enter q =>
          rw [after, perform, records_enter]
          by_cases hq : p = q <;> simp [Event.touch, hq]
      | leave q =>
          rw [after, perform, records_leave]
          by_cases hq : p = q <;> simp [Event.touch, hq]
      | ready owner caller => rw [after, perform, records_rendezvous]; exact hsame
      | finished owner caller => rw [after, perform, records_rendezvous]; exact hsame
      | restart expected => simp [Event.spares] at hspares
      | listSubscribed | health | readClock => exact hsame

/-- An event that does not leave a process the record it has takes it away or replaces it by a fresh
one, and the process has not heard of anything since. -/
theorem records_after_of_not_spares (hspares : e.spares p = false) :
    (∀ r, (c.after e).records[p]? = some r → r = .fresh) ∧ ∀ times, e.heard p times = [] := by
  unfold Event.spares at hspares
  split at hspares
  · next now q =>
      obtain rfl : q = p := by simpa using hspares
      refine ⟨fun r hr => ?_, fun times => if_pos rfl⟩
      rw [after, perform, subscribe, records_withRecord, if_pos rfl] at hr
      exact (Option.some.inj hr).symm
  · next now expected =>
      refine ⟨fun r hr => ?_, fun times => rfl⟩
      simp [after, perform, restart] at hr
  · cases hspares

/-- **Every event keeps a record coherent** unless it exhausts its clock. -/
theorem Coherent.after {heard : List UInt64} (h : c.Coherent p heard)
    (hexhausts : ¬ c.Exhausts p e) : (c.after e).Coherent p (e.heard p heard) := by
  intro r' hr'
  cases hspares : e.spares p with
  | false =>
      obtain ⟨hfresh, hheard⟩ := records_after_of_not_spares (c := c) hspares
      rw [hfresh r' hr', hheard]
      exact Record.coherent_fresh
  | true =>
      rw [records_after hspares] at hr'
      obtain ⟨r, hr, rfl⟩ := Option.map_eq_some_iff.mp hr'
      exact (h r hr).touch hspares c.issued fun hticks hlast =>
        hexhausts ((exhausts_iff hr).mpr ⟨hticks, hlast⟩)

/-- **Who is told that a process is not hosted has changed nothing.** -/
theorem after_eq_of_nodeNotFound {q : ProcessId} (h : c.told? e = some (fail (.nodeNotFound q))) :
    c.after e = c := by
  cases e with
  | hangUp t => cases h
  | call now operation =>
      cases operation with
      | announce p =>
          cases hr : c.records[p]? with
          | none => simp [after, perform, announce, hr]
          | some r =>
              by_cases hlast : r.clock.time = Clock.last
              · simp [told?, perform, Reaction.map, Reaction.outcome?, announce, hr,
                  Record.announce, Clock.tick, hlast, overflowed, fail, Except.map] at h
              · simp [told?, perform, Reaction.map, Reaction.outcome?, announce, hr,
                  Record.announce_of_ne_last hlast, fail, Except.map] at h
      | leave p =>
          cases hr : c.records[p]? with
          | none => simp [after, perform, leave, hr]
          | some r =>
              by_cases hlast : r.clock.time = Clock.last
              · simp [told?, perform, Reaction.map, Reaction.outcome?, leave, hr,
                  Record.leave, Clock.tick, hlast, overflowed, fail, Except.map] at h
              · simp [told?, perform, Reaction.map, Reaction.outcome?, leave, hr,
                  Record.leave_of_ne_last hlast, fail, Except.map] at h
      | enter p =>
          cases hr : c.records[p]? with
          | none => simp [after, perform, enter, hr]
          | some r =>
              simp [told?, perform, Reaction.map, Reaction.outcome?, enter, hr, fail,
                Except.map] at h
      | request owner stamp =>
          cases hr : c.records[owner]? with
          | none => simp [after, perform, Coordinator.request, hr]
          | some r =>
              simp only [told?, perform, Coordinator.request, hr] at h
              split at h <;> simp [Reaction.map, Reaction.outcome?, fail, Except.map] at h
      | ready owner caller | finished owner caller =>
          simp only [told?, perform, rendezvous] at h
          split at h <;> simp [Reaction.map, Reaction.outcome?, fail, Except.map] at h
      | subscribe p | restart expected | listSubscribed | health | readClock =>
          simp [told?, perform, Reaction.outcome?, fail] at h

/-! ## A course of events -/

theorem Coherent.run {heard : List UInt64} {events : List Event} (h : c.Coherent p heard)
    (hexhausted : ¬ Exhausted p c events) :
    (c.run events).Coherent p (events.foldl (Event.heard p) heard) := by
  induction events generalizing c heard with
  | nil => exact h
  | cons e events ih =>
      rw [Exhausted, not_or] at hexhausted
      exact ih (h.after hexhausted.1) hexhausted.2

/-- **Records survive every misuse.** Whatever has come to pass at a coordinator since it was made,
in whatever order it was called and by whom, the record of a process is coherent with the requests
that it has received since it was made, as long as no event has exhausted the clock of the process;
and a call that is told that its process is not hosted leaves everything as it is. -/
theorem coherent_run (expected : UInt64) (events : List Event)
    (hexhausted : ¬ Exhausted p (new expected) events) :
    (∀ r, ((new expected).run events).records[p]? = some r → r.Coherent (heard p events)) ∧
    ∀ e q, ((new expected).run events).told? e = some (fail (.nodeNotFound q)) →
      ((new expected).run events).after e = (new expected).run events := by
  have hnew : (new expected).Coherent p [] := fun r hr => by simp [new] at hr
  exact ⟨hnew.run hexhausted, fun e q h => after_eq_of_nodeNotFound h⟩

/-- A process enters before it is hosted, leaves before it has entered, enters without asking and
asks itself; another one asks with the last time there is, and a caller hangs up. -/
def misused : List Event :=
  [.call 0 (.enter "P1"), .call 0 (.subscribe "P1"), .call 0 (.leave "P1"), .call 0 (.enter "P1"),
    .call 0 (.request "P1" ⟨9, "P1"⟩), .call 0 (.request "P1" ⟨Clock.last, "P2"⟩),
    .hangUp ⟨.record "P1", 0⟩]

theorem coherent_run_misused :
    ¬ Exhausted "P1" (new 2) misused ∧
    (∃ r, ((new 2).run misused).records["P1"]? = some r ∧ r.Coherent [Clock.last, 9] ∧
      r = ⟨⟨Clock.last⟩, .acquired, 0, [⟨1, ⟨Clock.last, "P2"⟩⟩]⟩) ∧
    ((new 2).run misused).after (.call 0 (.leave "P3")) = (new 2).run misused := by
  have hexhausted : ¬ Exhausted "P1" (new 2) misused := by decide +kernel
  have hr : ((new 2).run misused).records["P1"]? =
    some ⟨⟨Clock.last⟩, .acquired, 0, [⟨1, ⟨Clock.last, "P2"⟩⟩]⟩ := by decide +kernel
  obtain ⟨hcoherent, hnot⟩ := coherent_run 2 misused hexhausted
  exact ⟨hexhausted, ⟨_, hr, hcoherent _ hr, rfl⟩, hnot _ "P3" (by decide +kernel)⟩

end Coordinator

end CriticalSection
