import Std.Data.TreeMap
import CriticalSection.Coordinator.Record
import CriticalSection.Coordinator.Barrier
import CriticalSection.ProcessSet

/-!
# Coordinators

A coordinator hosts processes. It keeps their records and barriers and lets other processes ask
for permission to enter the critical section. Most calls are answered at once. A call that has to
wait is parked: its caller gets a ticket, with which it can look for the answer or hang up. A
request parked on a record is granted when the owner of the record leaves the critical section; if
the record is replaced or dropped before, the wait is interrupted, and so it is at a barrier that
is dropped before it opens.
-/

set_option autoImplicit false

namespace CriticalSection

/-! ## Waiting -/

/-- What a parked call waits at. -/
inductive Place
  /-- The record of a process. -/
  | record (owner : ProcessId)
  /-- A barrier of a process. -/
  | barrier (phase : Phase) (owner : ProcessId)
  deriving DecidableEq, Repr

/-- The name of a place, as errors give it. -/
def Place.text : Place → String
  | .record owner => "request to " ++ owner
  | .barrier phase owner => phase.word ++ " barrier at " ++ owner

/-- What the caller of a parked call holds. Numbers are given out once. -/
structure Ticket where
  place : Place
  number : Nat
  deriving DecidableEq, Repr

/-- How a wait has ended. -/
inductive Answer
  | granted
  | interrupted
  deriving DecidableEq, Repr

/-- How a coordinator reacts to a call: it answers or lets the caller wait. -/
inductive Reaction (α : Type)
  | answered (outcome : Outcome α)
  | parked (ticket : Ticket)

/-! ## The state of a coordinator -/

/-- A coordinator. -/
structure Coordinator where
  /-- How many processes open a barrier. -/
  expected : UInt64
  records : Std.TreeMap ProcessId Record
  ready : Std.TreeMap ProcessId Barrier
  finished : Std.TreeMap ProcessId Barrier
  /-- How many tickets have been given out. -/
  issued : Nat
  /-- The answers to the tickets whose wait has ended. -/
  answers : Std.TreeMap Nat Answer

namespace Coordinator

/-- A coordinator that hosts nobody. -/
def new (expected : UInt64) : Coordinator := ⟨expected, ∅, ∅, ∅, 0, ∅⟩

/-- The barriers of a phase. -/
def barriers (c : Coordinator) : Phase → Std.TreeMap ProcessId Barrier
  | .ready => c.ready
  | .finished => c.finished

/-- With other barriers of a phase. -/
def withBarriers (c : Coordinator) (phase : Phase) (barriers : Std.TreeMap ProcessId Barrier) :
    Coordinator :=
  match phase with
  | .ready => { c with ready := barriers }
  | .finished => { c with finished := barriers }

/-- The barrier of a process, closed if nobody has been there. -/
def barrier (c : Coordinator) (phase : Phase) (owner : ProcessId) : Barrier :=
  (c.barriers phase).getD owner .closed

/-- With another record for a process. -/
def withRecord (c : Coordinator) (p : ProcessId) (r : Record) : Coordinator :=
  { c with records := c.records.insert p r }

/-- Answers the callers that hold some tickets. -/
def settle (c : Coordinator) (answer : Answer) (tickets : List Nat) : Coordinator :=
  { c with answers := tickets.foldl (fun answers ticket => answers.insert ticket answer) c.answers }

/-- The outcome of the call that was parked with a ticket, once it has one. -/
def outcome? (c : Coordinator) (ticket : Ticket) : Option (Outcome Unit) :=
  match c.answers[ticket.number]? with
  | none => none
  | some .granted => some (.ok ())
  | some .interrupted => some (fail (.interrupted ticket.place.text))

/-! ## Calls that are answered at once -/

/-- **A process subscribes.** It gets a fresh record; who waited at its old one is interrupted. -/
def subscribe (c : Coordinator) (p : ProcessId) : Coordinator :=
  let c := match c.records[p]? with
    | some old => c.settle .interrupted old.tickets
    | none => c
  c.withRecord p .fresh

/-- The processes a coordinator hosts. -/
def subscribed (c : Coordinator) : ProcessSet := ProcessSet.ofList c.records.keys

/-- **A process announces that it wants to enter**, and gets the time of its request. -/
def announce (c : Coordinator) (p : ProcessId) : Outcome UInt64 × Coordinator :=
  match c.records[p]? with
  | none => (fail (.nodeNotFound p), c)
  | some r => (r.announce.1, c.withRecord p r.announce.2)

/-- **A process goes inside**, once every other one has granted its request. -/
def enter (c : Coordinator) (p : ProcessId) : Outcome Unit × Coordinator :=
  match c.records[p]? with
  | none => (fail (.nodeNotFound p), c)
  | some r => (.ok (), c.withRecord p r.enter)

/-- **A process leaves** or withdraws its request; everybody who waited for it is granted. -/
def leave (c : Coordinator) (p : ProcessId) : Outcome Unit × Coordinator :=
  match c.records[p]? with
  | none => (fail (.nodeNotFound p), c)
  | some r =>
    match r.leave with
    | (.ok (), left) => (.ok (), (c.withRecord p left).settle .granted r.tickets)
    | (.error fault, left) => (.error fault, c.withRecord p left)

/-- **A coordinator starts anew** with another number of expected processes. Every record and
barrier is dropped and every wait interrupted. -/
def restart (c : Coordinator) (expected : UInt64) : Coordinator :=
  let interrupted := c.records.values.flatMap Record.tickets ++
    c.ready.values.flatMap Barrier.waiting ++ c.finished.values.flatMap Barrier.waiting
  { c.settle .interrupted interrupted with
    expected := expected, records := ∅, ready := ∅, finished := ∅ }

/-! ## Calls that may wait -/

/-- **A process asks for permission.** The owner's clock hears of the request, which is granted at
once or parked. -/
def request (c : Coordinator) (owner : ProcessId) (request : Stamp) :
    Reaction Unit × Coordinator :=
  match c.records[owner]? with
  | none => (.answered (fail (.nodeNotFound owner)), c)
  | some r =>
    let heard := r.hear request
    if r.defers owner request then
      let parked := heard.park ⟨c.issued, request⟩
      (.parked ⟨.record owner, c.issued⟩, { c.withRecord owner parked with issued := c.issued + 1 })
    else (.answered (.ok ()), c.withRecord owner heard)

/-- **A process arrives at a barrier.** If the barrier opens, everybody goes through. -/
def rendezvous (c : Coordinator) (phase : Phase) (owner caller : ProcessId) :
    Reaction Unit × Coordinator :=
  let arrived := (c.barrier phase owner).arrive caller c.issued
  if arrived.opens c.expected then
    (.answered (.ok ()),
      (c.withBarriers phase ((c.barriers phase).insert owner .closed)).settle .granted
        (c.barrier phase owner).waiting)
  else
    (.parked ⟨.barrier phase owner, c.issued⟩,
      { c.withBarriers phase ((c.barriers phase).insert owner arrived) with
        issued := c.issued + 1 })

/-- **The caller of a parked call hangs up**: nothing waits with its ticket any longer. -/
def hangUp (c : Coordinator) (ticket : Ticket) : Coordinator :=
  match ticket.place with
  | .record owner => { c with records := c.records.modify owner fun r => r.drop ticket.number }
  | .barrier phase owner =>
    c.withBarriers phase ((c.barriers phase).modify owner fun b => b.drop ticket.number)

/-! ## Looking at a coordinator -/

/-- What a coordinator tells about a process. -/
structure Snapshot where
  process : ProcessId
  standing : Standing
  clock : UInt64
  announced : UInt64
  /-- How many requests wait for the process. -/
  queued : Nat
  deriving DecidableEq, Repr

/-- What a record tells about its process. -/
def Snapshot.of (p : ProcessId) (r : Record) : Snapshot :=
  ⟨p, r.standing, r.clock.time, r.announced, r.queue.length⟩

/-- The snapshot of a process. -/
def snapshot (c : Coordinator) (p : ProcessId) : Outcome Snapshot :=
  match c.records[p]? with
  | none => fail (.nodeNotFound p)
  | some r => .ok (.of p r)

/-- The snapshots of all processes, in the order of their names. -/
def snapshots (c : Coordinator) : List Snapshot :=
  c.records.toList.map fun (p, r) => .of p r

/-- A line on the health of a coordinator. -/
def health (c : Coordinator) : String :=
  let standings := c.records.toList.map fun (p, r) => p ++ "=" ++ r.standing.word
  "ok expected=" ++ toString c.expected.toNat ++ " subscribed=" ++ toString c.records.size ++
    " [" ++ String.intercalate " " standings ++ "]"

end Coordinator

end CriticalSection
