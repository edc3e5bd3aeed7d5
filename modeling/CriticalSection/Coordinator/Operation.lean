import CriticalSection.Coordinator.State

/-!
# Operations

Everything that can be asked of a coordinator and of the clock beside it, as data. An operation
can be performed at once, sent over a connection, or written down.
-/

set_option autoImplicit false

namespace CriticalSection

/-- What can be asked of a coordinator. -/
inductive Operation
  | subscribe (process : ProcessId)
  | listSubscribed
  | announce (process : ProcessId)
  | request (owner : ProcessId) (request : Stamp)
  | enter (process : ProcessId)
  | leave (process : ProcessId)
  | ready (owner caller : ProcessId)
  | finished (owner caller : ProcessId)
  | restart (expected : UInt64)
  | health
  /-- Two readings of the clock, when the question came and when the answer left. -/
  | readClock
  deriving DecidableEq, Repr

/-- What an operation gives. -/
inductive Value
  | done
  | time (time : UInt64)
  | subscribed (processes : ProcessSet)
  | health (text : String)
  | readings (received answered : Int64)
  deriving DecidableEq

namespace Reaction

variable {α β : Type}

/-- A reaction with another form of its answer. -/
def map (f : α → β) : Reaction α → Reaction β
  | .answered outcome => .answered (outcome.map f)
  | .parked ticket => .parked ticket

end Reaction

namespace Coordinator

/-- **Performs an operation** at a time on the clock beside the coordinator. A parked operation
gives `Value.done` once it is granted. -/
def perform (c : Coordinator) (now : Int64) : Operation → Reaction Value × Coordinator
  | .subscribe p => (.answered (.ok .done), c.subscribe p)
  | .listSubscribed => (.answered (.ok (.subscribed c.subscribed)), c)
  | .announce p => ((Reaction.answered (c.announce p).1).map .time, (c.announce p).2)
  | .request owner request =>
    ((c.request owner request).1.map fun _ => .done, (c.request owner request).2)
  | .enter p => ((Reaction.answered (c.enter p).1).map fun _ => .done, (c.enter p).2)
  | .leave p => ((Reaction.answered (c.leave p).1).map fun _ => .done, (c.leave p).2)
  | .ready owner caller =>
    ((c.rendezvous .ready owner caller).1.map fun _ => .done,
      (c.rendezvous .ready owner caller).2)
  | .finished owner caller =>
    ((c.rendezvous .finished owner caller).1.map fun _ => .done,
      (c.rendezvous .finished owner caller).2)
  | .restart expected => (.answered (.ok .done), c.restart expected)
  | .health => (.answered (.ok (.health c.health)), c)
  | .readClock => (.answered (.ok (.readings now now)), c)

end Coordinator

end CriticalSection
