import CriticalSection.Cluster.State

/-!
# Fan-outs

A client calls a number of processes at the same time and waits until all have answered. The parts
of a fan-out move one by one: each finds the broker of its process, calls it, and may be parked
there. A failure ends the fan-out, and the parts that still wait hang up. A fan-out takes a failure
when it comes or, if the answers are taken in order, once every part before it has answered.
-/

set_option autoImplicit false

namespace CriticalSection

/-- How far a part of a fan-out has come. -/
inductive Part (s : Extent)
  | unrouted
  | routed (broker : Fin s.brokers)
  | parked (broker : Fin s.brokers) (ticket : Ticket)
  | answered
  | failed (fault : Fault)
  deriving DecidableEq

/-- The calls to a number of processes. -/
structure FanOut (s : Extent) where
  parts : List (ProcessId × Part s)
  /-- Whether the answers are taken in the order of the parts. -/
  ordered : Bool
  deriving DecidableEq

/-- What is asked of each process. -/
abbrev Question := ProcessId → Coordinator → Reaction Unit × Coordinator

namespace Part

variable {s : Extent}

/-- Whether a part can move. -/
def movable (c : Cluster s) : Part s → Bool
  | unrouted => true
  | routed _ => true
  | parked b ticket => (c.outcome? b ticket).isSome
  | answered => false
  | failed _ => false

/-- Whether a part has been answered well. -/
def isAnswered : Part s → Bool
  | answered => true
  | _ => false

/-- Why a part has failed, if it has. -/
def fault? : Part s → Option Fault
  | failed fault => some fault
  | _ => none

/-- Where an outcome leaves a part. -/
def ofOutcome : Outcome Unit → Part s
  | .ok () => answered
  | .error fault => failed fault

/-- The next stage of the part for a process, unless it has to wait. -/
def step (client : Client s) (ask : Question) (p : ProcessId) (part : Part s) (c : Cluster s) :
    Option (Part s) × Cluster s :=
  match part with
  | unrouted =>
    match client.route p c with
    | (.ok b, c) => (some (routed b), c)
    | (.error fault, c) => (some (failed fault), c)
  | routed b =>
    match c.request b (ask p) with
    | (.parked ticket, c) => (some (parked b ticket), c)
    | (.answered outcome, c) => (some (ofOutcome outcome), c)
  | parked b ticket => ((c.outcome? b ticket).map ofOutcome, c)
  | answered => (none, c)
  | failed _ => (none, c)

/-- A part hangs up. -/
def hangUp (c : Cluster s) : Part s → Cluster s
  | parked b ticket => c.hangUp b ticket
  | _ => c

/-- How many moves a part has before it at most. -/
def cost : Part s → Nat
  | unrouted => 3
  | routed _ => 2
  | parked .. => 1
  | answered => 0
  | failed _ => 0

end Part

namespace FanOut

variable {s : Extent}

/-- A client with at most so many processes takes a failure when it comes; with more processes the
answers are taken in order. -/
def small : Nat := 30

/-- The fan-out of a client to some processes, at its start. The client itself counts among its
processes. -/
def start (client : Client s) (processes : List ProcessId) : FanOut s :=
  ⟨processes.map fun p => (p, .unrouted), small < client.processes.length⟩

/-- Whether all processes have answered well. -/
def complete (fan : FanOut s) : Bool := fan.parts.all fun (_, part) => part.isAnswered

/-- The parts whose answer can be taken. In order, that is the first that has not answered well. -/
def due (fan : FanOut s) : List (Part s) :=
  let parts := fan.parts.map Prod.snd
  if fan.ordered then (parts.find? fun part => !part.isAnswered).toList else parts

/-- **How a fan-out ends**, once it does: with the failure it takes, or well when all processes have
answered. -/
def outcome? (fan : FanOut s) : Option (Outcome Unit) :=
  match fan.due.findSome? Part.fault? with
  | some fault => some (.error fault)
  | none => if fan.complete then some (.ok ()) else none

/-- All parts hang up. -/
def hangUp (fan : FanOut s) (c : Cluster s) : Cluster s :=
  fan.parts.foldl (fun c (_, part) => part.hangUp c) c

/-- The first part that can move. -/
def choice (fan : FanOut s) (c : Cluster s) : Nat :=
  fan.parts.findIdx fun (_, part) => part.movable c

/-- The end of a fan-out if it ends here, at which all parts hang up; otherwise it goes on. -/
def proceed (fan : FanOut s) (c : Cluster s) : Move (FanOut s) Unit × Cluster s :=
  match fan.outcome? with
  | some outcome => (.finish outcome, fan.hangUp c)
  | none => (.next fan, c)

/-- **The move of a fan-out** when the part at a place moves. A fan-out to nobody ends at once. -/
def step (client : Client s) (ask : Question) (place : Nat) (fan : FanOut s) (c : Cluster s) :
    Move (FanOut s) Unit × Cluster s :=
  if fan.complete then (.finish (.ok ()), c)
  else match fan.parts[place]? with
    | none => (.wait, c)
    | some (p, part) =>
      match part.step client ask p c with
      | (none, c) => (.wait, c)
      | (some part, c) => { fan with parts := fan.parts.set place (p, part) }.proceed c

/-- How many moves a fan-out has before it at most. -/
def cost (fan : FanOut s) : Nat := fan.parts.foldr (fun (_, part) rest => part.cost + rest) 1

end FanOut

end CriticalSection
