import CriticalSection.Cluster.Round
import CriticalSection.Coordinator.Session

/-!
# Calls

Every call that can be made in a cluster, as one kind of thing: the calls of clients, and the calls
made to a coordinator without a client.
-/

set_option autoImplicit false

namespace CriticalSection

variable {s : Extent}

/-- A call and the stage it has reached. -/
inductive Call (s : Extent)
  | subscribe (client : Client s) (stage : Subscribe s)
  | acquire (client : Client s) (stage : Acquire s)
  | release (client : Client s) (stage : Release s)
  | lineUp (client : Client s) (line : LineUp s)
  | awaitPeers (client : Client s) (pause : UInt64) (attempts : UInt32) (stage : AwaitPeers)
  | visit (client : Client s) (visit : Visit s Stay Int)
  | round (client : Client s) (pacing : Pacing) (round : Round s)
  /-- A call to the coordinator of a broker, and how it has reacted. -/
  | direct (broker : Fin s.brokers) (reaction : Reaction Value)

/-- What a call brings back. -/
inductive Yield
  | nothing
  /-- The time of a request. -/
  | time (time : UInt64)
  /-- What a visit has brought back. -/
  | number (number : Int)
  /-- How many visits a round had. -/
  | count (count : UInt64)
  deriving DecidableEq, Repr

namespace Call

/-- **The move of a call** when the part at a place moves. -/
def step (place : Nat) (call : Call s) (c : Cluster s) : Move (Call s) Yield × Cluster s :=
  match call with
  | subscribe client stage =>
    ((stage.step client c).1.map (subscribe client) fun _ => .nothing, (stage.step client c).2)
  | acquire client stage =>
    ((stage.step client place c).1.map (acquire client) .time, (stage.step client place c).2)
  | release client stage =>
    ((stage.step client c).1.map (release client) fun _ => .nothing, (stage.step client c).2)
  | lineUp client line =>
    ((line.step client place c).1.map (lineUp client) fun _ => .nothing,
      (line.step client place c).2)
  | awaitPeers client pause attempts stage =>
    ((stage.step client pause attempts c).1.map (awaitPeers client pause attempts)
        fun _ => .nothing,
      (stage.step client pause attempts c).2)
  | visit client v =>
    ((v.step client Stay.step place c).1.map (visit client) .number,
      (v.step client Stay.step place c).2)
  | round client pacing r =>
    ((r.step client pacing place c).1.map (round client pacing) .count,
      (r.step client pacing place c).2)
  | direct b reaction =>
    match (c.brokers.get b).coordinator.progress reaction with
    | none => (.wait, c)
    | some outcome => (.finish (outcome.map fun _ => .nothing), c)

/-- The part that moves first. -/
def choice (c : Cluster s) : Call s → Nat
  | acquire _ stage => stage.choice c
  | lineUp _ line => line.fan.choice c
  | visit _ v => v.choice c
  | round _ _ r => r.choice c
  | _ => 0

/-- The caller hangs up. -/
def hangUp (c : Cluster s) : Call s → Cluster s
  | acquire _ stage => stage.hangUp c
  | lineUp _ line => line.fan.hangUp c
  | visit _ v => v.hangUp c
  | round _ _ r => r.hangUp c
  | direct b (.parked ticket) => c.hangUp b ticket
  | _ => c

/-- When a wait for a time ends. -/
def deadline? : Call s → Option Int
  | awaitPeers _ _ _ (.pausing _ deadline) => some deadline
  | visit _ (.inside stay) => stay.deadline?
  | round _ _ r => r.deadline?
  | _ => none

/-- How many moves are left at most. -/
def cost : Call s → Nat
  | subscribe _ stage => stage.cost
  | acquire client stage => stage.cost client
  | release _ stage => stage.cost
  | lineUp _ line => line.fan.cost
  | awaitPeers client _ attempts stage => stage.cost client attempts
  | visit client v => v.cost client Stay.cost
  | round client pacing r => r.cost client pacing
  | direct .. => 1

end Call

end CriticalSection
