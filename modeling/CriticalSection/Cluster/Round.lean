import CriticalSection.Cluster.Visit

/-!
# Rounds

In a round a process lines up with all others, visits the critical section a number of times,
logging each entry and exit and thinking after each visit, and lines up again.
-/

set_option autoImplicit false

namespace CriticalSection

variable {s : Extent}

/-- How often a process visits, and how long it stays inside and thinks. -/
structure Pacing where
  visits : UInt64
  /-- How long a visit stays inside, in milliseconds. -/
  holding : UInt64
  /-- The pause after a visit, in milliseconds. -/
  thinking : UInt64
  deriving DecidableEq, Repr

/-- The stages of a round; `left` counts the visits still to be started. -/
inductive Round (s : Extent)
  | gathering (line : LineUp s) (writer : LogWriter)
  | visiting (visit : Visit s LoggedStay LogWriter) (left : Nat)
  | thinking (deadline : Int) (writer : LogWriter) (left : Nat)
  | parting (line : LineUp s)

namespace Round

/-- A round at its start. -/
def start (client : Client s) (writer : LogWriter) : Round s :=
  gathering (.start client .ready) writer

/-- The next visit, or the end of the round when none is left. -/
def resume (client : Client s) (pacing : Pacing) (writer : LogWriter) : Nat → Round s
  | 0 => parting (.start client .finished)
  | left + 1 => visiting (.start (.arriving writer pacing.holding)) left

/-- **The move of a round.** The result is the number of visits. -/
def step (client : Client s) (pacing : Pacing) (place : Nat) (round : Round s) (c : Cluster s) :
    Move (Round s) UInt64 × Cluster s :=
  match round with
  | gathering line writer =>
    match line.step client place c with
    | (.wait, c) => (.wait, c)
    | (.next line, c) => (.next (gathering line writer), c)
    | (.finish (.ok ()), c) => (.next (.resume client pacing writer pacing.visits.toNat), c)
    | (.finish (.error fault), c) => (.finish (.error fault), c)
  | visiting visit left =>
    match visit.step client (LoggedStay.step client) place c with
    | (.wait, c) => (.wait, c)
    | (.next visit, c) => (.next (visiting visit left), c)
    | (.finish (.ok writer), c) => (.next (thinking (c.after pacing.thinking) writer left), c)
    | (.finish (.error fault), c) => (.finish (.error fault), c)
  | thinking deadline writer left =>
    if c.reached deadline then (.next (.resume client pacing writer left), c) else (.wait, c)
  | parting line =>
    match line.step client place c with
    | (.wait, c) => (.wait, c)
    | (.next line, c) => (.next (parting line), c)
    | (.finish (.ok ()), c) => (.finish (.ok pacing.visits), c)
    | (.finish (.error fault), c) => (.finish (.error fault), c)

/-- The part that moves first. -/
def choice (c : Cluster s) : Round s → Nat
  | gathering line _ => line.fan.choice c
  | visiting visit _ => visit.choice c
  | thinking .. => 0
  | parting line => line.fan.choice c

/-- The caller hangs up. -/
def hangUp (c : Cluster s) : Round s → Cluster s
  | gathering line _ => line.fan.hangUp c
  | visiting visit _ => visit.hangUp c
  | thinking .. => c
  | parting line => line.fan.hangUp c

/-- When a wait for a time ends. -/
def deadline? : Round s → Option Int
  | visiting (.inside stay) _ => stay.deadline?
  | thinking deadline _ _ => some deadline
  | _ => none

/-- How many moves the part of a round has at most in which `left` visits are still to be
started. -/
def remaining (client : Client s) (left : Nat) : Nat :=
  left * (3 * client.peers.length + 12) + 3 * client.processes.length + 2

/-- How many moves are left at most. -/
def cost (client : Client s) (pacing : Pacing) : Round s → Nat
  | gathering line _ => line.fan.cost + remaining client pacing.visits.toNat
  | visiting visit left => visit.cost client LoggedStay.cost + 1 + remaining client left
  | thinking _ _ left => 1 + remaining client left
  | parting line => line.fan.cost

end Round

end CriticalSection
