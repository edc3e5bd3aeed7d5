import CriticalSection.Cluster.FanOut

/-!
# The calls of a client

Each call of a client goes through stages, with at most one call to a coordinator between two of
them; a fan-out also takes the place of the part that moves. A call that can be cancelled looks at
its token before it moves on.
-/

set_option autoImplicit false

namespace CriticalSection

variable {s : Extent}

/-! ## Subscribing -/

/-- The stages of a subscription. -/
inductive Subscribe (s : Extent)
  | start
  | routed (broker : Fin s.brokers)
  deriving DecidableEq

namespace Subscribe

/-- **Subscribes** at the home of the client, or where its process is already hosted, or at the
first broker of its router. -/
def step (client : Client s) (stage : Subscribe s) (c : Cluster s) :
    Move (Subscribe s) Unit × Cluster s :=
  match stage with
  | start =>
    match client.home with
    | some b => (.next (routed b), c)
    | none =>
      match c.route client.router client.process with
      | (some b, c) => (.next (routed b), c)
      | (none, c) =>
        match (c.routers.get client.router).brokers with
        | b :: _ => (.next (routed b), c)
        | [] => (.finish (fail (.unroutable client.process)), c)
  | routed b =>
    match c.call b fun coordinator => (.ok (), coordinator.subscribe client.process) with
    | (outcome, c) => (.finish outcome, c)

/-- How many moves are left at most. -/
def cost : Subscribe s → Nat
  | start => 2
  | routed _ => 1

end Subscribe

/-! ## Entering and leaving -/

/-- The stages of entering the critical section. -/
inductive Acquire (s : Extent)
  | start
  /-- The broker of the process itself is known. -/
  | routed (own : Fin s.brokers)
  /-- The request has been announced and the peers are asked. -/
  | gathering (own : Fin s.brokers) (time : UInt64) (fan : FanOut s)
  /-- The call was cancelled and gives up its request. -/
  | withdrawing (own : Fin s.brokers)
  /-- Every peer has granted the request. -/
  | granted (own : Fin s.brokers) (time : UInt64)
  deriving DecidableEq

namespace Acquire

/-- What each peer is asked: permission for the request. -/
def question (client : Client s) (time : UInt64) : Question :=
  fun p coordinator => coordinator.request p ⟨time, client.process⟩

/-- **Enters the critical section**: announces a request, asks all peers at once and goes inside
when all of them have granted it. The result is the time of the request. -/
def step (client : Client s) (place : Nat) (stage : Acquire s) (c : Cluster s) :
    Move (Acquire s) UInt64 × Cluster s :=
  match stage with
  | start =>
    match client.route client.process c with
    | (.ok own, c) => (.next (routed own), c)
    | (.error fault, c) => (.finish (.error fault), c)
  | routed own =>
    match c.call own fun coordinator => coordinator.announce client.process with
    | (.ok time, c) => (.next (gathering own time (.start client client.peers)), c)
    | (.error fault, c) => (.finish (.error fault), c)
  | gathering own time fan =>
    if client.isCancelled c then (.next (withdrawing own), fan.hangUp c)
    else match fan.step client (question client time) place c with
      | (.wait, c) => (.wait, c)
      | (.next fan, c) => (.next (gathering own time fan), c)
      | (.finish (.ok ()), c) => (.next (granted own time), c)
      | (.finish (.error fault), c) => (.finish (.error fault), c)
  | withdrawing own =>
    match c.call own fun coordinator => coordinator.leave client.process with
    | (.ok (), c) => (.finish (fail (.cancelled "acquire")), c)
    | (.error fault, c) => (.finish (.error fault), c)
  | granted own time =>
    match c.call own fun coordinator => coordinator.enter client.process with
    | (.ok (), c) => (.finish (.ok time), c)
    | (.error fault, c) => (.finish (.error fault), c)

/-- The part that moves first. -/
def choice (c : Cluster s) : Acquire s → Nat
  | gathering _ _ fan => fan.choice c
  | _ => 0

/-- The caller hangs up. -/
def hangUp (c : Cluster s) : Acquire s → Cluster s
  | gathering _ _ fan => fan.hangUp c
  | _ => c

/-- How many moves are left at most. -/
def cost (client : Client s) : Acquire s → Nat
  | start => 3 * client.peers.length + 6
  | routed _ => 3 * client.peers.length + 5
  | gathering _ _ fan => fan.cost + 2
  | withdrawing _ => 1
  | granted .. => 1

end Acquire

/-- The stages of leaving the critical section. -/
inductive Release (s : Extent)
  | start
  | routed (own : Fin s.brokers)
  deriving DecidableEq

namespace Release

/-- **Leaves the critical section.** -/
def step (client : Client s) (stage : Release s) (c : Cluster s) :
    Move (Release s) Unit × Cluster s :=
  match stage with
  | start =>
    match client.route client.process c with
    | (.ok own, c) => (.next (routed own), c)
    | (.error fault, c) => (.finish (.error fault), c)
  | routed own =>
    match c.call own fun coordinator => coordinator.leave client.process with
    | (outcome, c) => (.finish outcome, c)

/-- How many moves are left at most. -/
def cost : Release s → Nat
  | start => 2
  | routed _ => 1

end Release

/-! ## Lining up -/

/-- Waiting for all processes, before a round or after it. -/
structure LineUp (s : Extent) where
  phase : Phase
  fan : FanOut s
  deriving DecidableEq

namespace LineUp

/-- Lining up for a phase, at its start: the barriers of all processes are visited. -/
def start (client : Client s) (phase : Phase) : LineUp s := ⟨phase, .start client client.processes⟩

/-- What is asked of each process: to be let through its barrier. -/
def question (client : Client s) (phase : Phase) : Question :=
  fun p coordinator => coordinator.rendezvous phase p client.process

/-- **Lines up**: arrives at the barriers of all processes and waits until all of them have
opened. -/
def step (client : Client s) (place : Nat) (l : LineUp s) (c : Cluster s) :
    Move (LineUp s) Unit × Cluster s :=
  if client.isCancelled c then (.finish (fail (.cancelled l.phase.word)), l.fan.hangUp c)
  else match l.fan.step client (question client l.phase) place c with
    | (.wait, c) => (.wait, c)
    | (.next fan, c) => (.next { l with fan := fan }, c)
    | (.finish outcome, c) => (.finish outcome, c)

end LineUp

/-! ## Waiting for peers -/

/-- Waiting until every process can be found. -/
inductive AwaitPeers
  /-- The pass with a number looks for the processes on a list. -/
  | looking (pass : Nat) (left : List ProcessId)
  /-- The pass with a number has missed a process, and the next one is due at a time. -/
  | pausing (pass : Nat) (deadline : Int)
  deriving DecidableEq, Repr

namespace AwaitPeers

/-- The first pass. -/
def start (client : Client s) : AwaitPeers := looking 1 client.processes

/-- **Looks for all processes**, and again after a pause when one is missing, in at most so many
passes. Only the pauses can be cancelled. -/
def step (client : Client s) (pause : UInt64) (attempts : UInt32) (stage : AwaitPeers)
    (c : Cluster s) : Move AwaitPeers Unit × Cluster s :=
  match stage with
  | looking _ [] => (.finish (.ok ()), c)
  | looking pass (p :: left) =>
    match c.route client.router p with
    | (some _, c) => (.next (looking pass left), c)
    | (none, c) =>
      if attempts.toNat ≤ pass then (.finish (fail (.unroutable p)), c)
      else (.next (pausing pass (c.after pause)), c)
  | pausing pass deadline =>
    if client.isCancelled c then (.finish (fail (.cancelled "await_peers")), c)
    else if c.reached deadline then (.next (looking (pass + 1) client.processes), c)
    else (.wait, c)

/-- How many moves are left at most. -/
def cost (client : Client s) (attempts : UInt32) : AwaitPeers → Nat
  | looking pass left =>
    left.length + 2 + (attempts.toNat - pass) * (client.processes.length + 3)
  | pausing pass _ => 1 + (attempts.toNat - pass) * (client.processes.length + 3)

end AwaitPeers

end CriticalSection
