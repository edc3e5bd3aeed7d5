import CriticalSection.Cluster.Router
import CriticalSection.Files.Tree
import CriticalSection.Offset.Estimate

/-!
# Clusters

A cluster is everything its clients share: the brokers, the routers, the tokens by which calls are
cancelled, the clock and the files. A client acts for one process.
-/

set_option autoImplicit false

namespace CriticalSection

/-- How many brokers, routers and tokens there are. -/
structure Extent where
  brokers : Nat
  routers : Nat
  tokens : Nat
  deriving DecidableEq, Repr

/-- The place of a broker, router or token when it is the only one. -/
def Extent.only : Fin 1 := 0

/-- What the clients of a cluster share. -/
structure Cluster (s : Extent) where
  brokers : Vector Broker s.brokers
  routers : Vector (Router s.brokers) s.routers
  /-- Which tokens have been cancelled. -/
  cancelled : Vector Bool s.tokens
  /-- The time in milliseconds. -/
  now : Int64
  files : FileTree

/-- What acts for a process. -/
structure Client (s : Extent) where
  process : ProcessId
  /-- All processes that take part. -/
  processes : List ProcessId
  /-- The broker the process subscribes at, if it is told. -/
  home : Option (Fin s.brokers)
  router : Fin s.routers
  /-- How far the clock of the process is ahead. -/
  skew : Int64
  token : Fin s.tokens

namespace Cluster

variable {s : Extent}

/-- With another state of a broker. -/
def withBroker (c : Cluster s) (b : Fin s.brokers) (broker : Broker) : Cluster s :=
  { c with brokers := c.brokers.set b broker }

/-- A call to a broker that is answered at once. -/
def call {α : Type} (c : Cluster s) (b : Fin s.brokers)
    (f : Coordinator → Outcome α × Coordinator) : Outcome α × Cluster s :=
  (((c.brokers.get b).call f).1, c.withBroker b ((c.brokers.get b).call f).2)

/-- A call to a broker that may have to wait. -/
def request (c : Cluster s) (b : Fin s.brokers) (f : Coordinator → Reaction Unit × Coordinator) :
    Reaction Unit × Cluster s :=
  (((c.brokers.get b).request f).1, c.withBroker b ((c.brokers.get b).request f).2)

/-- The outcome of a call that was parked at a broker, once it has one. -/
def outcome? (c : Cluster s) (b : Fin s.brokers) (ticket : Ticket) : Option (Outcome Unit) :=
  (c.brokers.get b).coordinator.outcome? ticket

/-- The caller of a call that was parked at a broker hangs up. -/
def hangUp (c : Cluster s) (b : Fin s.brokers) (ticket : Ticket) : Cluster s :=
  c.withBroker b { c.brokers.get b with coordinator := (c.brokers.get b).coordinator.hangUp ticket }

/-- A router looks for the broker of a process. -/
def route (c : Cluster s) (r : Fin s.routers) (p : ProcessId) :
    Option (Fin s.brokers) × Cluster s :=
  (((c.routers.get r).route c.brokers p).1,
    { c with routers := c.routers.set r ((c.routers.get r).route c.brokers p).2 })

/-- A router asks all its brokers. -/
def refresh (c : Cluster s) (r : Fin s.routers) : Cluster s :=
  { c with routers := c.routers.set r ((c.routers.get r).refresh c.brokers) }

/-- A token is cancelled. -/
def cancel (c : Cluster s) (token : Fin s.tokens) : Cluster s :=
  { c with cancelled := c.cancelled.set token true }

/-- A broker is out of reach for a reason, or within reach. -/
def setOutage (c : Cluster s) (b : Fin s.brokers) (outage : Option Error) : Cluster s :=
  c.withBroker b { c.brokers.get b with outage := outage }

/-- Whether a time has come. -/
def reached (c : Cluster s) (deadline : Int) : Bool := decide (deadline ≤ c.now.toInt)

/-- The time a number of milliseconds from now. -/
def after (c : Cluster s) (duration : UInt64) : Int := c.now.toInt + duration.toNat

end Cluster

namespace Client

variable {s : Extent}

/-- The other processes. -/
def peers (client : Client s) : List ProcessId :=
  client.processes.filter fun p => p ≠ client.process

/-- Whether the calls of a client have been cancelled. -/
def isCancelled (client : Client s) (c : Cluster s) : Bool := c.cancelled.get client.token

/-- Looks for the broker of a process. -/
def route (client : Client s) (p : ProcessId) (c : Cluster s) :
    Outcome (Fin s.brokers) × Cluster s :=
  match c.route client.router p with
  | (some b, c) => (.ok b, c)
  | (none, c) => (fail (.unroutable p), c)

/-- Reads the clock of a client. -/
def reading (client : Client s) (c : Cluster s) : Outcome Int64 :=
  match Time.sum? c.now client.skew with
  | some time => .ok time
  | none => overflowed

/-- A broker as the peer whose clock a client compares with its own. -/
def peer (client : Client s) (b : Fin s.brokers) (c : Cluster s) : Peer (Cluster s) where
  name := (c.brokers.get b).endpoint
  reading c := (client.reading c, c)
  ask c := c.call b fun coordinator => (.ok (c.now, c.now), coordinator)
  pause time c := { c with now := c.now + Int64.ofNat time.toNat }

end Client

/-! ## Moves -/

/-- What becomes of a call when it moves on: it has to wait, it reaches another stage, or it
ends. -/
inductive Move (σ ρ : Type)
  | wait
  | next (stage : σ)
  | finish (outcome : Outcome ρ)

namespace Move

variable {σ τ ρ θ : Type}

/-- The same move with other stages and results. -/
def map (f : σ → τ) (g : ρ → θ) : Move σ ρ → Move τ θ
  | wait => .wait
  | next stage => .next (f stage)
  | finish outcome => .finish (outcome.map g)

end Move

end CriticalSection
