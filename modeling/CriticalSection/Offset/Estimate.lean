import CriticalSection.Offset.Sample

/-!
# Estimating a clock offset

An estimate is made from a fixed number of exchanges with one peer, the best of which counts. An
exchange that fails is tried again after a pause, up to a number of failures in a row; the local
clock is read anew at each attempt. How a clock is read and a peer is asked is left open, so the
same procedure runs on a prepared list of answers and on a whole cluster.
-/

set_option autoImplicit false

namespace CriticalSection

/-- An estimated clock offset: the peer it was measured against, the best sample and all of
them. -/
structure Estimate (α : Type) where
  reference : String
  best : Sample α
  samples : List (Sample α)
  deriving DecidableEq, Repr

namespace Estimate

variable {α : Type} [Quantity α]

/-- The milliseconds to add to a local time to express it on the reference clock. -/
def offset (e : Estimate α) : α := e.best.offset

/-- By how much the offset can be wrong. -/
def margin (e : Estimate α) : α := e.best.margin

end Estimate

/-- A peer that is asked for its time, in surroundings of type `σ`. -/
structure Peer (σ : Type) where
  /-- The name of the peer. -/
  name : String
  /-- Reads the local clock. -/
  reading : σ → Outcome Int64 × σ
  /-- Asks the peer: its clock when the question came and when the answer left. -/
  ask : σ → Outcome (Int64 × Int64) × σ
  /-- Waits a number of milliseconds. -/
  pause : UInt64 → σ → σ

/-- A time server, which is asked for whole samples, in surroundings of type `σ`. -/
structure TimeServer (α σ : Type) where
  /-- The name of the server. -/
  name : String
  /-- Asks the server. -/
  query : σ → Outcome (Sample α) × σ
  /-- Waits a number of milliseconds. -/
  pause : UInt64 → σ → σ

/-- How an estimate is made. -/
structure Sampling where
  /-- The number of exchanges. -/
  samples : Nat
  /-- How many failures in a row end the attempt. -/
  attempts : UInt32
  /-- The pause after a failure, in milliseconds. -/
  pause : UInt64
  deriving DecidableEq, Repr

namespace Sampling

/-- Ten exchanges, and five attempts at each with pauses of 50 milliseconds. -/
def standard : Sampling := ⟨10, 5, 50⟩

/-- With a number of exchanges, at least one. -/
def withSamples (s : Sampling) (samples : Nat) : Sampling := { s with samples := max samples 1 }

/-- With a number of attempts, at least one, and a pause. -/
def withRetries (s : Sampling) (attempts : UInt32) (pause : UInt64) : Sampling :=
  { s with attempts := if attempts = 0 then 1 else attempts, pause := pause }

variable {α σ : Type}

/-! ## Trying again -/

/-- **Tries something until it succeeds**, with a pause after each failure; after up to `failures`
more failures it is given up. -/
def retry (s : Sampling) (operation : String) (pause : UInt64 → σ → σ)
    (attempt : σ → Outcome α × σ) : Nat → σ → Outcome α × σ
  | failures, surroundings =>
    match attempt surroundings with
    | (.ok value, surroundings) => (.ok value, surroundings)
    | (.error .overflow, surroundings) => (overflowed, surroundings)
    | (.error (.error _), surroundings) =>
      match failures with
      | 0 => (fail (.maxRetriesExceeded operation s.attempts), surroundings)
      | failures + 1 => retry s operation pause attempt failures (pause s.pause surroundings)

/-- Does something a number of times. -/
def repeated (once : σ → Outcome α × σ) : Nat → σ → Outcome (List α) × σ
  | 0, surroundings => (.ok [], surroundings)
  | count + 1, surroundings =>
    match once surroundings with
    | (.error fault, surroundings) => (.error fault, surroundings)
    | (.ok value, surroundings) =>
      match repeated once count surroundings with
      | (.error fault, surroundings) => (.error fault, surroundings)
      | (.ok values, surroundings) => (.ok (value :: values), surroundings)

/-! ## Estimates -/

variable [Quantity α]

/-- The estimate from some samples. -/
def summarize (reference : String) (samples : List (Sample α)) : Outcome (Estimate α) :=
  match Sample.best? samples with
  | some best => .ok ⟨reference, best, samples⟩
  | none => fail (.maxRetriesExceeded ("sampling " ++ reference) 0)

/-- One exchange with a peer. -/
def exchange (peer : Peer σ) (surroundings : σ) : Outcome (Sample α) × σ :=
  match peer.reading surroundings with
  | (.error fault, surroundings) => (.error fault, surroundings)
  | (.ok sent, surroundings) =>
    match peer.ask surroundings with
    | (.error fault, surroundings) => (.error fault, surroundings)
    | (.ok (received, answered), surroundings) =>
      match peer.reading surroundings with
      | (.error fault, surroundings) => (.error fault, surroundings)
      | (.ok returned, surroundings) =>
        (Sample.ofExchange ⟨sent, received, answered, returned⟩, surroundings)

/-- An exchange with a peer, tried again when it fails. -/
def sample (s : Sampling) (peer : Peer σ) : σ → Outcome (Sample α) × σ :=
  s.retry ("time_pair from " ++ peer.name) peer.pause (exchange peer) (s.attempts.toNat - 1)

/-- **Estimates the offset of the local clock** against a peer. -/
def estimate (s : Sampling) (peer : Peer σ) (surroundings : σ) : Outcome (Estimate α) × σ :=
  match repeated (s.sample peer) s.samples surroundings with
  | (.error fault, surroundings) => (.error fault, surroundings)
  | (.ok samples, surroundings) => (summarize peer.name samples, surroundings)

/-- A query to a time server, tried again when it fails. -/
def query (s : Sampling) (server : TimeServer α σ) : σ → Outcome (Sample α) × σ :=
  s.retry ("sntp query to " ++ server.name) server.pause server.query (s.attempts.toNat - 1)

/-- **Estimates the offset of the local clock** against a time server. -/
def estimateByServer (s : Sampling) (server : TimeServer α σ) (surroundings : σ) :
    Outcome (Estimate α) × σ :=
  match repeated (s.query server) s.samples surroundings with
  | (.error fault, surroundings) => (.error fault, surroundings)
  | (.ok samples, surroundings) => (summarize ("sntp://" ++ server.name) samples, surroundings)

end Sampling

end CriticalSection
