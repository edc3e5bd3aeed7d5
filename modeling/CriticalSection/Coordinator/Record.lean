import CriticalSection.Stamp
import CriticalSection.Clock

/-!
# Records

A coordinator keeps a record for each process it hosts: the logical clock of the process, whether
it wants to enter the critical section or is inside, and the requests of other processes that have
to wait until it leaves.
-/

set_option autoImplicit false

namespace CriticalSection

/-- Where a process stands towards the critical section. -/
inductive Standing
  | free
  | requested
  | acquired
  deriving DecidableEq, Repr

/-- The word for a standing. -/
def Standing.word : Standing → String
  | .free => "FREE"
  | .requested => "REQUESTED"
  | .acquired => "ACQUIRED"

/-- A request that waits, and the number of the ticket its caller holds. -/
structure Waiting where
  ticket : Nat
  request : Stamp
  deriving DecidableEq, Repr

/-- What a coordinator knows of a process. -/
structure Record where
  clock : Clock
  standing : Standing
  /-- The time of the latest request of the process itself, zero if there was none. -/
  announced : UInt64
  /-- The requests that wait for the process, in the order in which they came. -/
  queue : List Waiting
  deriving DecidableEq, Repr

namespace Record

/-- The record of a process that has just subscribed. -/
def fresh : Record := ⟨Clock.initial, .free, 0, []⟩

/-- **Whether a request has to wait**: always while the process is inside, and while it wants to
enter unless the request precedes its own. -/
def defers (r : Record) (owner : ProcessId) (request : Stamp) : Bool :=
  match r.standing with
  | .acquired => true
  | .requested => !request.precedes ⟨r.announced, owner⟩
  | .free => false

/-- The process announces that it wants to enter, and gets the time of its request. -/
def announce (r : Record) : Outcome UInt64 × Record :=
  match r.clock.tick with
  | (.ok time, clock) =>
    (.ok time, { r with clock := clock, standing := .requested, announced := time })
  | (.error fault, clock) => (.error fault, { r with clock := clock })

/-- The process hears of a request. -/
def hear (r : Record) (request : Stamp) : Record :=
  { r with clock := r.clock.observe request.time }

/-- A request joins those that wait. -/
def park (r : Record) (waiting : Waiting) : Record :=
  { r with queue := r.queue ++ [waiting] }

/-- The process goes inside. -/
def enter (r : Record) : Record := { r with standing := .acquired }

/-- The process leaves, or gives up its own request, and nobody waits for it any longer. -/
def leave (r : Record) : Outcome Unit × Record :=
  match r.clock.tick with
  | (.ok _, clock) => (.ok (), { r with clock := clock, standing := .free, queue := [] })
  | (.error fault, clock) => (.error fault, { r with clock := clock })

/-- The caller with a ticket has hung up. -/
def drop (r : Record) (ticket : Nat) : Record :=
  { r with queue := r.queue.filter fun waiting => waiting.ticket ≠ ticket }

/-- The tickets of the requests that wait. -/
def tickets (r : Record) : List Nat := r.queue.map Waiting.ticket

end Record

end CriticalSection
