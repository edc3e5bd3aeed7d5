import CriticalSection.Error

/-!
# Barriers

Before a round begins and after it has ended every process waits for the others. Each process has
two barriers for that. A barrier opens once as many different processes as are expected have
arrived; it lets everybody through who waits there and closes again for the next round.
-/

set_option autoImplicit false

namespace CriticalSection

/-- What a barrier is for: to line up before a round or after it. -/
inductive Phase
  | ready
  | finished
  deriving DecidableEq, Repr

/-- The word for a phase. -/
def Phase.word : Phase → String
  | .ready => "ready"
  | .finished => "finished"

/-- The arrivals at a barrier since it last opened. -/
structure Barrier where
  /-- The processes that have arrived, each once. -/
  arrived : List ProcessId
  /-- The tickets of the callers that wait. -/
  waiting : List Nat
  deriving DecidableEq, Repr

namespace Barrier

/-- A barrier nobody has arrived at. -/
def closed : Barrier := ⟨[], []⟩

/-- A caller arrives and waits with a ticket. -/
def arrive (b : Barrier) (caller : ProcessId) (ticket : Nat) : Barrier :=
  ⟨b.arrived.insert caller, b.waiting ++ [ticket]⟩

/-- **Whether a barrier opens.** -/
def opens (b : Barrier) (expected : UInt64) : Bool :=
  expected.toNat ≤ b.arrived.length

/-- The caller with a ticket has hung up. Its process still counts as arrived. -/
def drop (b : Barrier) (ticket : Nat) : Barrier :=
  { b with waiting := b.waiting.filter fun number => number ≠ ticket }

end Barrier

end CriticalSection
