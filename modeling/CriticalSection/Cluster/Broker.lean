import CriticalSection.Coordinator.Operation

/-!
# Brokers

A broker is a coordinator as its callers see it: it has a name, and it can be out of reach, so
that every call to it fails at once.
-/

set_option autoImplicit false

namespace CriticalSection

/-- A coordinator with a name. -/
structure Broker where
  endpoint : String
  coordinator : Coordinator
  /-- Why every call fails, while the broker is out of reach. -/
  outage : Option Error

namespace Broker

/-- The name of a broker in this program. -/
def localEndpoint (name : String) : String := "local://" ++ name

/-- A call that is answered at once. -/
def call {α : Type} (b : Broker) (f : Coordinator → Outcome α × Coordinator) :
    Outcome α × Broker :=
  match b.outage with
  | some e => (fail e, b)
  | none => ((f b.coordinator).1, { b with coordinator := (f b.coordinator).2 })

/-- A call that may have to wait. -/
def request (b : Broker) (f : Coordinator → Reaction Unit × Coordinator) :
    Reaction Unit × Broker :=
  match b.outage with
  | some e => (.answered (fail e), b)
  | none => ((f b.coordinator).1, { b with coordinator := (f b.coordinator).2 })

/-- The processes a broker lists, if it answers. -/
def listing? (b : Broker) : Option (List ProcessId) :=
  match b.outage with
  | some _ => none
  | none => some b.coordinator.records.keys

end Broker

end CriticalSection
