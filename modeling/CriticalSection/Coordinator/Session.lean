import CriticalSection.Coordinator.Operation

/-!
# Sessions

A session is a coordinator together with the calls that are in progress at it, in the order in
which they were made. A call stays until its outcome is collected or its caller hangs up.
-/

set_option autoImplicit false

namespace CriticalSection

/-- What has become of a call: its outcome, if the wait has ended or there was none. -/
def Coordinator.progress (c : Coordinator) : Reaction Value → Option (Outcome Value)
  | .answered outcome => some outcome
  | .parked ticket => (c.outcome? ticket).map fun outcome => outcome.map fun _ => .done

/-- A coordinator and the calls in progress. -/
structure Session where
  coordinator : Coordinator
  calls : List (String × Reaction Value)

namespace Session

/-- A session in which no call has been made. -/
def new (expected : UInt64) : Session := ⟨.new expected, []⟩

/-- A call is made. -/
def call (s : Session) (name : String) (now : Int64) (operation : Operation) : Session :=
  let (reaction, coordinator) := s.coordinator.perform now operation
  ⟨coordinator, s.calls ++ [(name, reaction)]⟩

/-- The outcomes of the calls whose wait has ended, and the session without them. -/
def collect (s : Session) : List (String × Outcome Value) × Session :=
  let progress := s.coordinator.progress
  (s.calls.filterMap fun (name, reaction) => (progress reaction).map fun outcome => (name, outcome),
    { s with calls := s.calls.filter fun (_, reaction) => (progress reaction).isNone })

/-- The caller of a call hangs up; tells whether the call was in progress. -/
def hangUp (s : Session) (name : String) : Bool × Session :=
  match s.calls.find? fun (other, _) => other = name with
  | none => (false, s)
  | some (_, reaction) =>
    let coordinator := match reaction with
      | .answered _ => s.coordinator
      | .parked ticket => s.coordinator.hangUp ticket
    (true, ⟨coordinator, s.calls.eraseP fun (other, _) => other = name⟩)

end Session

end CriticalSection
