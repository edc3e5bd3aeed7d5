import CriticalSection.Wire.Line

/-!
# Endpoints

An endpoint is the address of a coordinator in another program. Each call opens a connection, sends
the line of its operation and takes the first line that comes back for the reply.
-/

set_option autoImplicit false

namespace CriticalSection

/-- What comes of a connection over which an operation is sent. -/
inductive Delivery
  /-- It could not be opened, or it broke. -/
  | broken (cause : SystemFailure)
  /-- The bytes that came back up to the first line feed, or up to the end. -/
  | answered (bytes : ByteArray)

/-- The address of a coordinator. -/
structure Endpoint where
  address : String
  deriving DecidableEq, Repr

namespace Endpoint

/-- The error of a call whose connection fails. -/
def unreachable (e : Endpoint) (cause : SystemFailure) : Error :=
  .peerUnreachable e.address cause

/-- **The outcome of a call**, from what came of its connection. -/
def receive (e : Endpoint) (operation : Operation) : Delivery → Outcome Value
  | .broken cause => fail (e.unreachable cause)
  | .answered bytes =>
    if bytes.isEmpty then fail (e.unreachable .unexpectedEof)
    else match String.fromUTF8? bytes with
      | none => fail (e.unreachable .invalidData)
      | some line =>
        match Wire.readReply line with
        | .error fault => .error fault
        | .ok reply => operation.receive reply

/-- What a coordinator sends when an operation has come to an outcome: the line of its reply, or
nothing if a computation has left its range. -/
def delivery (outcome : Outcome Value) : Delivery :=
  match Reply.ofOutcome outcome with
  | .ok reply => .answered (Wire.replyLine reply).toUTF8
  | .error _ => .answered .empty

/-- **A call to a coordinator over a connection that delivers all lines intact**: how the
coordinator reacts to the operation it reads. A parked call is answered when its wait has ended;
`conclude` gives its outcome then. -/
def call (e : Endpoint) (operation : Operation) (now : Int64) (c : Coordinator) :
    Reaction Value × Coordinator :=
  match Wire.readOperation (Wire.operationLine operation) with
  | .error fault => (.answered (e.receive operation (delivery (.error fault))), c)
  | .ok received =>
    match c.perform now received with
    | (.answered outcome, c) => (.answered (e.receive operation (delivery outcome)), c)
    | (.parked ticket, c) => (.parked ticket, c)

/-- The outcome of a call that was parked, as its caller sees it, when the wait has ended. -/
def conclude (e : Endpoint) (operation : Operation) (outcome : Outcome Unit) : Outcome Value :=
  e.receive operation (delivery (outcome.map fun _ => .done))

end Endpoint

end CriticalSection
