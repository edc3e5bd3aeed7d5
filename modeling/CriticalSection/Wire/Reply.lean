import CriticalSection.Coordinator.Operation
import CriticalSection.Text.Quoted

/-!
# Replies

What a coordinator sends back: the value of an operation, or a failure. Of all failures only the
one that names an unknown process keeps its kind; of the others the text is sent.
-/

set_option autoImplicit false

namespace CriticalSection

/-- The answer to an operation that was sent over a connection. -/
inductive Reply
  | value (value : Value)
  | nodeNotFound (process : ProcessId)
  | failed (message : String)
  deriving DecidableEq

namespace Reply

/-- **The reply that tells of an error.** -/
def ofError : Error → Reply
  | .nodeNotFound p => .nodeNotFound p
  | e => .failed e.message

/-- The reply to an operation with an outcome. A computation that left its range has no reply. -/
def ofOutcome : Outcome Value → Outcome Reply
  | .ok v => .ok (.value v)
  | .error (.error e) => .ok (.ofError e)
  | .error .overflow => overflowed

/-- **The outcome a reply tells of**, as it is seen by the caller. -/
def outcome : Reply → Outcome Value
  | .value v => .ok v
  | .nodeNotFound p => fail (.nodeNotFound p)
  | .failed message => fail (.remote message)

/-- A field of a reply, as it is shown in messages. -/
def shown (kind field content : String) : String :=
  kind ++ " \x7b " ++ field ++ ": " ++ content ++ " \x7d"

/-- A reply as it is shown in messages. -/
def description : Reply → String
  | .value .done => "Done"
  | .value (.time time) => shown "Timestamp" "timestamp" (toString time.toNat)
  | .value (.subscribed processes) =>
    shown "Subscribed" "process_ids"
      ("\x7b" ++ String.intercalate ", " (processes.toList.map Text.quoted) ++ "\x7d")
  | .value (.health text) => shown "Health" "status" (Text.quoted text)
  | .value (.readings received answered) =>
    shown "TimePair" "t1" (toString received.toInt ++ ", t2: " ++ toString answered.toInt)
  | .nodeNotFound p => shown "NodeNotFound" "process_id" (Text.quoted p)
  | .failed message => shown "Failed" "message" (Text.quoted message)

end Reply

namespace Operation

/-- Whether a value is of the kind an operation gives. -/
def gives : Operation → Value → Bool
  | .listSubscribed, .subscribed _ => true
  | .announce _, .time _ => true
  | .health, .health _ => true
  | .readClock, .readings .. => true
  | .subscribe _, .done | .request .., .done | .enter _, .done | .leave _, .done
  | .ready .., .done | .finished .., .done | .restart _, .done => true
  | _, _ => false

/-- **What the caller of an operation makes of a reply.** A value of another kind than the
operation gives is a failure of the other side. -/
def receive (operation : Operation) (reply : Reply) : Outcome Value :=
  match reply.outcome with
  | .ok value =>
    if operation.gives value then .ok value
    else fail (.remote ("unexpected reply " ++ reply.description))
  | .error fault => .error fault

end Operation

end CriticalSection
