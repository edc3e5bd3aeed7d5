import CriticalSection.Wire.Reply
import CriticalSection.Json.Reader
import CriticalSection.Json.Writer

/-!
# Messages

Operations and replies as JSON records, which name their kind in the field `op` or `reply`.
-/

set_option autoImplicit false

namespace CriticalSection

/-- A record that names its kind in a field. -/
def Json.ofTagged (tag kind : String) (fields : List (String × Json)) : Json :=
  .ofFields ((tag, .ofString kind) :: fields)

namespace Stamp

/-- The record of a request. -/
def json (s : Stamp) : Json :=
  .ofFields [("requester_id", .ofString s.process),
    ("requester_timestamp", .ofInt s.time.toNat)]

/-- Reads the record of a request. -/
def ofJson? (j : Json) : Option Stamp :=
  match j.values? ["requester_id", "requester_timestamp"] with
  | some [process, time] => do return ⟨← time.word?, ← process.string?⟩
  | _ => none

end Stamp

namespace Operation

/-- **The record of an operation.** -/
def json : Operation → Json
  | .subscribe p => .ofTagged "op" "subscribe" [("process_id", .ofString p)]
  | .listSubscribed => .ofTagged "op" "subscribed_list" []
  | .announce p => .ofTagged "op" "set_requested" [("process_id", .ofString p)]
  | .request owner stamp =>
    .ofTagged "op" "request" [("owner_id", .ofString owner), ("request", stamp.json)]
  | .enter p => .ofTagged "op" "set_acquired" [("process_id", .ofString p)]
  | .leave p => .ofTagged "op" "release" [("process_id", .ofString p)]
  | .ready owner caller =>
    .ofTagged "op" "ready" [("owner_id", .ofString owner), ("caller_id", .ofString caller)]
  | .finished owner caller =>
    .ofTagged "op" "finished" [("owner_id", .ofString owner), ("caller_id", .ofString caller)]
  | .restart expected => .ofTagged "op" "restart" [("expected_nodes", .ofInt expected.toNat)]
  | .health => .ofTagged "op" "status" []
  | .readClock => .ofTagged "op" "time_pair" []

/-- Reads an operation on one process. -/
def ofProcess? (make : ProcessId → Operation) (content : Json.Content) : Option Operation :=
  match content.values? ["process_id"] with
  | some [p] => p.string?.map make
  | _ => none

/-- Reads an arrival at a barrier. -/
def ofArrival? (make : ProcessId → ProcessId → Operation) (content : Json.Content) :
    Option Operation :=
  match content.values? ["owner_id", "caller_id"] with
  | some [owner, caller] => do return make (← owner.string?) (← caller.string?)
  | _ => none

/-- Reads an operation without fields. -/
def ofNothing? (operation : Operation) (content : Json.Content) : Option Operation :=
  (content.values? []).map fun _ => operation

/-- Reads an operation of a kind. -/
def ofContent? (kind : String) (content : Json.Content) : Option Operation :=
  match kind with
  | "subscribe" => ofProcess? .subscribe content
  | "subscribed_list" => ofNothing? .listSubscribed content
  | "set_requested" => ofProcess? .announce content
  | "request" =>
    match content.values? ["owner_id", "request"] with
    | some [owner, stamp] => do return .request (← owner.string?) (← Stamp.ofJson? stamp)
    | _ => none
  | "set_acquired" => ofProcess? .enter content
  | "release" => ofProcess? .leave content
  | "ready" => ofArrival? .ready content
  | "finished" => ofArrival? .finished content
  | "restart" =>
    match content.values? ["expected_nodes"] with
    | some [expected] => expected.word?.map .restart
    | _ => none
  | "status" => ofNothing? .health content
  | "time_pair" => ofNothing? .readClock content
  | _ => none

/-- **Reads the record of an operation.** -/
def ofJson? (j : Json) : Option Operation := do
  let (kind, content) ← j.tagged? "op"
  ofContent? kind content

end Operation

namespace Reply

/-- **The record of a reply.** -/
def json : Reply → Json
  | .value .done => .ofTagged "reply" "done" []
  | .value (.time time) => .ofTagged "reply" "timestamp" [("timestamp", .ofInt time.toNat)]
  | .value (.subscribed processes) =>
    .ofTagged "reply" "subscribed"
      [("process_ids", .array (processes.toList.map .ofString))]
  | .value (.health text) => .ofTagged "reply" "health" [("status", .ofString text)]
  | .value (.readings received answered) =>
    .ofTagged "reply" "time_pair" [("t1", .ofInt received.toInt), ("t2", .ofInt answered.toInt)]
  | .nodeNotFound p => .ofTagged "reply" "node_not_found" [("process_id", .ofString p)]
  | .failed message => .ofTagged "reply" "failed" [("message", .ofString message)]

/-- Reads a reply with one text. -/
def ofText? (field : String) (make : String → Reply) (content : Json.Content) : Option Reply :=
  match content.values? [field] with
  | some [text] => text.string?.map make
  | _ => none

/-- Reads a reply of a kind. -/
def ofContent? (kind : String) (content : Json.Content) : Option Reply :=
  match kind with
  | "done" => (content.values? []).map fun _ => .value .done
  | "timestamp" =>
    match content.values? ["timestamp"] with
    | some [time] => time.word?.map fun time => .value (.time time)
    | _ => none
  | "subscribed" =>
    match content.values? ["process_ids"] with
    | some [processes] => do
      let processes ← (← processes.items?).mapM Json.string?
      return .value (.subscribed (ProcessSet.ofList processes))
    | _ => none
  | "health" => ofText? "status" (fun text => .value (.health text)) content
  | "time_pair" =>
    match content.values? ["t1", "t2"] with
    | some [received, answered] => do
      return .value (.readings (← received.int64?) (← answered.int64?))
    | _ => none
  | "node_not_found" => ofText? "process_id" .nodeNotFound content
  | "failed" => ofText? "message" .failed content
  | _ => none

/-- **Reads the record of a reply.** -/
def ofJson? (j : Json) : Option Reply := do
  let (kind, content) ← j.tagged? "reply"
  ofContent? kind content

end Reply

end CriticalSection
