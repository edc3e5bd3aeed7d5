import CriticalSection.Wire.Line
import CriticalSection.Coordinator.Session

/-!
# Connections

A coordinator answers the lines of a connection one after another. While an operation runs, the
connection is watched: one further line is read and put aside, and if there is none because the
caller has hung up, the operation is given up. Once a line has been put aside nothing more is read,
so that hanging up goes unnoticed until the operation has been answered.
-/

set_option autoImplicit false

namespace CriticalSection

/-- What is read from a connection: a line, or bytes that are no text. -/
inductive Incoming
  | line (text : String)
  | garbage
  deriving DecidableEq, Repr

/-- How far the operation of a connection has come. -/
inductive Work
  /-- No operation has been read. -/
  | idle
  /-- An operation has been read and is about to be performed. -/
  | ready (operation : Operation)
  | parked (ticket : Ticket)
  /-- Nothing more is read or answered. -/
  | ended
  deriving DecidableEq

/-- A connection as the coordinator's side sees it. -/
structure Connection where
  /-- What has arrived and was not read yet. -/
  arrived : List Incoming
  /-- Whether the caller has hung up: nothing more will arrive. -/
  closed : Bool
  /-- A line that was read while an operation ran. -/
  aside : Option String
  work : Work
  /-- The lines that were sent back, the latest last. -/
  sent : List String

namespace Connection

/-- A connection that was just opened. -/
def new : Connection := ⟨[], false, none, .idle, []⟩

/-! ## The caller's side -/

/-- Something arrives, unless the caller has hung up before. -/
def arrive (x : Connection) (incoming : Incoming) : Connection :=
  if x.closed then x else { x with arrived := x.arrived ++ [incoming] }

/-- The caller hangs up. -/
def close (x : Connection) : Connection := { x with closed := true }

/-! ## The coordinator's side -/

/-- A reply is sent, and the connection is ready for the next line. -/
def reply (x : Connection) (r : Reply) : Connection :=
  { x with work := .idle, sent := x.sent ++ [Wire.replyLine r] }

/-- The reply to an operation is sent. A computation that has left its range ends the
connection. -/
def answer (x : Connection) (outcome : Outcome Value) : Connection :=
  match Reply.ofOutcome outcome with
  | .ok r => x.reply r
  | .error _ => { x with work := .ended }

/-- A line is taken up: a blank line is passed over, and one that is no operation is answered at
once. -/
def takeUp (x : Connection) (text : String) : Connection :=
  if (Text.trim text.toList).isEmpty then x
  else match Wire.readOperation text with
    | .ok operation => { x with work := .ready operation }
    | .error (.error cause) => x.reply (.ofError cause)
    | .error .overflow => { x with work := .ended }

/-- The next line is read, when no operation runs. -/
def next (x : Connection) : Option Connection :=
  match x.aside, x.arrived with
  | some text, _ => some ({ x with aside := none }.takeUp text)
  | none, .line text :: rest => some ({ x with arrived := rest }.takeUp text)
  | none, .garbage :: rest => some { x with arrived := rest, work := .ended }
  | none, [] => if x.closed then some { x with work := .ended } else none

/-- The operation moves on, if it can. -/
def proceed (x : Connection) (now : Int64) (c : Coordinator) : Option (Connection × Coordinator) :=
  match x.work with
  | .ready operation =>
    match c.perform now operation with
    | (.answered outcome, c) => some (x.answer outcome, c)
    | (.parked ticket, c) => some ({ x with work := .parked ticket }, c)
  | .parked ticket =>
    (c.outcome? ticket).map fun outcome => (x.answer (outcome.map fun _ => .done), c)
  | _ => none

/-- The operation is given up. -/
def giveUp (x : Connection) (c : Coordinator) : Connection × Coordinator :=
  ({ x with work := .ended },
    match x.work with
    | .parked ticket => c.hangUp ticket
    | _ => c)

/-- The connection is watched while an operation runs, unless a line has been put aside. -/
def watch (x : Connection) (c : Coordinator) : Option (Connection × Coordinator) :=
  match x.aside, x.arrived with
  | some _, _ => none
  | none, .line text :: rest => some ({ x with arrived := rest, aside := some text }, c)
  | none, .garbage :: rest => some ({ x with arrived := rest }.giveUp c)
  | none, [] => if x.closed then some (x.giveUp c) else none

/-- **A move of the coordinator's side**; `watching` decides between watching and proceeding, both
of which may be possible while an operation runs. -/
def step (watching : Bool) (now : Int64) (x : Connection) (c : Coordinator) :
    Option (Connection × Coordinator) :=
  match x.work with
  | .ended => none
  | .idle => x.next.map fun x => (x, c)
  | .ready _ | .parked _ => if watching then x.watch c else x.proceed now c

end Connection

end CriticalSection
