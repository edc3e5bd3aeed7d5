import CriticalSection.Clock
import CriticalSection.Text.Lines
import CriticalSection.Text.Integer

/-!
# Events of the critical section

A process notes when it enters and when it leaves the critical section. Such an event is written
as a line of three words, the process, a letter for the kind and the time in milliseconds:
`P1 E 1700000000123`.
-/

set_option autoImplicit false

namespace CriticalSection

/-- What a process did: it entered the critical section or left it. -/
inductive EventKind
  | enter
  | exit
  deriving DecidableEq, Repr

namespace EventKind

/-- The letter for a kind. -/
def letter : EventKind → String
  | enter => "E"
  | exit => "S"

/-- The kind a word stands for. -/
def ofWord? (word : String) : Option EventKind :=
  if word = "E" then some enter else if word = "S" then some exit else none

end EventKind

/-- A process entering or leaving the critical section at a time on its clock. -/
structure Event where
  process : ProcessId
  kind : EventKind
  time : Int64
  deriving DecidableEq, Repr

namespace Event

/-- **The line of an event.** -/
def text (e : Event) : String :=
  e.process ++ " " ++ e.kind.letter ++ " " ++ toString e.time.toInt

/-- Reads an event from the three words of a line; what is wrong is told in words. -/
def ofWords (process kind time : String) : Except String Event :=
  match EventKind.ofWord? kind with
  | none => .error ("unknown event kind '" ++ kind ++ "'")
  | some kind =>
    match Text.readInt64 time.toList with
    | .error defect => .error ("bad time '" ++ time ++ "': " ++ defect.message)
    | .ok time => .ok ⟨process, kind, time⟩

/-- **Reads the event on a line.** The number of the line only serves to report it. -/
def ofLine (number : Nat) (line : List Char) : Outcome Event :=
  match Text.words line with
  | [process, kind, time] =>
    match ofWords (String.ofList process) (String.ofList kind) (String.ofList time) with
    | .ok event => .ok event
    | .error reason => fail (.logFormat number reason)
  | _ =>
    fail (.logFormat number
      ("expected '<process> <E|S> <time>', got '" ++ String.ofList line ++ "'"))

/-- The event at a time moved by a number of milliseconds. -/
def shift (e : Event) (step : Int64) : Outcome Event :=
  match Time.sum? e.time step with
  | some time => .ok { e with time := time }
  | none => overflowed

end Event

end CriticalSection
