import CriticalSection.Log.Event

/-!
# Logs

A log is the list of the events written to a file, one a line. Logs of several processes are put
together by a stable sort on the times, so events of equal time keep the order in which they were
given.
-/

set_option autoImplicit false

namespace CriticalSection

/-- The events of a log, in the order of its lines. -/
abbrev Log := List Event

namespace Log

/-- **The text of a log**: each event on a line of its own. -/
def text (log : Log) : String :=
  String.join (log.map fun event => event.text ++ "\n")

/-- Reads the events on the lines from a number on. Blank lines are skipped, but counted. -/
def ofLines (number : Nat) : List (List Char) → Outcome Log
  | [] => .ok []
  | line :: rest =>
    if line.all Text.isBlank then ofLines (number + 1) rest
    else do
      let event ← Event.ofLine number line
      let events ← ofLines (number + 1) rest
      return event :: events

/-- **Reads a log.** Lines are counted from one; the first line that is no event is reported. -/
def ofText (text : String) : Outcome Log :=
  ofLines 1 (Text.lines text.toList)

/-- **Sorts events by time**, those of equal time staying in their order. -/
def sort (log : Log) : Log :=
  log.mergeSort fun a b => a.time ≤ b.time

/-- Moves every event by the same number of milliseconds. -/
def shift (log : Log) (step : Int64) : Outcome Log :=
  log.mapM fun event => event.shift step

end Log

end CriticalSection
