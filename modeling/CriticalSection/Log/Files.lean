import CriticalSection.Files.Tree
import CriticalSection.Log.Text
import CriticalSection.Quantity

/-!
# Logs in files

Logs are read from files, written to files, put together from several files, and moved in time
where they stand. Moving a log leaves its file as it is unless every event can be moved.
-/

set_option autoImplicit false

namespace CriticalSection

namespace Log

/-- Reads the log in a file. -/
def read (files : FileTree) (path : String) : Outcome Log := do
  let text ← Outcome.ofFile path (files.readText path)
  ofText text

/-- Writes a log to a file. -/
def write (files : FileTree) (path : String) (log : Log) : Outcome FileTree :=
  Outcome.ofFile path (files.write path log.text.toUTF8)

/-- **Puts the logs in some files together**, in the order of time; events of equal time stay in
the order of the files and of their lines. -/
def merge (files : FileTree) (paths : List String) : Outcome Log := do
  let logs ← paths.mapM (read files)
  return sort logs.flatten

/-- **Moves the log in a file** by a quantity of milliseconds, rounded to a whole number, and tells
how many events it has. -/
def adjust {α : Type} [Quantity α] (files : FileTree) (path : String) (offset : α) :
    Outcome (Nat × FileTree) := do
  let log ← read files path
  let moved ← log.shift (Quantity.round offset)
  let files ← write files path moved
  return (moved.length, files)

end Log

/-! ## Writers -/

/-- What a process writes its events with: the file, and the position behind the last byte it has
written. -/
structure LogWriter where
  location : Location
  process : ProcessId
  position : Nat
  deriving DecidableEq, Repr

namespace LogWriter

/-- A writer on a new file, or on a file that loses its content. -/
def create (files : FileTree) (path : String) (process : ProcessId) :
    Outcome (LogWriter × FileTree) := do
  let location ← Outcome.ofFile path (files.writable path)
  return (⟨location, process, 0⟩, files.put location (.file .empty))

/-- Writes an event of the process. -/
def record (w : LogWriter) (files : FileTree) (kind : EventKind) (time : Int64) :
    LogWriter × FileTree :=
  let line := ((⟨w.process, kind, time⟩ : Event).text ++ "\n").toUTF8
  ({ w with position := w.position + line.size }, files.writeAt w.location w.position line)

end LogWriter

end CriticalSection
