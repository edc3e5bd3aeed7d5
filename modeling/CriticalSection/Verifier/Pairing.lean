import Std.Data.TreeMap
import CriticalSection.Log.Text

/-!
# Pairing entries and exits

Every entry of a process is paired with the next exit of the same process. What finds no partner
is warned about: an entry while the process is already inside, an exit while it is outside, and an
entry that no exit follows. Records are named by their positions, counted from zero; lines are
counted from one.
-/

set_option autoImplicit false

namespace CriticalSection

/-- A record without a partner. -/
inductive Warning
  /-- A process entered again while inside since another line. -/
  | reentered (line : Nat) (process : ProcessId) (since : Nat)
  /-- A process left without having entered. -/
  | notEntered (line : Nat) (process : ProcessId)
  /-- A process entered and did not leave. -/
  | notLeft (line : Nat) (process : ProcessId)
  deriving DecidableEq, Repr

/-- The text of a warning. -/
def Warning.text : Warning → String
  | .reentered line process since =>
    "line " ++ toString line ++ ": " ++ process ++
      " entered again while already inside since line " ++ toString since
  | .notEntered line process =>
    "line " ++ toString line ++ ": " ++ process ++ " exited without a matching entry"
  | .notLeft line process =>
    "line " ++ toString line ++ ": " ++ process ++ " entered but never exited"

/-- What is known after some records of a log. -/
structure Pairing where
  /-- The partner of each record that has one. -/
  partner : Std.TreeMap Nat Nat
  /-- The processes that are inside, with the position of their entry. -/
  inside : Std.TreeMap ProcessId Nat
  /-- The warnings so far, the latest first. -/
  warnings : List Warning

namespace Pairing

/-- Nothing is known yet. -/
def start : Pairing := ⟨∅, ∅, []⟩

/-- Takes in the record at a position. -/
def step (p : Pairing) (event : Event) (position : Nat) : Pairing :=
  match event.kind, p.inside[event.process]? with
  | .enter, none => { p with inside := p.inside.insert event.process position }
  | .enter, some first =>
    { p with warnings := .reentered (position + 1) event.process (first + 1) :: p.warnings }
  | .exit, some entry =>
    { p with
      partner := (p.partner.insert entry position).insert position entry
      inside := p.inside.erase event.process }
  | .exit, none =>
    { p with warnings := .notEntered (position + 1) event.process :: p.warnings }

/-- **The pairing of a log.** -/
def ofLog (log : Log) : Pairing :=
  log.zipIdx.foldl (fun p (event, position) => p.step event position) start

/-- The warnings about a log: those met on the way in the order of their lines, then the entries
that no exit follows. -/
def allWarnings (p : Pairing) : List Warning :=
  let unpaired := p.inside.toList.mergeSort fun a b => a.2 ≤ b.2
  p.warnings.reverse ++ unpaired.map fun (process, entry) => .notLeft (entry + 1) process

end Pairing

end CriticalSection
