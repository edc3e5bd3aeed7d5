import CriticalSection.Files.Tree
import CriticalSection.Offset.Estimate
import CriticalSection.Decimal.Layout
import CriticalSection.Json.Reader
import CriticalSection.Json.Writer

/-!
# Estimate files

The estimate of a process is kept in a file of indented JSON, from which the verification takes
the margin of the process.
-/

set_option autoImplicit false

namespace CriticalSection

/-- How the numbers of an estimate are written and read. -/
structure NumberFormat (α : Type) where
  write : α → Json
  read? : Json → Option α

/-- Floating-point numbers are written with their shortest digits, and as null if they are not
finite. -/
def NumberFormat.float : NumberFormat Float where
  write x := match Layout.estimate.numeral? x with
    | some numeral => .number numeral
    | none => .null
  read? := Json.float?

/-- The estimate of a process. -/
structure ProcessEstimate (α : Type) where
  process : ProcessId
  estimate : Estimate α
  deriving DecidableEq, Repr

variable {α : Type}

/-- The record of a sample. -/
def Sample.json (format : NumberFormat α) (s : Sample α) : Json :=
  .ofFields [("delay", format.write s.delay), ("offset", format.write s.offset)]

/-- Reads the record of a sample. -/
def Sample.ofJson? (format : NumberFormat α) (j : Json) : Option (Sample α) :=
  match j.values? ["delay", "offset"] with
  | some [delay, offset] => do return ⟨← format.read? delay, ← format.read? offset⟩
  | _ => none

/-- The record of an estimate. -/
def Estimate.json (format : NumberFormat α) (e : Estimate α) : Json :=
  .ofFields [("reference", .ofString e.reference), ("best", e.best.json format),
    ("samples", .array (e.samples.map (Sample.json format)))]

/-- Reads the record of an estimate. -/
def Estimate.ofJson? (format : NumberFormat α) (j : Json) : Option (Estimate α) :=
  match j.values? ["reference", "best", "samples"] with
  | some [reference, best, samples] => do
    let reference ← reference.string?
    let best ← Sample.ofJson? format best
    let samples ← (← samples.items?).mapM (Sample.ofJson? format)
    return ⟨reference, best, samples⟩
  | _ => none

namespace ProcessEstimate

/-- The record of the estimate of a process. -/
def json (format : NumberFormat α) (e : ProcessEstimate α) : Json :=
  .ofFields [("process_id", .ofString e.process), ("estimate", e.estimate.json format)]

/-- Reads the record of the estimate of a process. -/
def ofJson? (format : NumberFormat α) (j : Json) : Option (ProcessEstimate α) :=
  match j.values? ["process_id", "estimate"] with
  | some [process, estimate] => do
    return ⟨← process.string?, ← Estimate.ofJson? format estimate⟩
  | _ => none

/-- **The text of an estimate.** -/
def text (format : NumberFormat α) (e : ProcessEstimate α) : String :=
  String.ofList ((e.json format).indented 0)

/-- **Reads the text of an estimate.** -/
def ofText (format : NumberFormat α) (text : String) : Outcome (ProcessEstimate α) :=
  match Json.read? text.toList with
  | none => fail (.codec "the text is no JSON value")
  | some j =>
    match ofJson? format j with
    | some e => .ok e
    | none => fail (.codec "the text is no estimate")

/-- Writes an estimate to a file. -/
def write (format : NumberFormat α) (files : FileTree) (path : String) (e : ProcessEstimate α) :
    Outcome FileTree :=
  Outcome.ofFile path (files.write path (e.text format).toUTF8)

/-- Reads the estimate in a file. -/
def read (format : NumberFormat α) (files : FileTree) (path : String) :
    Outcome (ProcessEstimate α) := do
  let text ← Outcome.ofFile path (files.readText path)
  ofText format text

end ProcessEstimate

end CriticalSection
