import Std.Data.HashSet
import CriticalSection.Verifier.Overlap

/-!
# Verification

A log of all processes in the order of time is searched for overlaps. Every interval that has an
exit is a window; the records of other processes inside it are judged, and each pair of intervals
only where it is met first. The report lists the overlaps in the order in which they are found and
the records that could not be paired.
-/

set_option autoImplicit false

namespace CriticalSection

/-- What the verification of a log has found. -/
structure Report (α : Type) where
  /-- The number of records. -/
  events : Nat
  overlaps : List (Overlap α)
  warnings : List Warning
  deriving DecidableEq, Repr

namespace Report

variable {α : Type}

/-- The number of overlaps that are genuine. -/
def violations (r : Report α) : Nat := (r.overlaps.filter (·.genuine)).length

/-- The number of overlaps that the margins excuse. -/
def dissolved (r : Report α) : Nat := r.overlaps.length - r.violations

/-- Whether no overlap is genuine. -/
def clean (r : Report α) : Bool := r.violations = 0

/-- **The text of a report**, with a way of writing margins. -/
def text (writeMargin : α → String) (r : Report α) : String :=
  String.join (r.overlaps.map fun o => o.text writeMargin ++ "\n") ++
    String.join (r.warnings.map fun w => "warning: " ++ w.text ++ "\n") ++
    toString r.events ++ " events checked, " ++ toString r.dissolved ++
    " overlaps dissolved by clock skew, " ++ toString r.violations ++ " violations"

end Report

namespace Verifier

variable {α : Type} [Quantity α]

/-- The position that names the interval of a record: that of its entry, or its own if the record
is an exit without an entry. -/
def interval (p : Pairing) (record : Event) (position : Nat) : Nat :=
  match record.kind with
  | .enter => position
  | .exit => (p.partner[position]?).getD position

/-- The smaller and the larger of two positions. -/
def ordered (i j : Nat) : Nat × Nat := (min i j, max i j)

/-- What has been judged so far, and the overlaps that were found, the latest first. -/
structure Progress (α : Type) where
  judged : Std.HashSet (Nat × Nat)
  overlaps : List (Overlap α)

/-- Looks at the record at a position inside a window. -/
def look (margins : Margins α) (log : Array Event) (p : Pairing) (w : Window)
    (progress : Progress α) (position : Nat) : Progress α :=
  match log[position]? with
  | none => progress
  | some record =>
    if record.process = w.enter.process then progress
    else
      let pair := ordered w.first (interval p record position)
      if progress.judged.contains pair then progress
      else
        let other := (p.partner[position]?).bind fun i => (log[i]?).map fun event => (i, event)
        ⟨progress.judged.insert pair, w.judge margins position record other :: progress.overlaps⟩

/-- The window that opens at a position, if an exit is paired with an entry there. -/
def window? (log : Array Event) (p : Pairing) (position : Nat) : Option Window :=
  match log[position]?, p.partner[position]? with
  | some enter, some last =>
    match enter.kind, log[last]? with
    | .enter, some exit => some ⟨position, last, enter, exit⟩
    | _, _ => none
  | _, _ => none

/-- Looks at all records inside the window that opens at a position, if there is one. -/
def scan (margins : Margins α) (log : Array Event) (p : Pairing) (progress : Progress α)
    (position : Nat) : Progress α :=
  match window? log p position with
  | none => progress
  | some w =>
    (List.range' (w.first + 1) (w.last - (w.first + 1))).foldl (look margins log p w) progress

/-- **Verifies a log** under margins. -/
def verify (margins : Margins α) (log : Log) : Report α :=
  let events := log.toArray
  let p := Pairing.ofLog log
  let progress := (List.range events.size).foldl (scan margins events p) ⟨∅, []⟩
  ⟨events.size, progress.overlaps.reverse, p.allWarnings⟩

end Verifier

end CriticalSection
