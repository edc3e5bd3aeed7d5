import CriticalSection.Proofs.Verifier.Ties

/-!
# The order in which logs are put together

Records of equal time stay in the order of the files, so a log that is put together from several
files depends on the order of these. The intervals do not, nor does the verdict on two of them that
are not tied. For a tied pair the order of the files decides whether a record stands inside a window
at all, and in which shape the two are met. Clashes of intervals with both ends are found all the
same, since these would have to do more than touch; so such a pair is judged alike, unless it is
fully nested in only one of the logs.
-/

set_option autoImplicit false

namespace CriticalSection

/-! ## Definitions -/

/-- Whether a report on a log has an overlap of some kind between two intervals. -/
def Report.Has {α : Type} (r : Report α) (log : Log) (kind : Overlap α → Prop)
    (pair : Sym2 (ProcessId × Nat)) : Prop :=
  ∃ o ∈ r.overlaps, kind o ∧ o.pair log = pair

/-- **Two intervals with both ends**, whose margins do not add up to less than zero. -/
def Log.Whole (log : Log) (margins : Margins Rat) (pair : Sym2 (ProcessId × Nat)) : Prop :=
  ∃ name name' enter exit enter' exit', s(name, name') = pair ∧
    log.HasInterval name (some enter, some exit) ∧ log.HasInterval name' (some enter', some exit') ∧
    0 ≤ margins.get name.1 + margins.get name'.1

/-- No process has records in both of two logs. -/
def Log.Apart (log other : Log) : Prop := ∀ a ∈ log, ∀ b ∈ other, a.process ≠ b.process

instance (log other : Log) : Decidable (log.Apart other) :=
  inferInstanceAs (Decidable (∀ a ∈ log, ∀ b ∈ other, a.process ≠ b.process))

theorem Log.SameRecords.whole {log log' : Log} (hsame : log.SameRecords log')
    {margins : Margins Rat} {pair : Sym2 (ProcessId × Nat)} (h : log.Whole margins pair) :
    log'.Whole margins pair := by
  obtain ⟨name, name', enter, exit, enter', exit', hpair, hname, hname', hmargins⟩ := h
  exact ⟨_, _, _, _, _, _, hpair, hsame.hasInterval hname, hsame.hasInterval hname', hmargins⟩

/-! ## Comparing two reports -/

namespace Verifier

variable {log log' : Log} {margins : Margins Rat} {m m' : Meeting}

end Verifier

/-! ## Logs that are put together -/

namespace Log

theorem Apart.symm {log other : Log} (h : log.Apart other) : other.Apart log :=
  fun b hb a ha heq => h a ha b hb heq.symm

variable {logs logs' : List Log}

end Log

namespace Verifier

/-- Two intervals with both their ends that are tied at their exits. They are fully nested only if
the file of the process that enters later comes first, and then the verdict is another one. -/
example :
    (verify (.uniform (2 : Rat)) [⟨"P1", .enter, 0⟩, ⟨"P2", .enter, 3⟩, ⟨"P1", .exit, 10⟩,
      ⟨"P2", .exit, 10⟩]).violations = 1 ∧
    (verify (.uniform (2 : Rat)) [⟨"P1", .enter, 0⟩, ⟨"P2", .enter, 3⟩, ⟨"P2", .exit, 10⟩,
      ⟨"P1", .exit, 10⟩]).violations = 0 := by
  rw [Report.violations, Report.violations, overlaps_eq, overlaps_eq]
  decide +kernel

end Verifier

end CriticalSection
