import CriticalSection.CommandLine.Perform
import CriticalSection.Proofs.Log.Merging
import CriticalSection.Proofs.Log.Moving

/-!
# Moving the log in a file

A log is moved where it stands. Either no event is moved and no file changes, because the file
cannot be read as a log or because some new time would not fit in 64 bits; or every event is moved
and no other file changes.
-/

set_option autoImplicit false

namespace CriticalSection

namespace Log

variable {files files' : FileTree} {path : String} {step : Int64} {n : Int} {fault : Fault}

/-! ## Refusals -/

/-- A text that is no log has a line that is to blame. -/
theorem exists_of_ofText_eq_error {text : String} (h : ofText text = .error fault) :
    ∃ number reason, fault = .error (.logFormat number reason) := by
  have hnot : ¬ ∀ line ∈ Text.lines text.toList, Proper line := by
    intro hall
    obtain ⟨log, hlog⟩ := exists_ofLines hall 1
    rw [ofText, hlog] at h
    cases h
  obtain ⟨before, line, behind, hlines, hbefore, hline⟩ := exists_first_not_proper hnot
  obtain ⟨reason, hreason⟩ := exists_ofLines_append hbefore hline 1
  rw [ofText, hlines, hreason] at h
  exact ⟨_, reason, (Except.error.inj h).symm⟩

/-- **Why the log in a file is not moved**: the file cannot be read, its bytes are no text, a line
is no record, or the new time of some event does not fit in 64 bits. -/
inductive Refusal (files : FileTree) (path : String) (n : Int) : Fault → Prop
  | unreadable {cause : SystemFailure} (hread : files.read path = .error cause) :
      Refusal files path n (.error (.file path cause))
  | noText {content : ByteArray} (hread : files.read path = .ok content)
      (htext : String.fromUTF8? content = none) :
      Refusal files path n (.error (.file path .invalidData))
  | malformed {content : ByteArray} {text reason : String} {number : Nat}
      (hread : files.read path = .ok content) (htext : String.fromUTF8? content = some text)
      (hlog : ofText text = fail (.logFormat number reason)) :
      Refusal files path n (.error (.logFormat number reason))
  | overflow {content : ByteArray} {text : String} {log : Log} {event : Event}
      (hread : files.read path = .ok content) (htext : String.fromUTF8? content = some text)
      (hlog : ofText text = .ok log) (hevent : event ∈ log)
      (hfits : ¬ Time.Fits (event.time.toInt + n)) : Refusal files path n .overflow

/-- Reading fails, or some new time is no time. -/
theorem refusal_iff : Refusal files path n fault ↔ read files path = .error fault ∨
    ∃ log, read files path = .ok log ∧ fault = .overflow ∧
      ∃ event ∈ log, ¬ Time.Fits (event.time.toInt + n) := by
  constructor
  · intro h
    cases h with
    | unreadable hread =>
        left
        rw [read, FileTree.readText, hread]
        rfl
    | noText hread htext =>
        left
        rw [read, FileTree.readText]
        simp only [hread, htext]
        rfl
    | malformed hread htext hlog =>
        left
        rw [read, FileTree.readText]
        simp only [hread, htext]
        exact hlog
    | overflow hread htext hlog hevent hfits =>
        exact .inr ⟨_, read_eq_ok_iff.mpr ⟨_, _, hread, htext, hlog⟩, rfl, _, hevent, hfits⟩
  · rintro (h | ⟨log, hlog, rfl, event, hevent, hfits⟩)
    · rw [read, FileTree.readText] at h
      cases hread : files.read path with
      | error cause =>
          rw [hread] at h
          obtain rfl := Except.error.inj h
          exact .unreadable hread
      | ok content =>
          cases htext : String.fromUTF8? content with
          | none =>
              simp only [hread, htext] at h
              obtain rfl := Except.error.inj h
              exact .noText hread htext
          | some text =>
              simp only [hread, htext] at h
              obtain ⟨number, reason, rfl⟩ := exists_of_ofText_eq_error h
              exact .malformed hread htext h
    · obtain ⟨content, text, hread, htext, hof⟩ := read_eq_ok_iff.mp hlog
      exact .overflow hread htext hof hevent hfits

/-! ## Moves -/

/-- **The log in the file at a location**, whatever its text looks like. -/
def Holds (files : FileTree) (location : Location) (log : Log) : Prop :=
  ∃ content text, files.nodes[location]? = some (.file content) ∧
    String.fromUTF8? content = some text ∧ ofText text = .ok log

theorem exists_of_read {log : Log} (h : read files path = .ok log) :
    ∃ location, files.Leads path location ∧ Holds files location log ∧
      ∀ other, write files path other =
        .ok (files.put location (.file other.text.toUTF8)) := by
  obtain ⟨content, text, hread, htext, hlog⟩ := read_eq_ok_iff.mp h
  obtain ⟨location, hleads, hfile, hwrite⟩ := FileTree.exists_of_read hread
  refine ⟨location, hleads, ⟨content, text, hfile, htext, hlog⟩, fun other => ?_⟩
  rw [write, hwrite]
  rfl

/-- **The log at a location has been moved**, and nothing else is different. -/
structure MovedAt (files files' : FileTree) (location : Location) (n : Int) (log moved : Log) :
    Prop where
  before : Holds files location log
  behind : Holds files' location moved
  moved : log.Moved n moved
  others : ∀ l ≠ location, files'.nodes[l]? = files.nodes[l]?
  home : files'.home = files.home

/-- Moved events are those of the same processes. -/
theorem Moved.isWord {log moved : Log} (h : log.Moved n moved)
    (hwords : ∀ event ∈ log, Text.IsWord event.process.toList) :
    ∀ event ∈ moved, Text.IsWord event.process.toList := by
  induction h with
  | nil => exact fun event hevent => absurd hevent List.not_mem_nil
  | cons hevent _ ih =>
      obtain ⟨hfirst, hrest⟩ := List.forall_mem_cons.mp hwords
      exact List.forall_mem_cons.mpr ⟨hevent.process ▸ hfirst, ih hrest⟩

/-- A log that was put to a location stands there. -/
theorem holds_put {log : Log} (hwords : ∀ event ∈ log, Text.IsWord event.process.toList)
    (files : FileTree) (location : Location) :
    Holds (files.put location (.file log.text.toUTF8)) location log :=
  ⟨_, log.text, by rw [FileTree.nodes_put, if_pos rfl], Text.fromUTF8?_toUTF8 _,
    ofText_text hwords⟩

variable {α : Type} [Quantity α] {offset : α} {log moved : Log}

theorem adjust_of_read (hlog : read files path = .ok log) :
    adjust files path offset = (do
      let moved ← log.shift (Quantity.round offset)
      let files ← write files path moved
      return (moved.length, files)) := by
  rw [adjust, hlog]
  rfl

/-- **Moving the log in a file**, when all its events can be moved. -/
theorem adjust_of_shift (hlog : read files path = .ok log)
    (hshift : log.shift (Quantity.round offset) = .ok moved) :
    ∃ location files', files.Leads path location ∧
      MovedAt files files' location (Quantity.round offset).toInt log moved ∧
      read files' path = .ok moved ∧ adjust files path offset = .ok (log.length, files') := by
  obtain ⟨location, hleads, hholds, hwrite⟩ := exists_of_read hlog
  have hmoved : log.Moved (Quantity.round offset).toInt moved := shift_eq_ok_iff.mp hshift
  have hwords := hmoved.isWord (isWord_of_read hlog)
  refine ⟨location, _, hleads, ⟨hholds, holds_put hwords files location, hmoved, ?_, rfl⟩,
    read_of_write (hwrite moved) hwords, ?_⟩
  · intro l hl
    rw [FileTree.nodes_put, if_neg hl]
  · rw [adjust_of_read hlog, hshift, hmoved.length_eq]
    change (write files path moved >>= _) = _
    rw [hwrite]
    rfl

/-- **A refusal is the only reason** that the log in a file is not moved. -/
theorem adjust_eq_error_iff : adjust files path offset = .error fault ↔
    Refusal files path (Quantity.round offset).toInt fault := by
  rw [refusal_iff]
  cases hlog : read files path with
  | error cause =>
      have hadjust : adjust files path offset = .error cause := by
        rw [adjust, hlog]
        rfl
      rw [hadjust]
      simp
  | ok log =>
      have hlog' : ∀ l, (Except.ok log : Outcome Log) = .ok l ↔ l = log :=
        fun l => by rw [Except.ok.injEq, eq_comm]
      simp only [hlog', exists_eq_left, reduceCtorEq, false_or, ← shift_eq_error_iff]
      cases hshift : log.shift (Quantity.round offset) with
      | error cause =>
          have hadjust : adjust files path offset = .error cause := by
            rw [adjust_of_read hlog, hshift]
            rfl
          rw [hadjust, Except.error.injEq, Except.error.injEq]
      | ok moved =>
          obtain ⟨_, files', -, -, -, hadjust⟩ := adjust_of_shift hlog hshift
          rw [hadjust]
          exact iff_of_false nofun nofun

/-- **All or nothing.** The log in a file is not moved and no file changes, and then the file cannot
be read, or its bytes are no text, or a line is no record, or some event would get a time that does
not fit in 64 bits. Or there is no such reason: then the number of events is told, the file holds
the same events in the same order with the rounded offset added to each time, and no other file
changes. -/
theorem adjust_all_or_nothing (w : CommandLine.Surroundings) (path : String) (offset : Float) :
    (∃ fault, Refusal w.files path (Quantity.round offset).toInt fault ∧
      adjust w.files path offset = .error fault ∧
      CommandLine.adjust w path offset = (.error fault, w.files)) ∨
    ∃ location log moved files',
      (∀ fault, ¬ Refusal w.files path (Quantity.round offset).toInt fault) ∧
      w.files.Leads path location ∧
      MovedAt w.files files' location (Quantity.round offset).toInt log moved ∧
      read files' path = .ok moved ∧
      adjust w.files path offset = .ok (log.length, files') ∧
      CommandLine.adjust w path offset = (.ok .silent, files') := by
  cases hadjust : adjust w.files path offset with
  | error fault =>
      refine .inl ⟨fault, adjust_eq_error_iff.mp hadjust, rfl, ?_⟩
      rw [CommandLine.adjust, hadjust]
  | ok result =>
      right
      have hrefusal : ∀ fault, ¬ Refusal w.files path (Quantity.round offset).toInt fault := by
        intro fault h
        cases hadjust.symm.trans (adjust_eq_error_iff.mpr h)
      cases hlog : read w.files path with
      | error fault => exact absurd (refusal_iff.mpr (.inl hlog)) (hrefusal fault)
      | ok log =>
          cases hshift : log.shift (Quantity.round offset) with
          | error fault =>
              exact absurd (refusal_iff.mpr (.inr ⟨log, hlog, shift_eq_error_iff.mp hshift⟩))
                (hrefusal fault)
          | ok moved =>
              obtain ⟨location, files', hleads, hmoved, hread, hfiles⟩ :=
                adjust_of_shift hlog hshift
              refine ⟨location, log, moved, files', hrefusal, hleads, hmoved, hread, ?_, ?_⟩
              · rw [← hadjust, hfiles]
              · rw [CommandLine.adjust, hfiles]

/-- Four and a half milliseconds earlier are four, since halves are rounded up. -/
example :
    let files := FileTree.empty.put "a.log" (.file "P1 E 100\n\nP1 S 200\n".toUTF8)
    (do
      let (count, files') ← adjust files "a.log" (-9 / 2 : Rat)
      let log ← read files' "a.log"
      return (count, log)) = .ok (2, [⟨"P1", .enter, 96⟩, ⟨"P1", .exit, 196⟩]) := by
  decide +kernel

end Log

end CriticalSection
