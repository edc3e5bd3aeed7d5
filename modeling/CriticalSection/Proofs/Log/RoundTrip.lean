import CriticalSection.Proofs.Log.Files
import CriticalSection.Proofs.Log.Grammar

/-!
# Reading logs back

However a log is written, at once or record by record, its text is the same. It is read back exactly
when the names of its processes are words; a log that was read has such names, so writing it again
changes nothing but the layout of its text.
-/

set_option autoImplicit false

namespace CriticalSection.Log

variable {log : Log} {text : String}

/-- **The processes of a log that was read are words.** -/
theorem isWord_of_ofText (h : ofText text = .ok log) :
    ∀ event ∈ log, Text.IsWord event.process.toList := by
  have hall := (ofLines_eq_ok_iff 1).mp h
  clear h
  generalize inked (Text.lines text.toList) = lines at hall
  induction hall with
  | nil => exact fun event hevent => absurd hevent List.not_mem_nil
  | cons hevent _ ih => exact List.forall_mem_cons.mpr ⟨hevent.isWord, ih⟩

/-- **A log is read back from its text exactly when its processes are words.** -/
theorem ofText_text_iff :
    ofText log.text = .ok log ↔ ∀ event ∈ log, Text.IsWord event.process.toList :=
  ⟨isWord_of_ofText, ofText_text⟩

/-- The text of a log stands in the file to which it is written. -/
theorem readText_of_write {files files' : FileTree} {path : String}
    (h : write files path log = .ok files') : files'.readText path = .ok log.text := by
  rw [write] at h
  cases hwrite : files.write path log.text.toUTF8 with
  | error failure => rw [hwrite] at h; cases h
  | ok written =>
      rw [hwrite] at h
      obtain rfl := Except.ok.inj h
      obtain ⟨location, hleads, hfile⟩ := FileTree.exists_leads_of_write hwrite
      exact FileTree.readText_of_leads hleads hfile

/-- The text of a log stands in the file to which it was written record by record. -/
theorem readText_of_recordAll {files files' : FileTree} {path : String} {process : ProcessId}
    {w : LogWriter} (h : LogWriter.create files path process = .ok (w, files'))
    (hlog : ∀ event ∈ log, event.process = process) :
    (w.recordAll files' log).2.readText path = .ok log.text := by
  -- the path leads to the file at first, and still does so behind the records
  obtain ⟨location, rfl, hleads, hempty⟩ := LogWriter.exists_of_create h
  obtain ⟨files'', hall, hfile, hkeep⟩ := LogWriter.recordAll_behind hempty hlog
  rw [hall]
  exact FileTree.readText_of_leads (hkeep hleads) hfile

/-- **Reading a log back.** The text in a file to which a log was written, at once or by a writer
that recorded its events, is the text of the log. It is read as this log exactly when the name of
every process is a word. A log that was read from any text is read again from its own text. -/
theorem ofText_written (log : Log) :
    (∀ files files' path, write files path log = .ok files' →
      files'.readText path = .ok log.text) ∧
    (∀ files files' path process w, LogWriter.create files path process = .ok (w, files') →
      (∀ event ∈ log, event.process = process) →
      (w.recordAll files' log).2.readText path = .ok log.text) ∧
    (ofText log.text = .ok log ↔
      ∀ event ∈ log, event.process ≠ "" ∧ ∀ c ∈ event.process.toList, Text.isBlank c = false) ∧
    ∀ text, ofText text = .ok log → ofText log.text = .ok log := by
  have hword (process : ProcessId) : Text.IsWord process.toList ↔
      process ≠ "" ∧ ∀ c ∈ process.toList, Text.isBlank c = false := by
    rw [Text.IsWord, ne_eq, String.toList_eq_nil_iff]
  refine ⟨fun _ _ _ => readText_of_write, fun _ _ _ _ _ => readText_of_recordAll, ?_, ?_⟩
  · simp only [ofText_text_iff, hword]
  · intro text h
    exact ofText_text (isWord_of_ofText h)

/-- A log of two events, written to a new file at once and record by record, and read from a text
with other gaps. -/
theorem ofText_written_pair :
    ∃ (log : Log) (files files' : FileTree) (w : LogWriter),
      log = [⟨"P3", .enter, 10⟩, ⟨"P3", .exit, 12⟩] ∧
      write FileTree.empty "w.log" log = .ok files ∧ files.readText "w.log" = .ok log.text ∧
      LogWriter.create FileTree.empty "w.log" "P3" = .ok (w, files') ∧
      (w.recordAll files' log).2.readText "w.log" = .ok log.text ∧
      ofText "P3 E +10\n\n P3\tS 012\r\n" = .ok log ∧ ofText log.text = .ok log := by
  obtain ⟨hwrite, hrecord, -, hagain⟩ := ofText_written [⟨"P3", .enter, 10⟩, ⟨"P3", .exit, 12⟩]
  have hwritable : FileTree.empty.writable "w.log" = .ok "w.log" := by decide +kernel
  have hcreate : LogWriter.create FileTree.empty "w.log" "P3" =
      .ok (⟨"w.log", "P3", 0⟩, FileTree.empty.put "w.log" (.file .empty)) := by
    rw [LogWriter.create, hwritable]
    rfl
  have hfile : write FileTree.empty "w.log" [⟨"P3", .enter, 10⟩, ⟨"P3", .exit, 12⟩] =
      .ok (FileTree.empty.put "w.log"
        (.file (text [⟨"P3", .enter, 10⟩, ⟨"P3", .exit, 12⟩]).toUTF8)) := by
    rw [write, FileTree.write, hwritable]
    rfl
  have hread : ofText "P3 E +10\n\n P3\tS 012\r\n" =
      .ok [⟨"P3", .enter, 10⟩, ⟨"P3", .exit, 12⟩] := by decide +kernel
  exact ⟨_, _, _, _, rfl, hfile, hwrite _ _ _ hfile, hcreate,
    hrecord _ _ _ "P3" _ hcreate (by simp), hread, hagain _ hread⟩

end CriticalSection.Log
