import CriticalSection.Log.Files
import CriticalSection.Proofs.Files.Tree
import CriticalSection.Proofs.Log.Text

/-!
# Logs in files

A writer that stands behind the last record of its log adds a record to it, and what is read from
the file is the log with all its records.
-/

set_option autoImplicit false

namespace CriticalSection

variable {files : FileTree}

/-! ## Reading -/

namespace Log

/-- **What is read** is the log of the text that the bytes of the file stand for. -/
theorem read_eq_ok_iff {path : String} {log : Log} :
    read files path = .ok log ↔ ∃ content text, files.read path = .ok content ∧
      String.fromUTF8? content = some text ∧ ofText text = .ok log := by
  rw [read, FileTree.readText]
  constructor
  · intro h
    cases hread : files.read path with
    | error failure => rw [hread] at h; cases h
    | ok content =>
        cases htext : String.fromUTF8? content with
        | none => simp only [hread, htext] at h; cases h
        | some text =>
            simp only [hread, htext] at h
            exact ⟨content, text, rfl, htext, h⟩
  · rintro ⟨content, text, hread, htext, hlog⟩
    simp only [hread, htext]
    exact hlog

/-- **A log that has been written to a file** is read from it. -/
theorem read_of_leads {path : String} {location : Location} {log : Log}
    (h : files.Leads path location)
    (hfile : files.nodes[location]? = some (.file log.text.toUTF8))
    (hwords : ∀ e ∈ log, Text.IsWord e.process.toList) : read files path = .ok log := by
  rw [read, FileTree.readText_of_leads h hfile]
  exact ofText_text hwords

/-- **Logs that can be read are put together.** -/
theorem merge_of_read {α : Type} {keys : List α} {path : α → String} {log : α → Log}
    (h : ∀ k ∈ keys, read files (path k) = .ok (log k)) :
    merge files (keys.map path) = .ok (sort (keys.flatMap log)) := by
  have hlogs : (keys.map path).mapM (read files) = .ok (keys.map log) := by
    induction keys with
    | nil => rfl
    | cons k keys ih =>
        rw [List.map_cons, List.mapM_cons, h k List.mem_cons_self,
          ih fun k' hk' => h k' (List.mem_cons_of_mem _ hk')]
        rfl
  rw [merge, hlogs, List.flatMap_def]
  rfl

end Log

/-! ## Writing -/

namespace LogWriter

/-- The writer of a process that stands behind the last record of a log. -/
def behind (location : Location) (process : ProcessId) (log : Log) : LogWriter :=
  ⟨location, process, log.text.utf8ByteSize⟩

/-- **A record is added** to the log behind which a writer stands. -/
theorem record_behind {location : Location} {log : Log}
    (hfile : files.nodes[location]? = some (.file log.text.toUTF8)) (process : ProcessId)
    (kind : EventKind) (time : Int64) :
    (behind location process log).record files kind time =
      (behind location process (log ++ [⟨process, kind, time⟩]),
        files.put location (.file (Log.text (log ++ [⟨process, kind, time⟩])).toUTF8)) := by
  have htext : Log.text (log ++ [⟨process, kind, time⟩]) =
      log.text ++ ((⟨process, kind, time⟩ : Event).text ++ "\n") := by
    rw [Log.text_append, Log.text_singleton]
  rw [behind, record, behind, htext]
  dsimp only
  generalize (⟨process, kind, time⟩ : Event).text ++ "\n" = line
  have hsize : log.text.utf8ByteSize = log.text.toUTF8.size := rfl
  have happend : (log.text ++ line).toUTF8 = log.text.toUTF8 ++ line.toUTF8 :=
    String.toByteArray_append
  rw [String.utf8ByteSize_append, happend, hsize, FileTree.writeAt_size hfile]
  rfl

/-- Writes the events of a log, one after the other. -/
def recordAll (w : LogWriter) (files : FileTree) : Log → LogWriter × FileTree
  | [] => (w, files)
  | event :: rest =>
    match w.record files event.kind event.time with
    | (w, files) => w.recordAll files rest

/-- **All records are added** to the log behind which a writer stands. -/
theorem recordAll_behind {location : Location} {process : ProcessId} {log rest : Log}
    (hfile : files.nodes[location]? = some (.file log.text.toUTF8))
    (hrest : ∀ event ∈ rest, event.process = process) :
    ∃ files', (behind location process log).recordAll files rest =
        (behind location process (log ++ rest), files') ∧
      files'.nodes[location]? = some (.file (Log.text (log ++ rest)).toUTF8) ∧
      ∀ {path}, files.Leads path location → files'.Leads path location := by
  induction rest generalizing files log with
  | nil => exact ⟨files, by rw [List.append_nil]; rfl, by rwa [List.append_nil], id⟩
  | cons event rest ih =>
      have hevent : (⟨process, event.kind, event.time⟩ : Event) = event := by
        rw [← hrest event List.mem_cons_self]
      have hadded := record_behind hfile process event.kind event.time
      rw [hevent] at hadded
      have hput : (files.put location (.file (Log.text (log ++ [event])).toUTF8)).nodes[location]? =
          some (.file (Log.text (log ++ [event])).toUTF8) := by
        rw [FileTree.nodes_put, if_pos rfl]
      obtain ⟨files', hall, hfile', hleads⟩ :=
        ih hput fun e he => hrest e (List.mem_cons_of_mem _ he)
      rw [List.append_assoc, List.singleton_append] at hall hfile'
      refine ⟨files', ?_, hfile', fun h => hleads (h.put hfile)⟩
      rw [recordAll, hadded]
      exact hall

/-- **A new writer stands on an empty file**, to which its path leads. -/
theorem exists_of_create {files' : FileTree} {path : String} {process : ProcessId} {w : LogWriter}
    (h : create files path process = .ok (w, files')) :
    ∃ location, w = behind location process [] ∧ files'.Leads path location ∧
      files'.nodes[location]? = some (.file (Log.text []).toUTF8) := by
  rw [create] at h
  cases hwritable : files.writable path with
  | error failure => rw [hwritable] at h; cases h
  | ok location =>
      rw [hwritable] at h
      obtain ⟨rfl, rfl⟩ := Prod.mk.inj (Except.ok.inj h)
      obtain ⟨hleads, hfree⟩ := FileTree.leads_of_writable hwritable
      refine ⟨location, rfl, hleads.put_of_free hfree _, ?_⟩
      rw [FileTree.nodes_put, if_pos rfl]
      rfl

end LogWriter

end CriticalSection
