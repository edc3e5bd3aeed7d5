import CriticalSection.Proofs.Log.Order
import CriticalSection.Proofs.Log.RoundTrip
import CriticalSection.Proofs.Outcome

/-!
# Putting logs together

Every record of some logs has two numbers: that of its log and its own in the log. The logs put
together have just these records, ordered by time and then by the two numbers. So it makes no
difference whether some of the logs have been put together before and are read from one file; and
when not all of the files can be read as logs, the first one that cannot tells why.
-/

set_option autoImplicit false

namespace CriticalSection.Log

/-! ## Numbered records -/

/-- **A record of one of some logs**, with the number of the log and its own number there. -/
structure Numbered where
  log : Nat
  place : Nat
  event : Event
  deriving DecidableEq, Repr

namespace Numbered

/-- The order of records in which their logs were given. -/
def Ahead (a b : Numbered) : Prop := a.log < b.log ∨ a.log = b.log ∧ a.place < b.place

/-- **The order of records that are put together**: by their times, and records of equal time as
they were given. -/
def Precedes (a b : Numbered) : Prop :=
  a.event.time < b.event.time ∨ a.event.time = b.event.time ∧ a.Ahead b

/-- The records of a log that has a number. -/
def ofLog (log : Log) (number : Nat) : List Numbered :=
  log.zipIdx.map fun (event, place) => ⟨number, place, event⟩

/-- **The records of some logs**, in the order in which they are given. -/
def ofLogs (logs : List Log) : List Numbered :=
  logs.zipIdx.flatMap fun (log, number) => ofLog log number

theorem map_event_ofLog (log : Log) (number : Nat) : (ofLog log number).map event = log := by
  rw [ofLog, List.map_map]
  exact List.zipIdx_map_fst 0 log

theorem log_of_mem_ofLog {log : Log} {number : Nat} {a : Numbered} (h : a ∈ ofLog log number) :
    a.log = number := by
  obtain ⟨_, -, rfl⟩ := List.mem_map.mp h
  rfl

/-- Nothing is lost or added when records are numbered. -/
theorem map_event_ofLogs (logs : List Log) : (ofLogs logs).map event = logs.flatten := by
  have hlogs : (logs.zipIdx.map Prod.fst).flatten = logs.flatten := by
    rw [List.zipIdx_map_fst]
  rw [ofLogs, List.map_flatMap, ← hlogs, List.flatMap_def]
  congr 2
  funext numbered
  exact map_event_ofLog numbered.1 numbered.2

theorem pairwise_zipIdx {β : Type} (l : List β) (k : Nat) :
    (l.zipIdx k).Pairwise fun a b => a.2 < b.2 := by
  rw [← List.pairwise_map, List.zipIdx_map_snd]
  exact List.pairwise_lt_range'

/-- The records are numbered as they are given. -/
theorem pairwise_ofLogs (logs : List Log) : (ofLogs logs).Pairwise Ahead := by
  refine List.pairwise_flatMap.mpr ⟨fun numbered _ => ?_, ?_⟩
  · refine List.pairwise_map.mpr ((pairwise_zipIdx numbered.1 0).imp fun hlt => ?_)
    exact Or.inr ⟨rfl, hlt⟩
  · refine (pairwise_zipIdx logs 0).imp fun hlt a ha b hb => Or.inl ?_
    rwa [log_of_mem_ofLog ha, log_of_mem_ofLog hb]

theorem filter_ofLog_self (log : Log) (number : Nat) :
    (ofLog log number).filter (·.log = number) = ofLog log number :=
  List.filter_eq_self.mpr fun _ ha => decide_eq_true (log_of_mem_ofLog ha)

theorem filter_ofLog_of_ne {number n : Nat} (h : n ≠ number) (log : Log) :
    (ofLog log n).filter (·.log = number) = [] :=
  List.filter_eq_nil_iff.mpr fun a ha => by simpa [log_of_mem_ofLog ha] using h

/-- The records with the number of a log are those of the log. -/
theorem filter_ofLogs {logs : List Log} {number : Nat} {log : Log} (h : logs[number]? = some log) :
    (ofLogs logs).filter (·.log = number) = ofLog log number := by
  obtain ⟨hlt, rfl⟩ := List.getElem?_eq_some_iff.mp h
  have hothers : ∀ l : List (Log × Nat), (∀ numbered ∈ l, numbered.2 ≠ number) →
      (l.flatMap fun (log, number) => ofLog log number).filter (·.log = number) = [] := by
    intro l hl
    rw [List.filter_flatMap, List.flatMap_eq_nil_iff]
    exact fun numbered hmem => filter_ofLog_of_ne (hl numbered hmem) numbered.1
  have hsplit : logs.zipIdx = (logs.take number).zipIdx ++
      (logs[number], number) :: (logs.drop (number + 1)).zipIdx (number + 1) := by
    conv_lhs => rw [← List.take_append_drop number logs, List.drop_eq_getElem_cons hlt]
    rw [List.zipIdx_append, List.length_take_of_le (Nat.le_of_lt hlt), List.zipIdx_cons,
      Nat.zero_add]
  rw [ofLogs, hsplit, List.flatMap_append, List.flatMap_cons, List.filter_append,
    List.filter_append, hothers _ ?_, hothers _ ?_, filter_ofLog_self, List.nil_append,
    List.append_nil]
  · intro numbered hmem
    have := (List.mem_zipIdx hmem).1
    omega
  · intro numbered hmem
    have := (List.mem_zipIdx hmem).2.1
    rw [List.length_take] at this
    omega

/-! ### Sorting them -/

/-- **The records of some logs in the order of time**. -/
def sorted (logs : List Log) : List Numbered :=
  (ofLogs logs).mergeSort fun a b => timeLe a.event b.event

theorem map_event_sorted (logs : List Log) : (sorted logs).map event = sort logs.flatten := by
  rw [← map_event_ofLogs]
  exact List.map_mergeSort fun _ _ _ _ => rfl

theorem perm_sorted (logs : List Log) : (sorted logs).Perm (ofLogs logs) :=
  List.mergeSort_perm _ _

/-- Records that were in order among each other stay as they were. -/
theorem filter_sorted {logs : List Log} {keep : Numbered → Bool}
    (h : ((ofLogs logs).filter keep).Pairwise fun a b => timeLe a.event b.event = true) :
    (sorted logs).filter keep = (ofLogs logs).filter keep := by
  have htrans (a b c : Numbered) := timeLe_trans a.event b.event c.event
  have htotal (a b : Numbered) := timeLe_total a.event b.event
  exact filter_mergeSort htrans htotal h

/-- The records of one time are still as they were given. -/
theorem filter_time_sorted (logs : List Log) (time : Int64) :
    (sorted logs).filter (·.event.time = time) = (ofLogs logs).filter (·.event.time = time) := by
  refine filter_sorted (List.pairwise_of_forall_mem_list fun a ha b hb => ?_)
  have ha' : a.event.time = time := of_decide_eq_true (List.mem_filter.mp ha).2
  have hb' : b.event.time = time := of_decide_eq_true (List.mem_filter.mp hb).2
  rw [timeLe, ha', hb', decide_eq_true_iff]
  exact Int64.le_refl _

/-- **The sorted records** are ordered by time, and those of equal time as they were given. -/
theorem pairwise_sorted (logs : List Log) : (sorted logs).Pairwise Precedes := by
  have hmap : ((sorted logs).map event).Pairwise fun a b => a.time ≤ b.time := by
    rw [map_event_sorted]
    exact inOrder_sort _
  have horder := List.pairwise_map.mp hmap
  rw [List.pairwise_iff_forall_sublist] at horder ⊢
  intro a b hab
  by_cases htime : a.event.time = b.event.time
  · have hpair : [a, b].Sublist (ofLogs logs) := by
      have hkept := hab.filter fun c => c.event.time = b.event.time
      have hboth : [a, b].filter (·.event.time = b.event.time) = [a, b] := by simp [htime]
      rw [filter_time_sorted, hboth] at hkept
      exact hkept.trans List.filter_sublist
    exact Or.inr ⟨htime, List.pairwise_iff_forall_sublist.mp (pairwise_ofLogs logs) hpair⟩
  · exact Or.inl (Int64.lt_of_le_of_ne (horder hab) htime)

/-- **A log in the order of time keeps its records in their order.** -/
theorem filter_log_sorted {logs : List Log} {number : Nat} {log : Log}
    (h : logs[number]? = some log) (hlog : log.InOrder) :
    ((sorted logs).filter (·.log = number)).map event = log := by
  have hfilter := filter_ofLogs h
  have horder : ((ofLog log number).map event).Pairwise fun a b => timeLe a b = true := by
    rw [map_event_ofLog]
    exact hlog.imp decide_eq_true
  have hkept : ((ofLogs logs).filter (·.log = number)).Pairwise
      fun a b => timeLe a.event b.event = true := by
    rw [hfilter]
    exact List.pairwise_map.mp horder
  rw [filter_sorted hkept, hfilter, map_event_ofLog]

end Numbered

/-! ## Logs in files -/

variable {files files' : FileTree} {paths rest : List String}

/-- **Logs are put together** when all of them can be read. -/
theorem merge_of_forall₂ {logs : List Log}
    (h : List.Forall₂ (fun path log => read files path = .ok log) paths logs) :
    merge files paths = .ok (sort logs.flatten) := by
  rw [merge, Outcome.mapM_eq_ok_iff.mpr h]
  rfl

/-- **The first file that is no log** decides why logs cannot be put together. -/
theorem merge_eq_error_iff {fault : Fault} :
    merge files paths = .error fault ↔ ∃ before path behind, paths = before ++ path :: behind ∧
      (∀ p ∈ before, ∃ log, read files p = .ok log) ∧ read files path = .error fault := by
  rw [← Outcome.mapM_eq_error_iff, merge]
  cases paths.mapM (read files) with
  | error cause =>
      constructor
      · intro h
        rw [Except.error.inj h]
      · intro h
        rw [Except.error.inj h]
        rfl
  | ok logs => exact iff_of_false (by rintro ⟨⟩) (by rintro ⟨⟩)

/-- A log that can be read has words for the names of its processes. -/
theorem isWord_of_read {path : String} {log : Log} (h : read files path = .ok log) :
    ∀ event ∈ log, Text.IsWord event.process.toList := by
  obtain ⟨_, _, -, -, htext⟩ := read_eq_ok_iff.mp h
  exact isWord_of_ofText htext

/-- So have logs that are put together. -/
theorem isWord_of_forall₂ {logs : List Log}
    (h : List.Forall₂ (fun path log => read files path = .ok log) paths logs) :
    ∀ event ∈ sort logs.flatten, Text.IsWord event.process.toList := by
  intro event hevent
  have hflatten : event ∈ logs.flatten := (perm_sort _).mem_iff.mp hevent
  clear hevent
  induction h with
  | nil => exact absurd hflatten List.not_mem_nil
  | cons hread _ ih =>
      rcases List.mem_append.mp hflatten with hmem | hmem
      · exact isWord_of_read hread event hmem
      · exact ih hmem

/-- **A log that was written** is read from its file. -/
theorem read_of_write {path : String} {log : Log} (h : write files path log = .ok files')
    (hwords : ∀ event ∈ log, Text.IsWord event.process.toList) : read files' path = .ok log := by
  rw [read, readText_of_write h]
  exact ofText_text hwords

/-- **The log in another file** stays as it is when a log is written. -/
theorem read_of_write_other {path target : String} {log other : Log}
    (h : write files target log = .ok files') (hread : read files path = .ok other)
    (hother : ∀ location, files.Leads path location → ¬ files.Leads target location) :
    read files' path = .ok other := by
  obtain ⟨content, text, hcontent, htext, hlog⟩ := read_eq_ok_iff.mp hread
  rw [write] at h
  cases hwrite : files.write target log.text.toUTF8 with
  | error failure => rw [hwrite] at h; cases h
  | ok written =>
      rw [hwrite] at h
      obtain rfl := Except.ok.inj h
      obtain ⟨location, hleads, hfree, rfl⟩ := FileTree.exists_of_write hwrite
      have hkept := FileTree.read_put_of_not_leads hcontent hfree
        (fun hpath => hother location hpath hleads) log.text.toUTF8
      exact read_eq_ok_iff.mpr ⟨content, text, hkept, htext, hlog⟩

/-- **Logs that were put together before** may be read from the file to which they were written. -/
theorem merge_cons_of_write {front : List String} {fronts rests : List Log} {target : String}
    (hfront : List.Forall₂ (fun path log => read files path = .ok log) front fronts)
    (hrest : List.Forall₂ (fun path log => read files path = .ok log) rest rests)
    (hwrite : write files target (sort fronts.flatten) = .ok files')
    (hother : ∀ path ∈ rest, ∀ location, files.Leads path location →
      ¬ files.Leads target location) :
    merge files' (target :: rest) = .ok (sort (fronts ++ rests).flatten) := by
  have hrest' : List.Forall₂ (fun path log => read files' path = .ok log) rest rests := by
    refine ((List.forall₂_and_left _ _).mpr ⟨hother, hrest⟩).imp fun path log hboth => ?_
    exact read_of_write_other hwrite hboth.2 hboth.1
  have hall : List.Forall₂ (fun path log => read files' path = .ok log) (target :: rest)
      (sort fronts.flatten :: rests) :=
    .cons (read_of_write hwrite (isWord_of_forall₂ hfront)) hrest'
  rw [merge_of_forall₂ hall, List.flatten_cons, sort_sort_append, List.flatten_append]

/-- **Putting logs together.** When all files can be read as logs, the logs put together have just
their records, in the order of time and of their numbers; so a log in the order of time keeps its
records as they were. It makes no difference whether the first logs are put together and written to
a file before, unless one of the other logs is in this file. When some file cannot be read as a log,
the first one that cannot tells why. -/
theorem merge_paths (files : FileTree) (paths : List String) :
    (∀ logs, List.Forall₂ (fun path log => read files path = .ok log) paths logs →
      ∃ merged, merge files paths = .ok merged ∧ merged.Perm logs.flatten ∧ merged.InOrder ∧
        (∃ records : List Numbered, records.map Numbered.event = merged ∧
          records.Perm (Numbered.ofLogs logs) ∧ records.Pairwise Numbered.Precedes ∧
          ∀ (number : Nat) (log : Log), logs[number]? = some log → log.InOrder →
            (records.filter (·.log = number)).map Numbered.event = log) ∧
        ∀ front rest, paths = front ++ rest → ∃ first, merge files front = .ok first ∧
          ∀ target files', write files target first = .ok files' →
            (∀ path ∈ rest, ∀ location, files.Leads path location →
              ¬ files.Leads target location) →
            merge files' (target :: rest) = .ok merged) ∧
    ∀ fault, merge files paths = .error fault ↔
      ∃ before path behind, paths = before ++ path :: behind ∧
        (∀ p ∈ before, ∃ log, read files p = .ok log) ∧ read files path = .error fault := by
  refine ⟨fun logs hlogs => ?_, fun fault => merge_eq_error_iff⟩
  refine ⟨sort logs.flatten, merge_of_forall₂ hlogs, perm_sort _, inOrder_sort _, ?_, ?_⟩
  · exact ⟨Numbered.sorted logs, Numbered.map_event_sorted logs, Numbered.perm_sorted logs,
      Numbered.pairwise_sorted logs, fun _ _ => Numbered.filter_log_sorted⟩
  · rintro front rest rfl
    have hfront := List.forall₂_take front.length hlogs
    have hrest := List.forall₂_drop front.length hlogs
    rw [List.take_left] at hfront
    rw [List.drop_left] at hrest
    refine ⟨_, merge_of_forall₂ hfront, fun target files' hwrite hother => ?_⟩
    rw [merge_cons_of_write hfront hrest hwrite hother, List.take_append_drop]

/-- Two logs with records of equal time. Putting the first one alone into a file before changes
nothing, and of two files that are missing the first one is reported. -/
theorem merge_paths_tied :
    ∃ (files files' : FileTree) (first merged : Log),
      List.Forall₂ (fun path log => read files path = .ok log) ["a.log", "b.log"]
        [[⟨"P1", .enter, 100⟩, ⟨"P1", .exit, 200⟩], [⟨"P2", .enter, 150⟩, ⟨"P2", .exit, 200⟩]] ∧
      merge files ["a.log", "b.log"] = .ok merged ∧
      merged = [⟨"P1", .enter, 100⟩, ⟨"P2", .enter, 150⟩, ⟨"P1", .exit, 200⟩,
        ⟨"P2", .exit, 200⟩] ∧
      merge files ["a.log"] = .ok first ∧ write files "m.log" first = .ok files' ∧
      merge files' ["m.log", "b.log"] = .ok merged ∧
      merge files ["a.log", "c.log", "d.log"] = fail (.file "c.log" .notFound) := by
  let files : FileTree :=
    (FileTree.empty.put "a.log" (.file "P1 E 100\n\nP1 S 200\n".toUTF8)).put "b.log"
      (.file "P2 E 150\nP2 S 200\n".toUTF8)
  have ha : read files "a.log" = .ok [⟨"P1", .enter, 100⟩, ⟨"P1", .exit, 200⟩] := by decide +kernel
  have hb : read files "b.log" = .ok [⟨"P2", .enter, 150⟩, ⟨"P2", .exit, 200⟩] := by decide +kernel
  have hc : read files "c.log" = fail (.file "c.log" .notFound) := by decide +kernel
  obtain ⟨merged, hmerged, -, -, -, hsplit⟩ :=
    (merge_paths files ["a.log", "b.log"]).1 _ (.cons ha (.cons hb .nil))
  obtain ⟨first, hfirst, hagain⟩ := hsplit ["a.log"] ["b.log"] rfl
  have hwritable : files.writable "m.log" = .ok "m.log" := by decide +kernel
  have hwrite : write files "m.log" first =
      .ok (files.put "m.log" (.file first.text.toUTF8)) := by
    rw [write, FileTree.write, hwritable]
    rfl
  have hb' : files.resolve "b.log" = .ok ["b.log"] := by decide +kernel
  have hm' : files.resolve "m.log" = .ok ["m.log"] := by decide +kernel
  have hother : ∀ path ∈ ["b.log"], ∀ location, files.Leads path location →
      ¬ files.Leads "m.log" location := by
    rintro path hpath location ⟨names, hnames, -, rfl, -⟩ ⟨names', hnames', -, hsame, -⟩
    obtain rfl := List.mem_singleton.mp hpath
    obtain rfl := Except.ok.inj (hb'.symm.trans hnames)
    obtain rfl := Except.ok.inj (hm'.symm.trans hnames')
    exact absurd hsame (by decide)
  have hvalue := Except.ok.inj (hmerged.symm.trans (merge_of_forall₂ (.cons ha (.cons hb .nil))))
  refine ⟨files, _, first, merged, .cons ha (.cons hb .nil), hmerged, ?_, hfirst, hwrite,
    hagain _ _ hwrite hother, ?_⟩
  · rw [hvalue]
    simp [sort, List.mergeSort, List.MergeSort.Internal.splitInTwo]
  · refine ((merge_paths files _).2 _).mpr ⟨["a.log"], "c.log", ["d.log"], rfl, ?_, hc⟩
    exact fun p hp => ⟨_, List.mem_singleton.mp hp ▸ ha⟩

end CriticalSection.Log
