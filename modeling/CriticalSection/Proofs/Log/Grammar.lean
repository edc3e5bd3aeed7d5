import Mathlib.Data.List.Forall2
import CriticalSection.Proofs.Log.Text
import CriticalSection.Proofs.Text.Grammar

/-!
# The form of a log

An event stands on a line when the line consists of the process, the letter for the kind and a
numeral for the time, with blanks between them. A log is read from a text exactly when every line
that is not blank has an event on it, and these are its events; otherwise the first line that has
none is reported, by its number among all lines.
-/

set_option autoImplicit false

namespace CriticalSection

open Text (IsGap IsWord IsNumeral)

/-! ## Events -/

theorem EventKind.ofWord?_eq_some_iff {word : String} {kind : EventKind} :
    ofWord? word = some kind ↔ word = kind.letter := by
  constructor
  · intro h
    unfold ofWord? at h
    split at h
    · next hword =>
        obtain rfl := Option.some.inj h
        exact hword
    · split at h
      · next hword =>
          obtain rfl := Option.some.inj h
          exact hword
      · cases h
  · rintro rfl
    exact Event.ofWord?_letter kind

namespace Event

variable {e : Event} {line : List Char}

/-- **An event stands on a line** of three words with blanks between them, and perhaps in front and
behind: its process, the letter for its kind and a numeral for its time. -/
def StandsOn (e : Event) (line : List Char) : Prop :=
  ∃ front gap gap' back time : List Char,
    line = front ++ e.process.toList ++ gap ++ e.kind.letter.toList ++ gap' ++ time ++ back ∧
    IsGap front ∧ IsGap gap ∧ IsGap gap' ∧ IsGap back ∧ gap ≠ [] ∧ gap' ≠ [] ∧
    IsWord e.process.toList ∧ IsNumeral time e.time.toInt

theorem ofWords_eq_ok_iff {process kind time : String} :
    ofWords process kind time = .ok e ↔
      process = e.process ∧ kind = e.kind.letter ∧ IsNumeral time.toList e.time.toInt := by
  rw [← EventKind.ofWord?_eq_some_iff, ← Text.readInt64_eq_ok_iff, ofWords]
  cases EventKind.ofWord? kind with
  | none => simp
  | some kind =>
      cases Text.readInt64 time.toList with
      | error defect => simp
      | ok time =>
          obtain ⟨process', kind', time'⟩ := e
          simp

/-- **An event is read from the lines on which it stands**, and from no other ones. -/
theorem ofLine_eq_ok_iff (number : Nat) : ofLine number line = .ok e ↔ e.StandsOn line := by
  -- the process and the kind are words already, so only the time is open
  have hwords : ofLine number line = .ok e ↔
      ∃ time, Text.words line = [e.process.toList, e.kind.letter.toList, time] ∧
        IsNumeral time e.time.toInt := by
    constructor
    · intro h
      unfold ofLine at h
      split at h
      · next p k t heq =>
          split at h
          · next event hevent =>
              obtain rfl := Except.ok.inj h
              obtain ⟨hprocess, hkind, htime⟩ := ofWords_eq_ok_iff.mp hevent
              rw [String.toList_ofList] at htime
              refine ⟨t, ?_, htime⟩
              rw [heq, ← hprocess, ← hkind, String.toList_ofList, String.toList_ofList]
          · cases h
      · cases h
    · rintro ⟨time, heq, htime⟩
      have hread : ofWords e.process e.kind.letter (String.ofList time) = .ok e :=
        ofWords_eq_ok_iff.mpr ⟨rfl, rfl, by rwa [String.toList_ofList]⟩
      rw [ofLine, heq]
      simp only [String.ofList_toList, hread]
  rw [hwords]
  constructor
  · rintro ⟨time, heq, htime⟩
    obtain ⟨front, gap, gap', back, hline, hfront, hgap, hgap', hback, hne, hne', hp, -, -⟩ :=
      Text.words_eq_three_iff.mp heq
    exact ⟨front, gap, gap', back, time, hline, hfront, hgap, hgap', hback, hne, hne', hp, htime⟩
  · rintro ⟨front, gap, gap', back, time, hline, hfront, hgap, hgap', hback, hne, hne', hp, htime⟩
    exact ⟨time, Text.words_eq_three_iff.mpr ⟨front, gap, gap', back, hline, hfront, hgap, hgap',
      hback, hne, hne', hp, isWord_letter e.kind, htime.isWord⟩, htime⟩

/-- One event at most stands on a line. -/
theorem StandsOn.unique {e' : Event} (h : e.StandsOn line) (h' : e'.StandsOn line) : e = e' := by
  have heq := (ofLine_eq_ok_iff 1).mpr h
  rw [(ofLine_eq_ok_iff 1).mpr h'] at heq
  exact (Except.ok.inj heq).symm

/-- A line without an event is reported by its number. -/
theorem ofLine_cases (number : Nat) (line : List Char) :
    (∃ e, ofLine number line = .ok e) ∨
      ∃ reason, ofLine number line = fail (.logFormat number reason) := by
  unfold ofLine
  split
  · split
    · exact Or.inl ⟨_, rfl⟩
    · exact Or.inr ⟨_, rfl⟩
  · exact Or.inr ⟨_, rfl⟩

theorem StandsOn.isWord (h : e.StandsOn line) : IsWord e.process.toList := by
  obtain ⟨_, _, _, _, _, _, _, _, _, _, _, _, hprocess, _⟩ := h
  exact hprocess

/-- A line with an event on it is not blank. -/
theorem StandsOn.not_isGap (h : e.StandsOn line) : ¬ IsGap line := by
  obtain ⟨front, gap, gap', back, time, rfl, -, -, -, -, -, -, hp, -⟩ := h
  obtain ⟨c, rest, hprocess⟩ := List.exists_cons_of_ne_nil hp.1
  intro hline
  have hblank := hline c (by simp [hprocess])
  rw [hp.2 c (hprocess ▸ List.mem_cons_self)] at hblank
  cases hblank

end Event

/-! ## Logs -/

namespace Log

variable {line : List Char} {lines : List (List Char)} {log : Log}

/-- **A proper line of a log** is blank or has an event on it. -/
def Proper (line : List Char) : Prop := IsGap line ∨ ∃ e : Event, e.StandsOn line

theorem ofLines_of_gap (h : IsGap line) (number : Nat) (lines : List (List Char)) :
    ofLines number (line :: lines) = ofLines (number + 1) lines :=
  if_pos (Text.isGap_iff.mp h)

/-- The event on a line comes in front of those on the lines behind it. -/
theorem ofLines_of_standsOn {e : Event} (h : e.StandsOn line) (number : Nat)
    (lines : List (List Char)) :
    ofLines number (line :: lines) = (ofLines (number + 1) lines).map (e :: ·) := by
  rw [ofLines, if_neg fun hline => h.not_isGap (Text.isGap_iff.mpr hline),
    (Event.ofLine_eq_ok_iff number).mpr h]
  cases ofLines (number + 1) lines <;> rfl

/-- So a log that starts with the event is read when the rest is read from the lines behind. -/
theorem ofLines_of_standsOn_eq_ok_iff {e : Event} (h : e.StandsOn line) (number : Nat) :
    ofLines number (line :: lines) = .ok log ↔
      ∃ rest, ofLines (number + 1) lines = .ok rest ∧ e :: rest = log := by
  rw [ofLines_of_standsOn h]
  cases ofLines (number + 1) lines with
  | error fault => simp [Except.map]
  | ok rest => simp [Except.map]

/-- A line that is not proper is reported. -/
theorem exists_ofLines_of_not_proper (h : ¬ Proper line) (number : Nat)
    (lines : List (List Char)) :
    ∃ reason, ofLines number (line :: lines) = fail (.logFormat number reason) := by
  have hgap : ¬ line.all Text.isBlank = true := fun hline => h (Or.inl (Text.isGap_iff.mpr hline))
  have hevent : ¬ ∃ e, Event.ofLine number line = .ok e :=
    fun ⟨e, he⟩ => h (Or.inr ⟨e, (Event.ofLine_eq_ok_iff number).mp he⟩)
  obtain ⟨reason, hreason⟩ := (Event.ofLine_cases number line).resolve_left hevent
  refine ⟨reason, ?_⟩
  rw [ofLines, if_neg hgap, hreason]
  rfl

/-- The lines that are not blank. -/
abbrev inked (lines : List (List Char)) : List (List Char) :=
  lines.filter fun line => !line.all Text.isBlank

theorem inked_of_gap (h : IsGap line) (lines : List (List Char)) :
    inked (line :: lines) = inked lines :=
  List.filter_cons_of_neg (by rw [Text.isGap_iff.mp h]; decide)

theorem inked_of_not_gap (h : ¬ IsGap line) (lines : List (List Char)) :
    inked (line :: lines) = line :: inked lines :=
  List.filter_cons_of_pos (by simpa using mt Text.isGap_iff.mpr h)

/-- **The events of a log are those on its lines**, one on each line that is not blank. -/
theorem ofLines_eq_ok_iff (number : Nat) :
    ofLines number lines = .ok log ↔
      List.Forall₂ (fun line (e : Event) => e.StandsOn line) (inked lines) log := by
  induction lines generalizing number log with
  | nil =>
      constructor
      · intro h
        obtain rfl := Except.ok.inj h
        exact .nil
      · rintro ⟨⟩
        rfl
  | cons line lines ih =>
      by_cases hgap : IsGap line
      · rw [ofLines_of_gap hgap, inked_of_gap hgap, ih]
      · rw [inked_of_not_gap hgap]
        by_cases hevent : ∃ e : Event, e.StandsOn line
        · obtain ⟨e, he⟩ := hevent
          rw [ofLines_of_standsOn_eq_ok_iff he]
          constructor
          · rintro ⟨rest, hrest, rfl⟩
            exact .cons he ((ih _).mp hrest)
          · rintro (_ | ⟨he', hrest⟩)
            exact ⟨_, (ih _).mpr hrest, by rw [he.unique he']⟩
        · obtain ⟨reason, hreason⟩ :=
            exists_ofLines_of_not_proper (fun h => h.elim hgap hevent) number lines
          rw [hreason]
          constructor
          · intro h
            cases h
          · rintro (_ | ⟨he, -⟩)
            exact absurd ⟨_, he⟩ hevent

/-- **Proper lines make a log.** -/
theorem exists_ofLines (h : ∀ line ∈ lines, Proper line) (number : Nat) :
    ∃ log, ofLines number lines = .ok log := by
  induction lines generalizing number with
  | nil => exact ⟨[], rfl⟩
  | cons line lines ih =>
      obtain ⟨log, hlog⟩ := ih (fun l hl => h l (List.mem_cons_of_mem _ hl)) (number + 1)
      rcases h line List.mem_cons_self with hgap | ⟨e, he⟩
      · exact ⟨log, by rw [ofLines_of_gap hgap, hlog]⟩
      · exact ⟨e :: log, by rw [ofLines_of_standsOn he, hlog]; rfl⟩

/-- **The first line that is not proper is reported**, by its number among all lines. -/
theorem exists_ofLines_append {before behind : List (List Char)}
    (hbefore : ∀ l ∈ before, Proper l) (hline : ¬ Proper line) (number : Nat) :
    ∃ reason, ofLines number (before ++ line :: behind) =
      fail (.logFormat (number + before.length) reason) := by
  induction before generalizing number with
  | nil => exact exists_ofLines_of_not_proper hline number behind
  | cons first before ih =>
      obtain ⟨reason, hreason⟩ :=
        ih (fun l hl => hbefore l (List.mem_cons_of_mem _ hl)) (number + 1)
      have hnumber : number + 1 + before.length = number + (first :: before).length := by
        rw [List.length_cons]
        omega
      rw [hnumber] at hreason
      refine ⟨reason, ?_⟩
      rcases hbefore first List.mem_cons_self with hgap | ⟨e, he⟩
      · rw [List.cons_append, ofLines_of_gap hgap, hreason]
      · rw [List.cons_append, ofLines_of_standsOn he, hreason]
        rfl

/-- Lines that are not all proper have a first one that is not. -/
theorem exists_first_not_proper (h : ¬ ∀ line ∈ lines, Proper line) :
    ∃ before line behind, lines = before ++ line :: behind ∧ (∀ l ∈ before, Proper l) ∧
      ¬ Proper line := by
  induction lines with
  | nil => exact absurd (fun line hline => absurd hline List.not_mem_nil) h
  | cons line lines ih =>
      by_cases hline : Proper line
      · obtain ⟨before, l, behind, rfl, hbefore, hl⟩ :=
          ih fun hrest => h (List.forall_mem_cons.mpr ⟨hline, hrest⟩)
        exact ⟨line :: before, l, behind, rfl, List.forall_mem_cons.mpr ⟨hline, hbefore⟩, hl⟩
      · exact ⟨[], line, lines, rfl, fun l hl => absurd hl List.not_mem_nil, hline⟩

/-- **The texts of logs.** A log is read from a text exactly when each of its lines is blank or has
an event on it; its events are those on the lines that are not blank, in their order; and otherwise
the first line that is neither is reported, by its number among all lines. -/
theorem ofText_grammar (text : String) :
    ((∃ log, ofText text = .ok log) ↔
      ∀ line ∈ Text.lines text.toList, IsGap line ∨ ∃ e : Event, e.StandsOn line) ∧
    (∀ log, ofText text = .ok log ↔
      List.Forall₂ (fun line (e : Event) => e.StandsOn line)
        ((Text.lines text.toList).filter fun line => !line.all Text.isBlank) log) ∧
    ∀ number, (∃ reason, ofText text = fail (.logFormat number reason)) ↔
      ∃ before line behind, Text.lines text.toList = before ++ line :: behind ∧
        (∀ l ∈ before, IsGap l ∨ ∃ e : Event, e.StandsOn l) ∧
        ¬ (IsGap line ∨ ∃ e : Event, e.StandsOn line) ∧ number = before.length + 1 := by
  have hreport {before behind : List (List Char)} {line : List Char}
      (hlines : Text.lines text.toList = before ++ line :: behind)
      (hbefore : ∀ l ∈ before, Proper l) (hline : ¬ Proper line) :
      ∃ reason, ofText text = fail (.logFormat (before.length + 1) reason) := by
    rw [ofText, hlines, Nat.add_comm]
    exact exists_ofLines_append hbefore hline 1
  refine ⟨⟨?_, fun h => exists_ofLines h 1⟩, fun log => ofLines_eq_ok_iff 1, fun number => ⟨?_, ?_⟩⟩
  · rintro ⟨log, hlog⟩
    by_contra h
    obtain ⟨before, line, behind, hlines, hbefore, hline⟩ := exists_first_not_proper h
    obtain ⟨reason, hreason⟩ := hreport hlines hbefore hline
    rw [hlog] at hreason
    cases hreason
  · rintro ⟨reason, hfail⟩
    have hnot : ¬ ∀ line ∈ Text.lines text.toList, Proper line := by
      intro h
      obtain ⟨log, hlog⟩ := exists_ofLines h 1
      rw [ofText, hlog] at hfail
      cases hfail
    obtain ⟨before, line, behind, hlines, hbefore, hline⟩ := exists_first_not_proper hnot
    obtain ⟨reason', hreason⟩ := hreport hlines hbefore hline
    rw [hfail] at hreason
    obtain ⟨hnumber, -⟩ := Error.logFormat.inj (Fault.error.inj (Except.error.inj hreason))
    exact ⟨before, line, behind, hlines, hbefore, hline, hnumber⟩
  · rintro ⟨before, line, behind, hlines, hbefore, hline, rfl⟩
    exact hreport hlines hbefore hline

end Log

end CriticalSection
