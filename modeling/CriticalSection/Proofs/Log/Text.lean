import CriticalSection.Log.Text
import CriticalSection.Proofs.Text

/-!
# Logs as texts

The text of a log is read back, record by record, when the names of its processes are words.
-/

set_option autoImplicit false

namespace CriticalSection

/-! ## Events -/

namespace Event

variable {e : Event}

/-- The three parts of a line. -/
theorem toList_text (e : Event) :
    e.text.toList = e.process.toList ++ ' ' :: (e.kind.letter.toList ++ ' ' ::
      (toString e.time.toInt).toList) := by
  simp [text, String.toList_append]

theorem isWord_letter (kind : EventKind) : Text.IsWord kind.letter.toList := by
  cases kind <;> decide

theorem ofWord?_letter (kind : EventKind) : EventKind.ofWord? kind.letter = some kind := by
  cases kind <;> decide

/-- The words on the line of an event. -/
theorem words_text (h : Text.IsWord e.process.toList) :
    Text.words e.text.toList =
      [e.process.toList, e.kind.letter.toList, (toString e.time.toInt).toList] := by
  rw [toList_text, Text.words_append (by decide), Text.words_append (by decide), h.words,
    (isWord_letter e.kind).words, (Text.isWord_toString e.time.toInt).words]
  rfl

/-- **The line of an event is read back.** -/
theorem ofLine_text (h : Text.IsWord e.process.toList) (number : Nat) :
    ofLine number e.text.toList = .ok e := by
  have hwords : ofWords e.process e.kind.letter (toString e.time.toInt) = .ok e := by
    rw [ofWords, ofWord?_letter, Text.readInt64_toString]
  simp only [ofLine, words_text h, String.ofList_toList, hwords]

/-- An event stands on one line. -/
theorem not_mem_text (h : Text.IsWord e.process.toList) :
    ∀ c ∈ e.text.toList, c ≠ '\n' ∧ c ≠ '\r' := by
  -- Every character is a space or not blank, and the ends of lines are blank.
  have hchar : ∀ c ∈ e.text.toList, c = ' ' ∨ Text.isBlank c = false := by
    intro c hc
    rw [toList_text, List.mem_append, List.mem_cons, List.mem_append, List.mem_cons] at hc
    rcases hc with hc | rfl | hc | rfl | hc
    · exact Or.inr (h.2 c hc)
    · exact Or.inl rfl
    · exact Or.inr ((isWord_letter e.kind).2 c hc)
    · exact Or.inl rfl
    · exact Or.inr ((Text.isWord_toString e.time.toInt).2 c hc)
  intro c hc
  constructor <;> rintro rfl <;> exact absurd (hchar _ hc) (by decide)

/-- A line with an event on it is not skipped. -/
theorem text_not_blank (h : Text.IsWord e.process.toList) :
    e.text.toList.all Text.isBlank = false := by
  obtain ⟨c, rest, hprocess⟩ := List.exists_cons_of_ne_nil h.1
  have hc : Text.isBlank c = false := h.2 c (hprocess ▸ List.mem_cons_self)
  rw [toList_text, hprocess, List.cons_append, List.all_cons, hc, Bool.false_and]

end Event

/-! ## Logs -/

namespace Log

theorem text_cons (e : Event) (log : Log) : text (e :: log) = e.text ++ "\n" ++ log.text := by
  rw [text, List.map_cons, String.join_cons]
  rfl

theorem text_singleton (e : Event) : text [e] = e.text ++ "\n" := by
  rw [text_cons]
  exact String.append_empty

theorem text_append (log rest : Log) : text (log ++ rest) = log.text ++ text rest := by
  rw [text, List.map_append, String.join_append]
  rfl

/-- **The text of a log is its lines.** -/
theorem ofLines_lines {log : Log} (h : ∀ e ∈ log, Text.IsWord e.process.toList) (number : Nat) :
    ofLines number (Text.lines (text log).toList) = .ok log := by
  induction log generalizing number with
  | nil => rfl
  | cons e log ih =>
      have he := h e List.mem_cons_self
      have hlines : Text.lines (text (e :: log)).toList =
          e.text.toList :: Text.lines (text log).toList := by
        rw [text_cons, String.toList_append, String.toList_append, List.append_assoc]
        exact Text.lines_append (Event.not_mem_text he) _
      rw [hlines, ofLines, Event.text_not_blank he, Event.ofLine_text he,
        ih fun e' he' => h e' (List.mem_cons_of_mem _ he')]
      rfl

/-- **The text of a log is read back.** -/
theorem ofText_text {log : Log} (h : ∀ e ∈ log, Text.IsWord e.process.toList) :
    ofText log.text = .ok log :=
  ofLines_lines h 1

end Log

end CriticalSection
