import CriticalSection.Proofs.Wire.Message

/-!
# Lines that stay apart

The text of a plain value holds no character below the space: in a string these are written with a
backslash, and outside the strings there are only marks, digits and the names of the fields. So the
line feed behind a message is the only one of its line, and lines that are sent one behind the
other are cut where they were put together.
-/

set_option autoImplicit false

namespace CriticalSection

namespace Json

/-! ## What is written -/

/-- Whether a text holds no control character: nothing below the space. -/
def Visible (text : List Char) : Prop := ∀ c ∈ text, ' '.toNat ≤ c.toNat

-- By going through the text: one could also go through all characters there are.
instance (text : List Char) : Decidable (Visible text) :=
  List.decidableBAll (fun c : Char => ' '.toNat ≤ c.toNat) text

theorem visible_append {x y : List Char} : Visible (x ++ y) ↔ Visible x ∧ Visible y :=
  List.forall_mem_append

theorem visible_cons {c : Char} {x : List Char} :
    Visible (c :: x) ↔ ' '.toNat ≤ c.toNat ∧ Visible x :=
  List.forall_mem_cons

theorem Visible.ne {text : List Char} (h : Visible text) {c : Char} (hc : c.toNat < ' '.toNat) :
    c ∉ text :=
  fun hmem => absurd (h c hmem) (Nat.not_le.mpr hc)

theorem visible_hexDigit : ∀ n < 16, ' '.toNat ≤ (hexDigit n).toNat := by decide

/-- **No character is written as a control character**, not even one that is. -/
theorem visible_escape (c : Char) : Visible (escape c) := by
  unfold escape
  split_ifs with hquote hslash hback hform hfeed hreturn htab hlow
  -- the characters with a letter of their own
  iterate 7 decide
  · have hhigh := visible_hexDigit (c.toNat / 16) (by omega)
    have hrest := visible_hexDigit (c.toNat % 16) (by omega)
    have hslash : ' '.toNat ≤ '\\'.toNat := by decide
    have hletter : ' '.toNat ≤ 'u'.toNat := by decide
    have hzero : ' '.toNat ≤ '0'.toNat := by decide
    simp only [visible_cons]
    exact ⟨hslash, hletter, hzero, hzero, hhigh, hrest, by decide⟩
  · exact visible_cons.mpr ⟨Nat.not_lt.mp hlow, by decide⟩

theorem visible_quoted (content : String) : Visible (quoted content) := by
  have hcontent : Visible (content.toList.flatMap escape) := by
    intro d hd
    obtain ⟨c, -, hd⟩ := List.mem_flatMap.mp hd
    exact visible_escape c d hd
  exact visible_cons.mpr ⟨by decide, visible_append.mpr ⟨hcontent, by decide⟩⟩

theorem visible_of_isDigit {c : Char} (h : c.isDigit = true) : ' '.toNat ≤ c.toNat := by
  have htoNat : c.toNat = c.val.toNat := rfl
  have hspace : ' '.toNat = 32 := rfl
  simp only [Char.isDigit, ge_iff_le, Bool.and_eq_true, decide_eq_true_eq,
    UInt32.le_iff_toNat_le] at h
  have hlow : (48 : UInt32).toNat ≤ c.val.toNat := h.1
  have hzero : (48 : UInt32).toNat = 48 := rfl
  omega

theorem visible_text_ofInt (n : Int) : Visible (Numeral.ofInt n).text.toList := by
  have hsign : Visible (if n < 0 then ['-'] else []) := by split <;> decide
  have hdigits : Visible (Nat.toDigits 10 n.natAbs) :=
    fun c hc => visible_of_isDigit (Text.isDigit_of_mem_toDigits c hc)
  rw [toList_text_ofInt]
  exact visible_append.mpr ⟨hsign, hdigits⟩

theorem visible_compactItems {items : List Json} (h : ∀ item ∈ items, Visible item.compact) :
    Visible (compactItems items) := by
  induction items with
  | nil => decide
  | cons item items ih =>
      obtain ⟨hitem, hitems⟩ := List.forall_mem_cons.mp h
      have hrest : Visible (',' :: compactItems items) := visible_cons.mpr ⟨by decide, ih hitems⟩
      rw [compactItems]
      refine visible_append.mpr ⟨hitem, ?_⟩
      split
      · decide
      · exact hrest

theorem visible_compactFields {fields : List (String × Json)}
    (h : ∀ field ∈ fields, Visible field.2.compact) : Visible (compactFields (named fields)) := by
  induction fields with
  | nil => decide
  | cons field fields ih =>
      obtain ⟨name, value⟩ := field
      obtain ⟨hvalue, hfields⟩ := List.forall_mem_cons.mp h
      have hrest : Visible (',' :: compactFields (named fields)) :=
        visible_cons.mpr ⟨by decide, ih hfields⟩
      rw [named, List.map_cons, ← named, compactFields]
      refine visible_append.mpr ⟨visible_append.mpr
        ⟨visible_quoted name, visible_cons.mpr ⟨by decide, hvalue⟩⟩, ?_⟩
      split
      · decide
      · exact hrest

/-- **A plain value is written without control characters**, whatever texts are in it. -/
theorem Plain.visible_compact {levels : Nat} {j : Json} (h : j.Plain levels) :
    Visible j.compact := by
  induction h with
  | text levels content => exact visible_quoted content
  | int levels fits => exact visible_text_ofInt _
  | array all ih =>
      exact visible_cons.mpr
        ⟨by decide, visible_append.mpr ⟨visible_compactItems ih, by decide⟩⟩
  | object all ih =>
      exact visible_cons.mpr
        ⟨by decide, visible_append.mpr ⟨visible_compactFields ih, by decide⟩⟩

end Json

/-! ## Cutting a stream -/

namespace Text

/-- Whether a character is the end of a line. -/
def isFeed (c : Char) : Bool := c == '\n'

/-- A first piece ends at the first separator. -/
theorem pieces_first {separates : Char → Bool} {c : Char} (hc : separates c = true)
    {w : List Char} (hw : ∀ d ∈ w, separates d = false) (rest : List Char) :
    pieces separates (w ++ c :: rest) = w :: pieces separates rest := by
  rw [pieces_append hc, pieces_of_unbroken hw]
  rfl

end Text

namespace Wire

variable {α : Type}

/-- **A line as it is sent**: its only line feed stands at its end, and no carriage return
before it. -/
structure IsLine (line : String) : Prop where
  one : line.toList.count '\n' = 1
  last : line.toList.getLast? = some '\n'
  unreturned : '\r' ∉ line.toList

/-- **A way to send messages in lines** that arrive as they were sent.

`apart`: what is sent is cut at the line feeds into one piece for each message, with nothing behind
the last of them, and the messages are read from these pieces in their order; this is the same for
a reader of whole lines. `again`: a line that is read at all, however it was written, gives the same
message as the line of that message. -/
structure Framed (write : α → String) (read : String → Outcome α) : Prop where
  isLine : ∀ message, IsLine (write message)
  arrives : ∀ message, read (write message) = .ok message
  apart : ∀ messages : List α, ∃ bodies : List (List Char),
    Text.pieces Text.isFeed (messages.flatMap fun m => (write m).toList) = bodies ++ [[]] ∧
    Text.lines (messages.flatMap fun m => (write m).toList) = bodies ∧
    bodies.map (fun body => read (String.ofList body)) = messages.map .ok
  again : ∀ line, ((read line).bind fun message => read (write message)) = read line

theorem toList_encode (j : Json) : (encode j).toList = j.compact ++ ['\n'] :=
  String.toList_ofList

/-- The blank at the end of a line is not looked at, nor is it missed. -/
theorem decode_ofList_compact {ofJson? : Json → Option α} {j : Json}
    (h : j.Plain Json.maxLevels) :
    decode ofJson? (String.ofList j.compact) = decode ofJson? (encode j) := by
  obtain ⟨text, c, hcompact, hc⟩ := h.exists_compact_eq
  have hfeed : Text.isBlank '\n' = true := by decide
  have htrim : Text.trimEnd (String.ofList j.compact).toList =
      Text.trimEnd (encode j).toList := by
    simp [encode, hcompact, Text.trimEnd, hfeed, hc]
  rw [decode, decode, htrim]

theorem isLine_encode {levels : Nat} {j : Json} (h : j.Plain levels) : IsLine (encode j) := by
  have hfeed : '\n' ∉ j.compact := h.visible_compact.ne (by decide)
  have hreturn : '\r' ∉ j.compact := h.visible_compact.ne (by decide)
  refine ⟨?_, ?_, ?_⟩
  · rw [toList_encode, List.count_append, List.count_eq_zero_of_not_mem hfeed]
    rfl
  · rw [toList_encode, List.getLast?_concat]
  · rw [toList_encode]
    simp [hreturn]

/-- **The lines of plain values come apart** where they were put together. -/
theorem pieces_encode {levels : Nat} {js : List Json} (h : ∀ j ∈ js, j.Plain levels) :
    Text.pieces Text.isFeed (js.flatMap fun j => (encode j).toList) =
      js.map Json.compact ++ [[]] := by
  induction js with
  | nil => rfl
  | cons j js ih =>
      obtain ⟨hj, hjs⟩ := List.forall_mem_cons.mp h
      have hunbroken : ∀ c ∈ j.compact, Text.isFeed c = false := by
        intro c hc
        have hne : c ≠ '\n' := fun heq => hj.visible_compact.ne (by decide) (heq ▸ hc)
        simp [Text.isFeed, hne]
      rw [List.flatMap_cons, toList_encode, List.append_assoc, List.singleton_append,
        Text.pieces_first (by decide) hunbroken, ih hjs]
      rfl

theorem lines_encode {levels : Nat} {js : List Json} (h : ∀ j ∈ js, j.Plain levels) :
    Text.lines (js.flatMap fun j => (encode j).toList) = js.map Json.compact := by
  induction js with
  | nil => rfl
  | cons j js ih =>
      obtain ⟨hj, hjs⟩ := List.forall_mem_cons.mp h
      have hinner : ∀ c ∈ j.compact, c ≠ '\n' ∧ c ≠ '\r' := fun c hc =>
        ⟨fun heq => hj.visible_compact.ne (by decide) (heq ▸ hc),
          fun heq => hj.visible_compact.ne (by decide) (heq ▸ hc)⟩
      rw [List.flatMap_cons, toList_encode, List.append_assoc, List.singleton_append,
        Text.lines_append hinner, ih hjs]
      rfl

/-- Messages with plain records travel in lines, if each is read back from its line. -/
theorem framed_of_plain {json : α → Json} {ofJson? : Json → Option α}
    (hplain : ∀ message, (json message).Plain Json.maxLevels)
    (harrives : ∀ message, decode ofJson? (encode (json message)) = .ok message) :
    Framed (fun message => encode (json message)) (decode ofJson?) where
  isLine message := isLine_encode (hplain message)
  arrives := harrives
  apart messages := by
    have hrecords : ∀ j ∈ messages.map json, j.Plain Json.maxLevels := by
      intro j hj
      obtain ⟨message, -, rfl⟩ := List.mem_map.mp hj
      exact hplain message
    refine ⟨(messages.map json).map Json.compact, ?_, ?_, ?_⟩
    · rw [← pieces_encode hrecords, List.flatMap_map]
    · rw [← lines_encode hrecords, List.flatMap_map]
    · rw [List.map_map, List.map_map]
      refine List.map_congr_left fun message _ => ?_
      exact (decode_ofList_compact (hplain message)).trans (harrives message)
  again line := by
    cases decode ofJson? line with
    | error fault => rfl
    | ok message => exact harrives message

/-- **Messages travel in lines.** Every operation and every reply is sent as a line with one line
feed, its last character, and no carriage return; a stream of such lines is cut at the line feeds
into pieces from which exactly the messages that were sent are read; and a line that is read at all
gives the same message once it is written anew. -/
theorem framed_operationLine_and_replyLine :
    Framed operationLine readOperation ∧ Framed replyLine readReply :=
  ⟨framed_of_plain (fun operation => operation.plain_json 125) readOperation_operationLine,
    framed_of_plain (fun reply => reply.plain_json 125) readReply_replyLine⟩

end Wire

end CriticalSection
