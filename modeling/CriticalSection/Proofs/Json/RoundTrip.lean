import Mathlib.Tactic.SplitIfs
import CriticalSection.Json.Reader
import CriticalSection.Json.Writer
import CriticalSection.Proofs.Text

/-!
# Reading JSON that was written

Values made of texts and whole numbers (`Json.Plain`) are written on one line and read back as they
were, whatever stands behind them. A reader looks one character ahead only to see where a number
ends, so all that is asked of the text behind a value is that no number goes on there
(`Json.Ends`).
-/

set_option autoImplicit false

namespace CriticalSection

/-! ## Digits -/

namespace Decimal

theorem spanDigits_toDigits (n : Nat) {rest : List Char}
    (h : ∀ c ∈ rest.head?, c.isDigit = false) :
    spanDigits (Nat.toDigits 10 n ++ rest) = (Nat.toDigits 10 n, rest) := by
  rw [spanDigits, List.takeWhile_append_of_pos Text.isDigit_of_mem_toDigits,
    List.dropWhile_append_of_pos Text.isDigit_of_mem_toDigits]
  cases rest with
  | nil => simp
  | cons c rest => simp [h c rfl]

/-- The digits of a number are taken off a text in which no further digit is behind them. -/
theorem someDigits?_toDigits (n : Nat) {rest : List Char}
    (h : ∀ c ∈ rest.head?, c.isDigit = false) :
    someDigits? (Nat.toDigits 10 n ++ rest) = some (Nat.toDigits 10 n, rest) := by
  simp [someDigits?, spanDigits_toDigits n h]

/-- There is no exponent where no `e` stands, whichever digits would be read. -/
theorem readExponent?_of_head {rest : List Char} (h : ∀ c ∈ rest.head?, c ≠ 'e' ∧ c ≠ 'E')
    (digits? : List Char → Option (List Char × List Char)) :
    readExponent? digits? rest = some (none, rest) := by
  cases rest with
  | nil => rfl
  | cons c rest =>
      obtain ⟨he, hE⟩ := h c rfl
      simp [readExponent?, he, hE]

end Decimal

namespace Json

open Decimal (someDigits? readExponent? someDigits?_toDigits readExponent?_of_head)

/-! ## Strings -/

/-- Whether a piece of a string stands for a character, before any others. -/
def Piece.Spells (p : Piece) (c : Char) : Prop :=
  ∀ rest, textOfPieces? (p :: rest) = (textOfPieces? rest).map (c :: ·)

theorem spells_char (c : Char) : (Piece.char c).Spells c := fun _ => rfl

/-- A unit outside the surrogates stands for its character, also if another unit follows. -/
theorem spells_unit {c : Char} (h : c.toNat < 0xD800) : (Piece.unit c.toNat).Spells c := by
  have hhigh : ¬ (0xD800 ≤ c.toNat ∧ c.toNat < 0xDC00) := by omega
  have hlow : ¬ (0xDC00 ≤ c.toNat ∧ c.toNat < 0xE000) := by omega
  have hall : ¬ (0xD800 ≤ c.toNat ∧ c.toNat < 0xE000) := by omega
  intro rest
  cases rest with
  | nil => simp [textOfPieces?, hall]
  | cons p rest =>
      cases p with
      | char d => simp [textOfPieces?, hall]
      | unit low => simp [textOfPieces?, hhigh, hlow]

theorem hexValue?_hexDigit : ∀ n < 16, hexValue? (hexDigit n) = some n := by decide

/-- A backslash and a letter are read as the character they stand for. -/
theorem readPieces?_short {c d : Char} (hd : d ≠ 'u') (h : shortEscape? d = some c)
    (rest : List Char) :
    readPieces? ('\\' :: d :: rest) =
      (readPieces? rest).map fun (pieces, rest) => (.char c :: pieces, rest) := by
  rw [readPieces?]
  · rw [h]
    cases readPieces? rest <;> rfl
  · exact fun _ _ _ _ _ heq => absurd heq hd

/-- So are the characters below the space that have no letter of their own. -/
theorem readPieces?_unit {n : Nat} (h : n < 0x20) (rest : List Char) :
    readPieces? (['\\', 'u', '0', '0', hexDigit (n / 16), hexDigit (n % 16)] ++ rest) =
      (readPieces? rest).map fun (pieces, rest) => (.unit n :: pieces, rest) := by
  have hhigh := hexValue?_hexDigit (n / 16) (by omega)
  have hlow := hexValue?_hexDigit (n % 16) (by omega)
  have hzero : hexValue? '0' = some 0 := by decide
  have hvalue : n / 16 * 16 + n % 16 = n := by omega
  simp only [List.cons_append, List.nil_append, readPieces?, readUnit?, hzero, hhigh, hlow]
  cases readPieces? rest <;> simp [hvalue]

theorem readPieces?_ordinary {c : Char} (hquote : c ≠ '"') (hslash : c ≠ '\\')
    (h : ¬ c.toNat < 0x20) (rest : List Char) :
    readPieces? (c :: rest) =
      (readPieces? rest).map fun (pieces, rest) => (.char c :: pieces, rest) := by
  rw [readPieces?]
  · simp only [h, hslash]
    cases readPieces? rest <;> rfl
  -- the other equations are about a quote or a backslash
  all_goals simp_all

/-- **A character is read from what it is written as.** -/
theorem readPieces?_escape (c : Char) (rest : List Char) :
    ∃ p : Piece, p.Spells c ∧
      readPieces? (escape c ++ rest) =
        (readPieces? rest).map fun (pieces, rest) => (p :: pieces, rest) := by
  have hshort : ∀ d, d ≠ 'u' → shortEscape? d = some c → ∃ p : Piece, p.Spells c ∧
      readPieces? ('\\' :: d :: rest) =
        (readPieces? rest).map fun (pieces, rest) => (p :: pieces, rest) :=
    fun d hd h => ⟨.char c, spells_char c, readPieces?_short hd h rest⟩
  unfold escape
  split_ifs with hquote hslash hback hform hfeed hreturn htab hlow
  · exact hshort '"' (by decide) (by rw [hquote]; rfl)
  · exact hshort '\\' (by decide) (by rw [hslash]; rfl)
  · exact hshort 'b' (by decide) (by rw [hback]; rfl)
  · exact hshort 'f' (by decide) (by rw [hform]; rfl)
  · exact hshort 'n' (by decide) (by rw [hfeed]; rfl)
  · exact hshort 'r' (by decide) (by rw [hreturn]; rfl)
  · exact hshort 't' (by decide) (by rw [htab]; rfl)
  · exact ⟨.unit c.toNat, spells_unit (by omega), readPieces?_unit hlow rest⟩
  · exact ⟨.char c, spells_char c, readPieces?_ordinary hquote hslash hlow rest⟩

/-- The characters of a string are read up to the closing quote. -/
theorem readPieces?_flatMap_escape (content rest : List Char) :
    ∃ pieces, textOfPieces? pieces = some content ∧
      readPieces? (content.flatMap escape ++ '"' :: rest) = some (pieces, rest) := by
  induction content with
  | nil => exact ⟨[], rfl, by simp [readPieces?]⟩
  | cons c content ih =>
      obtain ⟨pieces, htext, hread⟩ := ih
      obtain ⟨p, hspells, hescape⟩ :=
        readPieces?_escape c (content.flatMap escape ++ '"' :: rest)
      refine ⟨p :: pieces, ?_, ?_⟩
      · rw [hspells, htext]
        rfl
      · rw [List.flatMap_cons, List.append_assoc, hescape, hread]
        rfl

/-- **A string is read back**, whatever its characters are. -/
theorem readString?_quoted (content : String) (rest : List Char) :
    readString? (content.toList.flatMap escape ++ '"' :: rest) = some (some content, rest) := by
  obtain ⟨pieces, htext, hread⟩ := readPieces?_flatMap_escape content.toList rest
  simp [readString?, hread, htext]

/-! ## Numbers -/

/-- What may stand behind a value: nothing with which a number would go on. -/
def Ends (rest : List Char) : Prop :=
  ∀ c ∈ rest.head?, c.isDigit = false ∧ c ≠ '.' ∧ c ≠ 'e' ∧ c ≠ 'E'

/-- The value of digits that stand behind others. -/
theorem digitsValue_eq (start : Nat) (digits : List Char) :
    Numeral.digitsValue start digits = Nat.ofDigitChars 10 digits start := by
  induction digits generalizing start with
  | nil => rfl
  | cons c digits ih =>
      rw [Nat.ofDigitChars_cons, Nat.mul_comm, ← ih]
      rfl

theorem digitsValue_toDigits (n : Nat) : Numeral.digitsValue 0 (Nat.toDigits 10 n) = n := by
  rw [digitsValue_eq, Nat.ofDigitChars_ten_toDigits]

/-- Digits that fit a word are taken into it. -/
theorem takeDigits_eq {word : Nat} {digits : List Char}
    (h : Nat.ofDigitChars 10 digits word ≤ lastWord) :
    takeDigits word digits = (Nat.ofDigitChars 10 digits word, []) := by
  induction digits generalizing word with
  | nil => rfl
  | cons c digits ih =>
      rw [Nat.ofDigitChars_cons, Nat.mul_comm] at h ⊢
      have hle := Nat.le_trans (Text.le_ofDigitChars digits _) h
      rw [takeDigits, if_pos hle, ih h]

/-- No number but zero is written with a zero at its front. -/
theorem eq_zero_of_head_toDigits {n : Nat} (h : (Nat.toDigits 10 n).head? = some '0') :
    n = 0 := by
  have hdigit : ∀ d < 10, Nat.digitChar d = '0' → d = 0 := by decide
  induction n using Nat.strongRecOn with
  | ind n ih =>
      rcases Nat.lt_or_ge n 10 with hlt | hge
      · rw [Nat.toDigits_of_lt_base hlt] at h
        exact hdigit n hlt (Option.some.inj h)
      · rw [Nat.toDigits_of_base_le (by decide) hge,
          List.head?_append, Option.or_of_isSome (by simp)] at h
        have hzero := ih (n / 10) (by omega) h
        omega

theorem ofInt_eq (n : Int) :
    Numeral.ofInt n = ⟨decide (n < 0), Nat.toDigits 10 n.natAbs, [], none⟩ := by
  rw [Numeral.ofInt, Nat.toString_eq_repr, Nat.repr_eq_ofList_toDigits, String.toList_ofList]

theorem Ends.isDigit {rest : List Char} (h : Ends rest) : ∀ c ∈ rest.head?, c.isDigit = false :=
  fun c hc => (h c hc).1

theorem Ends.readExponent? {rest : List Char} (h : Ends rest) :
    readExponent? someDigits? rest = some (none, rest) :=
  readExponent?_of_head (fun c hc => (h c hc).2.2) someDigits?

/-- What is read behind the sign of a number. -/
def readUnsigned? (negative : Bool) (text : List Char) : Option (Numeral × List Char) := do
  let (whole, rest) ← someDigits? text
  if whole.head? = some '0' ∧ whole.length ≠ 1 then none
  let (fraction, rest) ← match rest with
    | '.' :: rest => someDigits? rest
    | rest => some ([], rest)
  let (exponent, rest) ← readExponent? someDigits? rest
  return (⟨negative, whole, fraction, exponent⟩, rest)

theorem readNumeral?_of_isDigit {c : Char} (h : c.isDigit = true) (text : List Char) :
    readNumeral? (c :: text) = readUnsigned? false (c :: text) := by
  unfold readNumeral?
  split
  next negative rest heq =>
    split at heq
    · next hminus =>
        obtain ⟨rfl, -⟩ := List.cons.inj hminus
        cases h
    · obtain ⟨rfl, rfl⟩ := Prod.mk.inj heq
      rfl

/-- No zero stands in front of the digits of a number. -/
theorem not_leading_zero (n : Nat) :
    ¬ ((Nat.toDigits 10 n).head? = some '0' ∧ (Nat.toDigits 10 n).length ≠ 1) := by
  rintro ⟨hhead, hlength⟩
  rw [eq_zero_of_head_toDigits hhead] at hlength
  exact hlength rfl

theorem readUnsigned?_toDigits (negative : Bool) (n : Nat) {rest : List Char} (h : Ends rest) :
    readUnsigned? negative (Nat.toDigits 10 n ++ rest) =
      some (⟨negative, Nat.toDigits 10 n, [], none⟩, rest) := by
  rw [readUnsigned?, someDigits?_toDigits n h.isDigit]
  simp only [Option.bind_eq_bind, Option.bind_some, if_neg (not_leading_zero n)]
  split
  · next rest => exact absurd rfl (h '.' rfl).2.1
  · next rest _ =>
      simp [h.readExponent?]

theorem toList_text_ofInt (n : Int) :
    (Numeral.ofInt n).text.toList =
      (if n < 0 then ['-'] else []) ++ Nat.toDigits 10 n.natAbs := by
  simp [ofInt_eq, Numeral.text]

/-- A number starts with its sign if it is negative, and with its digits if not. -/
theorem readNumeral?_toDigits (negative : Bool) (n : Nat) (rest : List Char) :
    readNumeral? ((if negative then ['-'] else []) ++ (Nat.toDigits 10 n ++ rest)) =
      readUnsigned? negative (Nat.toDigits 10 n ++ rest) := by
  cases negative with
  | true => rfl
  | false =>
      cases hdigits : Nat.toDigits 10 n with
      | nil => exact absurd hdigits Nat.toDigits_ne_nil
      | cons d digits =>
          exact readNumeral?_of_isDigit
            (Text.isDigit_of_mem_toDigits d (hdigits ▸ List.mem_cons_self)) _

/-- **A whole number is read back** when what is behind it is no part of a number. -/
theorem readNumeral?_ofInt (n : Int) {rest : List Char} (h : Ends rest) :
    readNumeral? ((Numeral.ofInt n).text.toList ++ rest) = some (.ofInt n, rest) := by
  have hread := readNumeral?_toDigits (decide (n < 0)) n.natAbs rest
  rw [readUnsigned?_toDigits _ _ h] at hread
  rw [toList_text_ofInt, ofInt_eq, List.append_assoc, ← hread]
  simp

/-- A number is the one its numeral spells. -/
theorem intOfNumeral?_ofInt (n : Int) : intOfNumeral? (.ofInt n) = some n := by
  rw [ofInt_eq, intOfNumeral?]
  simp only [digitsValue_toDigits]
  by_cases hneg : n < 0
  · have hne : n.natAbs ≠ 0 := by omega
    have hback : -(n.natAbs : Int) = n := by omega
    simp only [List.isEmpty_nil, Option.isNone_none, Bool.and_self, if_true,
      decide_eq_true hneg, if_neg hne, hback]
  · have hback : (n.natAbs : Int) = n := by omega
    simp only [List.isEmpty_nil, Option.isNone_none, Bool.and_self, if_true,
      decide_eq_false hneg, if_neg Bool.false_ne_true, hback]

/-- A whole number that fits a 64-bit word is in the range of floating-point numbers. -/
theorem isSome_floatOfNumeral?_ofInt {n : Int} (h : n.natAbs ≤ lastWord) :
    (floatOfNumeral? (.ofInt n)).isSome = true := by
  have hvalue : Nat.ofDigitChars 10 (Nat.toDigits 10 n.natAbs) 0 = n.natAbs :=
    Nat.ofDigitChars_ten_toDigits
  have hword : takeDigits 0 (Nat.toDigits 10 n.natAbs) = (n.natAbs, []) := by
    rw [takeDigits_eq (hvalue.symm ▸ h), hvalue]
  rw [ofInt_eq, floatOfNumeral?, hword]
  simp [takeDigits, scale]

/-! ## Values -/

/-- **Plain values**: texts, whole numbers of 64 bits, and what is made of them with at most so
many levels of arrays and objects. -/
inductive Plain : Nat → Json → Prop
  | text (levels : Nat) (content : String) : Plain levels (.ofString content)
  | int (levels : Nat) {n : Int} (fits : n.natAbs ≤ lastWord) : Plain levels (.ofInt n)
  | array {levels : Nat} {items : List Json} (all : ∀ item ∈ items, Plain levels item) :
      Plain (levels + 1) (.array items)
  | object {levels : Nat} {fields : List (String × Json)}
      (all : ∀ field ∈ fields, Plain levels field.2) : Plain (levels + 1) (.ofFields fields)

/-- How a value starts: not with a blank, which would be left out, nor like the end of an
array. -/
def Starts (text : List Char) : Prop :=
  ∃ c rest, text = c :: rest ∧ isSpace c = false ∧ c ≠ ']'

/-- **A value that is read back** from what it is written as, also when something stands behind
it. One step for each character is enough. -/
structure Readable (j : Json) : Prop where
  starts : Starts j.compact
  read : ∀ steps rest, j.compact.length ≤ steps → Ends rest →
    readValue? steps (j.compact ++ rest) = some (j, rest)

theorem ends_nil : Ends [] := by simp [Ends]

/-- The marks that stand behind the values of arrays and objects. -/
theorem ends_cons {c : Char} (h : c = ',' ∨ c = ']' ∨ c = '\x7d') (rest : List Char) :
    Ends (c :: rest) := by
  rintro d hd
  obtain rfl := Option.some.inj hd
  rcases h with rfl | rfl | rfl <;> decide

theorem skip_of_not_isSpace {c : Char} (h : isSpace c = false) (rest : List Char) :
    skip (c :: rest) = c :: rest := by
  simp [skip, h]

theorem readable_ofString (content : String) : Readable (.ofString content) where
  starts := ⟨'"', _, rfl, by decide, by decide⟩
  read steps rest hsteps _ := by
    have hcompact : (ofString content).compact =
        '"' :: (content.toList.flatMap escape ++ ['"']) := rfl
    rw [hcompact, List.length_cons] at hsteps
    obtain ⟨steps, rfl⟩ : ∃ k, steps = k + 1 := ⟨steps - 1, by omega⟩
    rw [hcompact, List.cons_append, List.append_assoc, List.singleton_append, readValue?,
      skip_of_not_isSpace (by decide)]
    simp only [readString?_quoted]
    rfl

/-- With what a number starts. -/
def StartsNumber (c : Char) : Prop := c = '-' ∨ c.isDigit = true

instance (c : Char) : Decidable (StartsNumber c) := inferInstanceAs (Decidable (_ ∨ _))

theorem ne_of_startsNumber {c d : Char} (h : StartsNumber c) (hd : ¬ StartsNumber d) : c ≠ d :=
  fun heq => hd (heq ▸ h)

theorem isSpace_of_startsNumber {c : Char} (h : StartsNumber c) : isSpace c = false := by
  have hspace : c ≠ ' ' := ne_of_startsNumber h (by decide)
  have htab : c ≠ '\t' := ne_of_startsNumber h (by decide)
  have hfeed : c ≠ '\n' := ne_of_startsNumber h (by decide)
  have hreturn : c ≠ '\r' := ne_of_startsNumber h (by decide)
  simp [isSpace, hspace, htab, hfeed, hreturn]

/-- The first character of a number tells it from all other values. -/
theorem readValue?_of_startsNumber {c : Char} (h : StartsNumber c) (steps : Nat)
    (rest : List Char) :
    readValue? (steps + 1) (c :: rest) =
      (readNumeral? (c :: rest)).map fun (numeral, rest) => (.number numeral, rest) := by
  rw [readValue?, skip_of_not_isSpace (isSpace_of_startsNumber h)]
  split
  -- every arm but the last asks for another first character
  all_goals
    first
    | rfl
    | next heq => exact absurd (List.cons.inj heq).1 (ne_of_startsNumber h (by decide))

theorem exists_startsNumber (negative : Bool) (n : Nat) (rest : List Char) :
    ∃ c tail, (if negative then ['-'] else []) ++ (Nat.toDigits 10 n ++ rest) = c :: tail ∧
      StartsNumber c := by
  cases negative with
  | true => exact ⟨'-', _, rfl, .inl rfl⟩
  | false =>
      cases hdigits : Nat.toDigits 10 n with
      | nil => exact absurd hdigits Nat.toDigits_ne_nil
      | cons d digits =>
          exact ⟨d, digits ++ rest, rfl,
            .inr (Text.isDigit_of_mem_toDigits d (hdigits ▸ List.mem_cons_self))⟩

theorem exists_text_ofInt (n : Int) :
    ∃ c rest, (Numeral.ofInt n).text.toList = c :: rest ∧ StartsNumber c := by
  rw [toList_text_ofInt]
  simpa using exists_startsNumber (decide (n < 0)) n.natAbs []

/-- A number is read back if its numeral is. -/
theorem readable_number {n : Numeral}
    (hstart : ∃ c tail, n.text.toList = c :: tail ∧ StartsNumber c)
    (hread : ∀ rest, Ends rest → readNumeral? (n.text.toList ++ rest) = some (n, rest)) :
    Readable (.number n) := by
  obtain ⟨c, tail, htext, hc⟩ := hstart
  have hcompact : (number n).compact = c :: tail := htext
  refine ⟨⟨c, tail, hcompact, isSpace_of_startsNumber hc, ne_of_startsNumber hc (by decide)⟩,
    fun steps rest hsteps hrest => ?_⟩
  rw [hcompact, List.length_cons] at hsteps
  obtain ⟨steps, rfl⟩ : ∃ k, steps = k + 1 := ⟨steps - 1, by omega⟩
  have hread := hread rest hrest
  rw [htext] at hread
  rw [hcompact, List.cons_append, readValue?_of_startsNumber hc, ← List.cons_append, hread]
  rfl

theorem readable_ofInt (n : Int) : Readable (.ofInt n) :=
  readable_number (exists_text_ofInt n) fun _ => readNumeral?_ofInt n

/-! ### Arrays -/

theorem Starts.skip_eq {text : List Char} (h : Starts text) : skip text = text := by
  obtain ⟨c, tail, rfl, hspace, -⟩ := h
  exact skip_of_not_isSpace hspace tail

theorem Starts.append {text : List Char} (h : Starts text) (rest : List Char) :
    Starts (text ++ rest) := by
  obtain ⟨c, tail, rfl, hspace, hc⟩ := h
  exact ⟨c, tail ++ rest, rfl, hspace, hc⟩

theorem readValue?_array {input text : List Char} (hskip : skip input = text) (h : Starts text)
    (steps : Nat) :
    readValue? (steps + 1) ('[' :: input) =
      (readItems? steps text).map fun (items, rest) => (.array items, rest) := by
  obtain ⟨c, rest, rfl, hspace, hc⟩ := h
  rw [readValue?, skip_of_not_isSpace (by decide)]
  simp only [hskip]
  split
  · next heq => exact absurd (List.cons.inj heq).1 hc
  · rfl

theorem readItems?_last {item : Json} {text tail rest : List Char} {steps : Nat}
    (h : readValue? steps text = some (item, tail)) (htail : skip tail = ']' :: rest) :
    readItems? (steps + 1) text = some ([item], rest) := by
  rw [readItems?, h]
  simp [htail]

theorem readItems?_comma {item : Json} {text rest : List Char} {steps : Nat}
    (h : readValue? steps text = some (item, ',' :: rest)) :
    readItems? (steps + 1) text =
      (readItems? steps rest).map fun (items, rest) => (item :: items, rest) := by
  rw [readItems?, h]
  have hskip : skip (',' :: rest) = ',' :: rest := skip_of_not_isSpace (by decide) rest
  simp only [Option.bind_eq_bind, Option.bind_some, hskip]
  cases readItems? steps rest <;> rfl

/-- **The items of an array are read back** up to its closing bracket. -/
theorem readItems?_compactItems {items : List Json} (h : ∀ item ∈ items, Readable item)
    (hne : items ≠ []) {steps : Nat} (hsteps : (compactItems items).length < steps)
    (rest : List Char) :
    readItems? steps (compactItems items ++ ']' :: rest) = some (items, rest) := by
  induction items generalizing steps with
  | nil => exact absurd rfl hne
  | cons item items ih =>
      -- one step is for this item, the others are for what it and those behind it are made of
      obtain ⟨steps, rfl⟩ : ∃ k, steps = k + 1 := ⟨steps - 1, by omega⟩
      have hitem := (h item List.mem_cons_self).read steps
      cases items with
      | nil =>
          simp only [compactItems, List.isEmpty_nil, if_true, List.append_nil] at hsteps ⊢
          exact readItems?_last (hitem _ (by omega) (ends_cons (by simp) rest)) rfl
      | cons next items =>
          have hcompact : compactItems (item :: next :: items) =
              item.compact ++ ',' :: compactItems (next :: items) := rfl
          rw [hcompact, List.length_append, List.length_cons] at hsteps
          rw [hcompact, List.append_assoc, List.cons_append,
            readItems?_comma (hitem _ (by omega) (ends_cons (by simp) _)),
            ih (fun j hj => h j (List.mem_cons_of_mem _ hj)) (by simp) (by omega)]
          rfl

theorem readable_array {items : List Json} (h : ∀ item ∈ items, Readable item) :
    Readable (.array items) := by
  refine ⟨⟨'[', _, rfl, by decide, by decide⟩, fun steps rest hsteps _ => ?_⟩
  have hcompact : (array items).compact = '[' :: (compactItems items ++ [']']) := rfl
  rw [hcompact, List.length_cons, List.length_append] at hsteps
  obtain ⟨steps, rfl⟩ : ∃ k, steps = k + 1 := ⟨steps - 1, by omega⟩
  rw [hcompact, List.cons_append, List.append_assoc, List.singleton_append]
  cases items with
  | nil => simp [compactItems, readValue?, skip, isSpace]
  | cons item items =>
      have hstarts : Starts (compactItems (item :: items) ++ ']' :: rest) :=
        ((h item List.mem_cons_self).starts.append _).append _
      have hlength : (compactItems (item :: items)).length < steps := by
        simp only [List.length_singleton] at hsteps
        omega
      rw [readValue?_array hstarts.skip_eq hstarts, readItems?_compactItems h (by simp) hlength]
      rfl

/-! ### Objects -/

theorem readValue?_object {input text : List Char} (hskip : skip input = '"' :: text)
    (steps : Nat) :
    readValue? (steps + 1) ('\x7b' :: input) =
      (readFields? steps ('"' :: text)).map fun (fields, rest) => (.object fields, rest) := by
  rw [readValue?, skip_of_not_isSpace (by decide)]
  simp only [hskip]
  rfl

theorem readFields?_last {name : String} {value : Json} {text tail rest : List Char}
    {steps : Nat} (h : readValue? steps text = some (value, tail))
    (htail : skip tail = '\x7d' :: rest) :
    readFields? (steps + 1) (quoted name ++ ':' :: text) = some ([(some name, value)], rest) := by
  have hskip (text : List Char) : skip ('"' :: text) = '"' :: text :=
    skip_of_not_isSpace (by decide) text
  have hcolon : skip (':' :: text) = ':' :: text := skip_of_not_isSpace (by decide) text
  simp [readFields?, quoted, hskip, hcolon, readString?_quoted, h, htail]

theorem readFields?_comma {name : String} {value : Json} {text rest : List Char} {steps : Nat}
    (h : readValue? steps text = some (value, ',' :: rest)) :
    readFields? (steps + 1) (quoted name ++ ':' :: text) =
      (readFields? steps rest).map fun (fields, rest) => ((some name, value) :: fields, rest) := by
  cases hrest : readFields? steps rest <;>
    simp [readFields?, quoted, skip, isSpace, readString?_quoted, h, hrest]

/-- Fields with their names, as an object holds them. -/
def named (fields : List (String × Json)) : List (Option String × Json) :=
  fields.map fun (name, value) => (some name, value)

/-- **The fields of an object are read back** up to its closing brace. -/
theorem readFields?_compactFields {fields : List (String × Json)}
    (h : ∀ field ∈ fields, Readable field.2) (hne : fields ≠ []) {steps : Nat}
    (hsteps : (compactFields (named fields)).length < steps) (rest : List Char) :
    readFields? steps (compactFields (named fields) ++ '\x7d' :: rest) =
      some (named fields, rest) := by
  induction fields generalizing steps with
  | nil => exact absurd rfl hne
  | cons field fields ih =>
      obtain ⟨name, value⟩ := field
      obtain ⟨steps, rfl⟩ : ∃ k, steps = k + 1 := ⟨steps - 1, by omega⟩
      have hvalue : ∀ rest, value.compact.length ≤ steps → Ends rest →
          readValue? steps (value.compact ++ rest) = some (value, rest) :=
        (h (name, value) List.mem_cons_self).read steps
      cases fields with
      | nil =>
          have hcompact : compactFields (named [(name, value)]) =
              quoted name ++ ':' :: value.compact := by simp [named, compactFields]
          rw [hcompact, List.length_append, List.length_cons] at hsteps
          rw [hcompact, List.append_assoc, List.cons_append]
          exact readFields?_last (hvalue _ (by omega) (ends_cons (by simp) rest)) rfl
      | cons next fields =>
          have hcompact : compactFields (named ((name, value) :: next :: fields)) =
              quoted name ++ ':' :: value.compact ++
                ',' :: compactFields (named (next :: fields)) := rfl
          rw [hcompact, List.length_append, List.length_append, List.length_cons,
            List.length_cons] at hsteps
          rw [hcompact, List.append_assoc, List.append_assoc, List.cons_append, List.cons_append,
            readFields?_comma (hvalue _ (by omega) (ends_cons (by simp) _)),
            ih (fun f hf => h f (List.mem_cons_of_mem _ hf)) (by simp) (by omega)]
          rfl

theorem readable_ofFields {fields : List (String × Json)}
    (h : ∀ field ∈ fields, Readable field.2) : Readable (.ofFields fields) := by
  refine ⟨⟨'\x7b', _, rfl, by decide, by decide⟩, fun steps rest hsteps _ => ?_⟩
  have hcompact : (ofFields fields).compact =
      '\x7b' :: (compactFields (named fields) ++ ['\x7d']) := rfl
  rw [hcompact, List.length_cons, List.length_append] at hsteps
  obtain ⟨steps, rfl⟩ : ∃ k, steps = k + 1 := ⟨steps - 1, by omega⟩
  rw [hcompact, List.cons_append, List.append_assoc, List.singleton_append]
  cases fields with
  | nil => simp [named, compactFields, ofFields, readValue?, skip, isSpace]
  | cons field fields =>
      have hlength : (compactFields (named (field :: fields))).length < steps := by
        simp only [List.length_singleton] at hsteps
        omega
      have hread := readFields?_compactFields h (by simp) hlength rest
      obtain ⟨tail, htail⟩ : ∃ tail, compactFields (named (field :: fields)) = '"' :: tail :=
        ⟨_, rfl⟩
      rw [htail, List.cons_append] at hread ⊢
      rw [readValue?_object (skip_of_not_isSpace (by decide) _), hread]
      rfl

/-! ## Reading -/

theorem Plain.readable {levels : Nat} {j : Json} (h : j.Plain levels) : j.Readable := by
  induction h with
  | text levels content => exact readable_ofString content
  | int levels fits => exact readable_ofInt _
  | array all ih => exact readable_array ih
  | object all ih => exact readable_ofFields ih

theorem strictItems_of_forall {levels : Nat} {items : List Json}
    (h : ∀ item ∈ items, strict levels item = true) : strictItems levels items = true := by
  induction items with
  | nil => rfl
  | cons item items ih =>
      rw [strictItems, h item List.mem_cons_self,
        ih fun j hj => h j (List.mem_cons_of_mem _ hj)]
      rfl

theorem strictFields_of_forall {levels : Nat} {fields : List (String × Json)}
    (h : ∀ field ∈ fields, strict levels field.2 = true) :
    strictFields levels (named fields) = true := by
  induction fields with
  | nil => rfl
  | cons field fields ih =>
      obtain ⟨name, value⟩ := field
      have hvalue : strict levels value = true := h (name, value) List.mem_cons_self
      have hrest := ih fun f hf => h f (List.mem_cons_of_mem _ hf)
      rw [named, List.map_cons, strictFields, hvalue, ← named, hrest]
      rfl

/-- **A plain value is a proper one**: it stays in its levels and in the range of numbers. -/
theorem Plain.strict {levels : Nat} {j : Json} (h : j.Plain levels) :
    j.strict levels = true := by
  induction h with
  | text levels content => rfl
  | int levels fits => exact isSome_floatOfNumeral?_ofInt fits
  | array all ih =>
      rw [Json.strict, Nat.add_sub_cancel, strictItems_of_forall ih]
      simp
  | object all ih =>
      rw [ofFields, ← named, Json.strict, Nat.add_sub_cancel, strictFields_of_forall ih]
      simp

/-- **A plain value is read from what it is written as.** -/
theorem Plain.read?_compact {levels : Nat} {j : Json} (h : j.Plain levels) :
    read? j.compact = some j := by
  have hread := h.readable.read (2 * j.compact.length + 2) [] (by omega) ends_nil
  rw [List.append_nil] at hread
  simp [read?, hread, skip]

end Json

end CriticalSection
