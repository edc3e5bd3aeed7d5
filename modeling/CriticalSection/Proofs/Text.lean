import CriticalSection.Text.Integer
import CriticalSection.Text.Lines

/-!
# Reading what was written

Pieces between separators come apart where they were put together, and so do lines and words; a
whole number is read from its digits.
-/

set_option autoImplicit false

namespace CriticalSection.Text

/-! ## Pieces and words -/

section Pieces

variable {separates : Char → Bool} {c : Char} {w x y : List Char}

theorem pieces_cons (separates : Char → Bool) (c : Char) (x : List Char) :
    pieces separates (c :: x) =
      if separates c then [] :: pieces separates x else pushFirst c (pieces separates x) := rfl

theorem pieces_ne_nil (separates : Char → Bool) (x : List Char) : pieces separates x ≠ [] := by
  cases x with
  | nil => simp [pieces]
  | cons c x =>
      rw [pieces_cons]
      split
      · simp
      · unfold pushFirst
        split <;> simp

theorem pushFirst_append {ps : List (List Char)} (h : ps ≠ []) (c : Char)
    (qs : List (List Char)) : pushFirst c (ps ++ qs) = pushFirst c ps ++ qs := by
  cases ps with
  | nil => exact absurd rfl h
  | cons p ps => rfl

/-- **A text comes apart at a separator**, whatever is before it and behind. -/
theorem pieces_append (hc : separates c = true) (x y : List Char) :
    pieces separates (x ++ c :: y) = pieces separates x ++ pieces separates y := by
  induction x with
  | nil => simp [pieces, hc]
  | cons d x ih =>
      rw [List.cons_append, pieces_cons, pieces_cons, ih]
      split
      · rfl
      · exact pushFirst_append (pieces_ne_nil separates x) d _

/-- A text without a separator is one piece. -/
theorem pieces_of_unbroken (h : ∀ c ∈ w, separates c = false) : pieces separates w = [w] := by
  induction w with
  | nil => rfl
  | cons c w ih =>
      have hc := h c List.mem_cons_self
      rw [pieces_cons, hc, ih fun d hd => h d (List.mem_cons_of_mem _ hd)]
      rfl

theorem words_append (hc : isBlank c = true) (x y : List Char) :
    words (x ++ c :: y) = words x ++ words y := by
  unfold words
  rw [pieces_append hc, List.filter_append]

/-- **A word**: a text that is not empty and has no blank in it. -/
def IsWord (w : List Char) : Prop := w ≠ [] ∧ ∀ c ∈ w, isBlank c = false

instance (w : List Char) : Decidable (IsWord w) :=
  decidable_of_iff ((!w.isEmpty && w.all fun c => !isBlank c) = true) (by simp [IsWord])

theorem IsWord.words (h : IsWord w) : words w = [w] := by
  unfold Text.words
  rw [pieces_of_unbroken h.2]
  simp [h.1]

end Pieces

/-! ## Lines -/

/-- A line without the carriage return at its end. -/
def withoutReturn (w : List Char) : List Char := if w.getLast? = some '\r' then w.dropLast else w

theorem withoutReturn_cons {w : List Char} (h : w ≠ []) (c : Char) :
    withoutReturn (c :: w) = c :: withoutReturn w := by
  obtain ⟨d, w, rfl⟩ := List.exists_cons_of_ne_nil h
  rw [withoutReturn, withoutReturn, List.getLast?_cons_cons, List.dropLast_cons_cons]
  split <;> rfl

/-- A character that ends no line stands on the first one. -/
theorem lines_cons {c : Char} {x : List Char} (hfeed : c ≠ '\n')
    (hreturn : c = '\r' → x.head? ≠ some '\n') : lines (c :: x) = pushFirst c (lines x) := by
  rw [lines]
  · exact hfeed
  · rintro rest rfl rfl
    exact hreturn rfl rfl

/-- **A line ends at its line feed**, and a carriage return before it belongs to its end. -/
theorem lines_feed {w : List Char} (h : '\n' ∉ w) (rest : List Char) :
    lines (w ++ '\n' :: rest) = withoutReturn w :: lines rest := by
  induction w with
  | nil => rfl
  | cons c w ih =>
      have hc : c ≠ '\n' := fun heq => h (heq ▸ List.mem_cons_self)
      have hw : '\n' ∉ w := fun hmem => h (List.mem_cons_of_mem _ hmem)
      cases w with
      | nil =>
          by_cases hreturn : c = '\r'
          · subst hreturn
            rfl
          · have hkeep : withoutReturn [c] = [c] := if_neg (by simpa using hreturn)
            rw [List.singleton_append, lines_cons hc fun heq => absurd heq hreturn, hkeep]
            rfl
      | cons d w =>
          have hd : d ≠ '\n' := fun heq => hw (heq ▸ List.mem_cons_self)
          have hhead : (d :: w ++ '\n' :: rest).head? ≠ some '\n' :=
            fun heq => hd (Option.some.inj heq)
          rw [List.cons_append, lines_cons hc fun _ => hhead, ih hw,
            withoutReturn_cons (List.cons_ne_nil d w)]
          rfl

/-- A line without a carriage return stands there as it is. -/
theorem lines_append {w : List Char} (h : ∀ c ∈ w, c ≠ '\n' ∧ c ≠ '\r') (rest : List Char) :
    lines (w ++ '\n' :: rest) = w :: lines rest := by
  have hfeed : '\n' ∉ w := fun hmem => (h _ hmem).1 rfl
  have hkeep : withoutReturn w = w :=
    if_neg fun hlast => (h _ (List.mem_of_getLast? hlast)).2 rfl
  rw [lines_feed hfeed, hkeep]

/-! ## Whole numbers -/

/-- Reading on, the value does not become smaller. -/
theorem le_ofDigitChars (digits : List Char) (value : Nat) :
    value ≤ Nat.ofDigitChars 10 digits value := by
  rw [Nat.ofDigitChars_eq_ofDigitChars_zero]
  have hpow : 1 ≤ 10 ^ digits.length := Nat.one_le_pow _ _ (by decide)
  have hmul : 1 * value ≤ 10 ^ digits.length * value := Nat.mul_le_mul_right value hpow
  omega

/-- The text of a number is made of digits. -/
theorem isDigit_of_mem_toDigits {n : Nat} : ∀ c ∈ Nat.toDigits 10 n, c.isDigit = true :=
  fun _ hc => Nat.isDigit_of_mem_toDigits (by decide) (by decide) hc

/-- **Digits are read in the decimal system**, as far as the limit allows. -/
theorem readDigits_eq {limit : Nat} {digits : List Char} (excess : IntegerDefect) (value : Nat)
    (hdigits : ∀ c ∈ digits, c.isDigit = true)
    (hlimit : Nat.ofDigitChars 10 digits value ≤ limit) :
    readDigits limit excess value digits = .ok (Nat.ofDigitChars 10 digits value) := by
  induction digits generalizing value with
  | nil => rfl
  | cons c digits ih =>
      rw [Nat.ofDigitChars_cons, Nat.mul_comm] at hlimit
      have hle := Nat.le_trans (le_ofDigitChars digits _) hlimit
      rw [readDigits, if_pos (hdigits c List.mem_cons_self), if_neg (Nat.not_lt.mpr hle),
        ih _ (fun d hd => hdigits d (List.mem_cons_of_mem _ hd)) hlimit, Nat.ofDigitChars_cons,
        Nat.mul_comm]

/-- **A number is read from its digits.** -/
theorem readMagnitude_toDigits (excess : IntegerDefect) {limit n : Nat} (h : n ≤ limit) :
    readMagnitude limit excess (Nat.toDigits 10 n) = .ok n := by
  have hvalue : Nat.ofDigitChars 10 (Nat.toDigits 10 n) 0 = n := Nat.ofDigitChars_ten_toDigits
  rw [readMagnitude, List.isEmpty_eq_false_iff.mpr Nat.toDigits_ne_nil]
  have hlimit : Nat.ofDigitChars 10 (Nat.toDigits 10 n) 0 ≤ limit := hvalue.symm ▸ h
  have hread := readDigits_eq excess 0 isDigit_of_mem_toDigits hlimit
  rwa [hvalue] at hread

/-- Digits without a sign are those of a number that is not negative. -/
theorem readInt64_of_digits {digits : List Char} (h : ∀ c ∈ digits, c.isDigit = true) :
    readInt64 digits =
      (readMagnitude (UInt64.size / 2 - 1) .tooLarge digits).map Int64.ofNat := by
  unfold readInt64
  split
  · next => exact absurd (h _ List.mem_cons_self) (by decide)
  · next => exact absurd (h _ List.mem_cons_self) (by decide)
  · rfl

/-- **The text of a 64-bit number is read back.** -/
theorem readInt64_toString (n : Int64) : readInt64 (toString n.toInt).toList = .ok n := by
  have hlow := n.le_toInt
  have hhigh := n.toInt_lt
  have hback := Int64.ofInt_toInt n
  rw [Int.toString_eq_repr]
  generalize n.toInt = i at hlow hhigh hback ⊢
  cases i with
  | ofNat m =>
      have hlt : (m : Int) < 2 ^ 63 := hhigh
      have hle : m ≤ UInt64.size / 2 - 1 := by
        simp only [UInt64.size]
        omega
      rw [Int.repr, Nat.repr_eq_ofList_toDigits, String.toList_ofList,
        readInt64_of_digits isDigit_of_mem_toDigits, readMagnitude_toDigits .tooLarge hle, ← hback]
      rfl
  | negSucc m =>
      have hle : m.succ ≤ UInt64.size / 2 := by
        simp only [UInt64.size]
        omega
      rw [Int.repr, Nat.repr_eq_ofList_toDigits, String.toList_append, String.toList_ofList,
        String.toList_ofList, List.singleton_append, readInt64,
        readMagnitude_toDigits .tooSmall hle, ← hback]
      rfl

/-- No digit is blank. -/
theorem isBlank_of_isDigit {c : Char} (h : c.isDigit = true) : isBlank c = false := by
  have htoNat : c.toNat = c.val.toNat := rfl
  simp only [Char.isDigit, ge_iff_le, Bool.and_eq_true, decide_eq_true_eq,
    UInt32.le_iff_toNat_le] at h
  simp [isBlank, blankRanges] at h ⊢
  omega

/-- **The text of a whole number is a word.** -/
theorem isWord_toString (n : Int) : IsWord (toString n).toList := by
  have hdigits : ∀ (m : Nat), ∀ c ∈ Nat.toDigits 10 m, isBlank c = false :=
    fun _ c hc => isBlank_of_isDigit (isDigit_of_mem_toDigits c hc)
  rw [Int.toString_eq_repr]
  cases n with
  | ofNat m =>
      rw [Int.repr, Nat.repr_eq_ofList_toDigits, String.toList_ofList]
      exact ⟨Nat.toDigits_ne_nil, hdigits m⟩
  | negSucc m =>
      rw [Int.repr, Nat.repr_eq_ofList_toDigits, String.toList_append, String.toList_ofList,
        String.toList_ofList, List.singleton_append]
      refine ⟨List.cons_ne_nil _ _, fun c hc => ?_⟩
      rcases List.mem_cons.mp hc with rfl | hc
      · decide
      · exact hdigits m.succ c hc

/-! ## Texts as bytes -/

/-- A text is read back from its bytes. -/
theorem fromUTF8?_toUTF8 (text : String) : String.fromUTF8? text.toUTF8 = some text := by
  have hvalid : text.toUTF8.IsValidUTF8 := text.isValidUTF8
  simp only [String.fromUTF8?, dif_pos hvalid]
  rfl

end CriticalSection.Text
