import Mathlib.Data.List.TakeWhile
import CriticalSection.Proofs.Text

/-!
# The form of words and numbers

A text has given words exactly when it consists of them with blanks between any two, and perhaps in
front of the first and behind the last. A text is read as a 64-bit number exactly when it is a
decimal numeral for it, behind an optional sign.
-/

set_option autoImplicit false

namespace CriticalSection.Text

/-! ## Words -/

section Words

variable {c : Char} {w x : List Char} {ws : List (List Char)}

/-- **A gap**: a text of blank characters. -/
def IsGap (x : List Char) : Prop := ∀ c ∈ x, isBlank c = true

/-- **A text that consists of some words**, with gaps around them. Two words cannot stand next to
each other without a blank between them. -/
def Spaced : List (List Char) → List Char → Prop
  | [], x => IsGap x
  | w :: ws, x => ∃ gap rest, x = gap ++ (w ++ rest) ∧ IsGap gap ∧ IsWord w ∧
      (∀ c ∈ rest.head?, isBlank c = true) ∧ Spaced ws rest

theorem isGap_iff : IsGap x ↔ x.all isBlank = true := List.all_eq_true.symm

theorem words_cons (hc : isBlank c = true) (x : List Char) : words (c :: x) = words x :=
  words_append hc [] x

/-- A gap in front of a text is no part of its words. -/
theorem words_gap_append (h : IsGap x) (y : List Char) : words (x ++ y) = words y := by
  induction x with
  | nil => rfl
  | cons c x ih =>
      rw [List.cons_append, words_cons (h c List.mem_cons_self),
        ih fun d hd => h d (List.mem_cons_of_mem _ hd)]

/-- A gap has no words. -/
theorem IsGap.words_eq (h : IsGap x) : words x = [] := by
  have hwords := words_gap_append h []
  rwa [List.append_nil] at hwords

/-- A word that stands in front of a blank or at the end of the text is one of its words. -/
theorem words_word_append (h : IsWord w) (hhead : ∀ c ∈ x.head?, isBlank c = true) :
    words (w ++ x) = w :: words x := by
  cases x with
  | nil =>
      rw [List.append_nil, h.words]
      rfl
  | cons c x =>
      have hc : isBlank c = true := hhead c rfl
      rw [words_append hc, h.words, words_cons hc]
      rfl

/-- **A text of some words has these words.** -/
theorem Spaced.words_eq (h : Spaced ws x) : words x = ws := by
  induction ws generalizing x with
  | nil => exact IsGap.words_eq h
  | cons w ws ih =>
      obtain ⟨gap, rest, rfl, hgap, hw, hhead, hrest⟩ := h
      rw [words_gap_append hgap, words_word_append hw hhead, ih hrest]

/-- A text that is no gap has a first word. -/
theorem exists_first_word (h : ¬ IsGap x) :
    ∃ gap w rest, x = gap ++ (w ++ rest) ∧ IsGap gap ∧ IsWord w ∧
      ∀ c ∈ rest.head?, isBlank c = true := by
  have hword : ∀ c ∈ (x.dropWhile isBlank).takeWhile (!isBlank ·), isBlank c = false := by
    intro c hc
    simpa using List.mem_takeWhile_imp hc
  have hne : (x.dropWhile isBlank).takeWhile (!isBlank ·) ≠ [] := by
    cases hdrop : x.dropWhile isBlank with
    | nil =>
        have hgap : IsGap x := List.dropWhile_eq_nil_iff.mp hdrop
        exact absurd hgap h
    | cons c y =>
        have hc := List.head?_dropWhile_not isBlank x
        rw [hdrop] at hc
        have hc : isBlank c = false := hc
        simp [hc]
  refine ⟨x.takeWhile isBlank, _, (x.dropWhile isBlank).dropWhile (!isBlank ·), ?_,
    fun c hc => List.mem_takeWhile_imp hc, ⟨hne, hword⟩, ?_⟩
  · rw [List.takeWhile_append_dropWhile, List.takeWhile_append_dropWhile]
  · intro c hc
    have hhead := List.head?_dropWhile_not (!isBlank ·) (x.dropWhile isBlank)
    rw [Option.mem_def.mp hc] at hhead
    simpa using hhead

/-- Every text consists of its words. -/
theorem spaced_words (x : List Char) : Spaced (words x) x := by
  -- by the length, as the first word is taken off together with the gap in front of it
  induction hlength : x.length using Nat.strongRecOn generalizing x with
  | ind n ih =>
      by_cases hx : IsGap x
      · rw [hx.words_eq]
        exact hx
      · obtain ⟨gap, w, rest, rfl, hgap, hw, hhead⟩ := exists_first_word hx
        have hlt : rest.length < n := by
          have hpos := List.length_pos_iff.mpr hw.1
          rw [← hlength, List.length_append, List.length_append]
          omega
        rw [words_gap_append hgap, words_word_append hw hhead]
        exact ⟨gap, rest, rfl, hgap, hw, hhead, ih _ hlt rest rfl⟩

/-- **The words of a text** are those of which it consists. -/
theorem words_eq_iff : words x = ws ↔ Spaced ws x := by
  constructor
  · rintro rfl
    exact spaced_words x
  · exact Spaced.words_eq

/-- A gap in front of a word is not empty when what is in front of the rest is blank. -/
theorem gap_ne_nil {gap w rest : List Char} (hw : IsWord w)
    (hhead : ∀ c ∈ (gap ++ (w ++ rest)).head?, isBlank c = true) : gap ≠ [] := by
  rintro rfl
  obtain ⟨c, w, rfl⟩ := List.exists_cons_of_ne_nil hw.1
  have hblank : isBlank c = true := hhead c rfl
  rw [hw.2 c List.mem_cons_self] at hblank
  cases hblank

/-- A gap that is not empty is blank in front. -/
theorem IsGap.head {gap : List Char} (h : IsGap gap) (hne : gap ≠ []) (rest : List Char) :
    ∀ c ∈ (gap ++ rest).head?, isBlank c = true := by
  obtain ⟨d, gap, rfl⟩ := List.exists_cons_of_ne_nil hne
  intro c hc
  obtain rfl := Option.some.inj hc
  exact h d List.mem_cons_self

/-- **A line of three words.** -/
theorem words_eq_three_iff {p k t line : List Char} : words line = [p, k, t] ↔
    ∃ front gap gap' back, line = front ++ p ++ gap ++ k ++ gap' ++ t ++ back ∧
      IsGap front ∧ IsGap gap ∧ IsGap gap' ∧ IsGap back ∧ gap ≠ [] ∧ gap' ≠ [] ∧
      IsWord p ∧ IsWord k ∧ IsWord t := by
  rw [words_eq_iff]
  constructor
  · rintro ⟨front, rest, rfl, hfront, hp, hhead, gap, rest', rfl, hgap, hk, hhead', gap', back,
      rfl, hgap', ht, -, hback⟩
    exact ⟨front, gap, gap', back, by simp only [List.append_assoc], hfront, hgap, hgap', hback,
      gap_ne_nil hk hhead, gap_ne_nil ht hhead', hp, hk, ht⟩
  · rintro ⟨front, gap, gap', back, rfl, hfront, hgap, hgap', hback, hne, hne', hp, hk, ht⟩
    exact ⟨front, gap ++ (k ++ (gap' ++ (t ++ back))), by simp only [List.append_assoc], hfront, hp,
      hgap.head hne _, gap, gap' ++ (t ++ back), rfl, hgap, hk, hgap'.head hne' _, gap', back,
      rfl, hgap', ht, fun c hc => hback c (List.mem_of_mem_head? hc), hback⟩

end Words

/-! ## Numerals -/

section Numerals

variable {digits text : List Char} {limit n value : Nat} {excess : IntegerDefect} {t : Int64}

/-- **The decimal digits for a number**, perhaps with zeros in front. -/
def Digits (digits : List Char) (n : Nat) : Prop :=
  digits ≠ [] ∧ (∀ c ∈ digits, c.isDigit = true) ∧ Nat.ofDigitChars 10 digits 0 = n

/-- **A numeral for a whole number**: decimal digits behind an optional sign. -/
def IsNumeral (text : List Char) (value : Int) : Prop :=
  ∃ digits n, Digits digits n ∧
    ((text = '-' :: digits ∧ value = -(n : Int)) ∨
      ((text = '+' :: digits ∨ text = digits) ∧ value = n))

/-- What is read from digits is what they stand for, and it is within the limit. -/
theorem readDigits_ok (hvalue : value ≤ limit) (h : readDigits limit excess value digits = .ok n) :
    (∀ c ∈ digits, c.isDigit = true) ∧ Nat.ofDigitChars 10 digits value = n ∧ n ≤ limit := by
  induction digits generalizing value with
  | nil =>
      obtain rfl := Except.ok.inj h
      exact ⟨fun c hc => absurd hc List.not_mem_nil, rfl, hvalue⟩
  | cons c digits ih =>
      rw [readDigits] at h
      by_cases hc : c.isDigit = true
      · rw [if_pos hc] at h
        dsimp only at h
        split at h
        · cases h
        · next hlimit =>
            obtain ⟨hdigits, heq, hle⟩ := ih (Nat.le_of_not_lt hlimit) h
            refine ⟨List.forall_mem_cons.mpr ⟨hc, hdigits⟩, ?_, hle⟩
            -- the digits so far count ten times as much in front of one more
            rw [Nat.ofDigitChars_cons, Nat.mul_comm]
            exact heq
      · rw [if_neg hc] at h
        cases h

/-- **A number is read from its digits only**, as far as it is within the limit. -/
theorem readMagnitude_eq_ok_iff :
    readMagnitude limit excess digits = .ok n ↔ Digits digits n ∧ n ≤ limit := by
  constructor
  · intro h
    rw [readMagnitude] at h
    split at h
    · cases h
    · next hne =>
        obtain ⟨hdigits, heq, hle⟩ := readDigits_ok (Nat.zero_le limit) h
        exact ⟨⟨by simpa using hne, hdigits, heq⟩, hle⟩
  · rintro ⟨⟨hne, hdigits, rfl⟩, hle⟩
    rw [readMagnitude, List.isEmpty_eq_false_iff.mpr hne]
    exact readDigits_eq excess 0 hdigits hle

/-- **A 64-bit number is read from its digits** when no number beyond the limit means one. -/
theorem map_readMagnitude_eq_ok_iff {signed : Nat → Int64} {meant : Nat → Int}
    (hsigned : ∀ n ≤ limit, (signed n).toInt = meant n)
    (hlimit : ∀ n, t.toInt = meant n → n ≤ limit) :
    (readMagnitude limit excess digits).map signed = .ok t ↔
      ∃ n, Digits digits n ∧ t.toInt = meant n := by
  constructor
  · intro h
    cases hread : readMagnitude limit excess digits with
    | error defect => rw [hread] at h; cases h
    | ok n =>
        rw [hread] at h
        obtain rfl := Except.ok.inj h
        obtain ⟨hdigits, hle⟩ := readMagnitude_eq_ok_iff.mp hread
        exact ⟨n, hdigits, hsigned n hle⟩
  · rintro ⟨n, hdigits, heq⟩
    have hle := hlimit n heq
    rw [readMagnitude_eq_ok_iff.mpr ⟨hdigits, hle⟩]
    refine congrArg Except.ok (Int64.toInt_inj.mp ?_)
    rw [heq, hsigned n hle]

/-- The digits of a number that is not negative. -/
theorem map_ofNat_eq_ok_iff :
    (readMagnitude (UInt64.size / 2 - 1) .tooLarge digits).map Int64.ofNat = .ok t ↔
      ∃ n : Nat, Digits digits n ∧ t.toInt = n := by
  refine map_readMagnitude_eq_ok_iff (fun n hn => ?_) fun n hn => ?_
  · simp only [UInt64.size] at hn
    exact Int64.toInt_ofNat_of_lt (by omega)
  · have hlt := t.toInt_lt
    simp only [UInt64.size]
    omega

/-- The digits of a number that is not positive. -/
theorem map_neg_eq_ok_iff :
    (readMagnitude (UInt64.size / 2) .tooSmall digits).map
        (fun value => Int64.ofInt (-(value : Int))) = .ok t ↔
      ∃ n : Nat, Digits digits n ∧ t.toInt = -(n : Int) := by
  -- the number that is read is made an integer before it gets its sign
  have hsign : (readMagnitude (UInt64.size / 2) .tooSmall digits).map
      (fun value => Int64.ofInt (-(value : Int))) =
        (readMagnitude (UInt64.size / 2) .tooSmall digits).map
          fun n : Nat => Int64.ofInt (-(n : Int)) := by
    cases readMagnitude (UInt64.size / 2) .tooSmall digits <;> rfl
  rw [hsign]
  refine map_readMagnitude_eq_ok_iff (fun n hn => ?_) fun n hn => ?_
  · simp only [UInt64.size] at hn
    exact Int64.toInt_ofInt_of_le (by omega) (by omega)
  · have hge := t.le_toInt
    simp only [UInt64.size]
    omega

/-- **A 64-bit number is read from its numerals**, and from nothing else. -/
theorem readInt64_eq_ok_iff : readInt64 text = .ok t ↔ IsNumeral text t.toInt := by
  constructor
  · intro h
    unfold readInt64 at h
    split at h
    · next digits =>
        obtain ⟨n, hdigits, heq⟩ := map_neg_eq_ok_iff.mp h
        exact ⟨digits, n, hdigits, Or.inl ⟨rfl, heq⟩⟩
    · next digits =>
        obtain ⟨n, hdigits, heq⟩ := map_ofNat_eq_ok_iff.mp h
        exact ⟨digits, n, hdigits, Or.inr ⟨Or.inl rfl, heq⟩⟩
    · obtain ⟨n, hdigits, heq⟩ := map_ofNat_eq_ok_iff.mp h
      exact ⟨text, n, hdigits, Or.inr ⟨Or.inr rfl, heq⟩⟩
  · rintro ⟨digits, n, hdigits, ⟨rfl, heq⟩ | ⟨rfl | rfl, heq⟩⟩
    · exact map_neg_eq_ok_iff.mpr ⟨n, hdigits, heq⟩
    · exact map_ofNat_eq_ok_iff.mpr ⟨n, hdigits, heq⟩
    · rw [readInt64_of_digits hdigits.2.1]
      exact map_ofNat_eq_ok_iff.mpr ⟨n, hdigits, heq⟩

/-- A numeral is a word. -/
theorem IsNumeral.isWord {value : Int} (h : IsNumeral text value) : IsWord text := by
  obtain ⟨digits, n, ⟨hne, hdigits, -⟩, hform⟩ := h
  have hword : ∀ c ∈ digits, isBlank c = false := fun c hc => isBlank_of_isDigit (hdigits c hc)
  rcases hform with ⟨rfl, -⟩ | ⟨rfl | rfl, -⟩
  · exact ⟨List.cons_ne_nil _ _, List.forall_mem_cons.mpr ⟨by decide, hword⟩⟩
  · exact ⟨List.cons_ne_nil _ _, List.forall_mem_cons.mpr ⟨by decide, hword⟩⟩
  · exact ⟨hne, hword⟩

end Numerals

end CriticalSection.Text
