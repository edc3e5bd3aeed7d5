import CriticalSection.Proofs.Decimal.Shortest
import CriticalSection.Proofs.Decimal.Whole
import CriticalSection.Proofs.Json.RoundTrip

/-!
# Reading tenths

A number of tenths is read as a whole number that is divided by ten, and both steps round. Halves
are five tenths each. If the tenths of a number of halves fit 53 bits or are even, nothing is lost.
If there are more of them and they are odd, the whole number is rounded first, and the quotient is
then an eighth off.
-/

set_option autoImplicit false

open Float.Model (Format UnpackedFloat)
open Float.Model.UnpackedFloat

namespace CriticalSection

namespace Binary64

variable {m n k : Nat} {e f : Int} {s : Sign} {x y : Float}

/-! ## Numbers and their parts -/

theorem eq_of_toBits {x y : Float} (h : x.toBits = y.toBits) : x = y := by
  obtain ⟨⟨bits, valid⟩⟩ := x
  obtain ⟨⟨bits', valid'⟩⟩ := y
  obtain rfl : bits = bits' := h
  rfl

/-- **A number is determined by its parts.** -/
theorem eq_of_ofFloat {negative : Bool} (hx : ofFloat x = .finite negative m e)
    (hy : ofFloat y = .finite negative m e) : x = y := by
  have hlt := x.toBits.toNat_lt
  have hlt' := y.toBits.toNat_lt
  refine eq_of_toBits (UInt64.toNat_inj.mp ?_)
  unfold ofFloat ofBits at hx hy
  dsimp only [Nat.pow_eq] at hx hy
  generalize x.toBits.toNat = a at *
  generalize y.toBits.toNat = b at *
  have hsign : ((a / 2 ^ 63 % 2 == 1) = (b / 2 ^ 63 % 2 == 1)) →
      a / 2 ^ 63 % 2 = b / 2 ^ 63 % 2 := by
    intro h
    by_cases ha : a / 2 ^ 63 % 2 = 1
    · simp_all
    · by_cases hb : b / 2 ^ 63 % 2 = 1
      · simp_all
      · omega
  split_ifs at hx hy
  all_goals
    injection hx with hs hm he
    injection hy with hs' hm' he'
    have := hsign (hs.trans hs'.symm)
    omega

/-- A float with the unpacked form of another one is the other one. -/
theorem eq_of_unpack (h : Normal m e) (hx : x.toModel.unpack = .finite s m e h.pos)
    (hy : y.toModel.unpack = .finite s m e h.pos) : x = y :=
  eq_of_ofFloat (ofFloat_eq x ▸ congrArg ofUnpacked hx) (ofFloat_eq y ▸ congrArg ofUnpacked hy)

theorem eq_of_unpack_zero (hx : x.toModel.unpack = .zero s) (hy : y.toModel.unpack = .zero s) :
    x = y :=
  eq_of_ofFloat (ofFloat_eq x ▸ congrArg ofUnpacked hx) (ofFloat_eq y ▸ congrArg ofUnpacked hy)

/-! ## Rounding -/

/-- A significand of 53 bits, with something behind it. -/
theorem Normal.roundWithAccuracy_near (h : Normal m e) (h' : Normal n e) {accuracy : Accuracy}
    (hrounded : (ExtendedMantissa.ofMantissaAndAccuracy m accuracy).roundedMantissa = n)
    (s : Sign) : roundWithAccuracy Format.binary64 s m e accuracy = .finite s n e h'.pos := by
  have hshift : shiftToTargetExponent Format.binary64 m e accuracy =
      (.ofMantissaAndAccuracy m accuracy, e) := by
    have hlower := h.lower
    unfold shiftToTargetExponent shiftToExponent
    rw [targetExponent_eq, h.log2]
    have hsame : (max (((52 : Nat) : Int) + e - 52) (-1074) - e).toNat = 0 := by omega
    dsimp only
    rw [hsame]
    simp
    rfl
  unfold roundWithAccuracy
  simp only [hshift, hrounded, h'.shift_self]
  exact dif_neg h'.pos.ne'

/-- A number of 54 bits that is odd lies between two numbers of 53 bits, and the one with the even
significand is taken. -/
theorem roundWithAccuracy_odd (h : Normal m 1) (h' : Normal (m + m % 2) 1) (s : Sign) :
    roundWithAccuracy Format.binary64 s ((2 * m + 1) * 2 ^ 53) (-53) .exact =
      .finite s (m + m % 2) 1 h'.pos := by
  have hlog : ((2 * m + 1) * 2 ^ 53).log2 = 106 := by
    have hle := h.le
    have hlt := h.lt
    have : (2 * m + 1).log2 = 53 := (Nat.log2_eq_iff (by omega)).mpr ⟨by omega, by omega⟩
    rw [log2_mul_two_pow (by omega), this]
  have hshift : shiftToTargetExponent Format.binary64 ((2 * m + 1) * 2 ^ 53) (-53) .exact =
      (⟨m, true, false⟩, 1) := by
    unfold shiftToTargetExponent shiftToExponent
    rw [targetExponent_eq, hlog]
    have hamount : (max (((106 : Nat) : Int) + -53 - 52) (-1074) - -53).toNat = 53 + 1 := by decide
    have hhalf : (2 * m + 1) / 2 = m := by omega
    have hodd : (2 * m + 1) % 2 = 1 := by omega
    dsimp only
    rw [hamount]
    -- the last bit that is shifted out is the only one
    change (ExtendedMantissa.shiftRightOne
      ((ExtendedMantissa.ofMantissaAndAccuracy ((2 * m + 1) * 2 ^ 53) .exact) >>> 53), _) = _
    rw [shift_exact, ExtendedMantissa.shiftRightOne]
    simp [ExtendedMantissa.ofMantissaAndAccuracy, hhalf, hodd]
  unfold roundWithAccuracy
  have hrounded : (⟨m, true, false⟩ : ExtendedMantissa).roundedMantissa = m + m % 2 := rfl
  simp only [hshift, hrounded, h'.shift_self]
  exact dif_neg h'.pos.ne'

/-! ## Dividing by ten -/

/-- A bit pattern is unpacked from the quotient that was packed into it. -/
theorem unpack_div (h : Normal m e) (hdiv : div Format.binary64 x.toModel.unpack y.toModel.unpack =
    .finite s m e h.pos) : (x / y).toModel.unpack = .finite s m e h.pos := by
  change Float.Model.unpack (Float.Model.pack (div Format.binary64 _ _)) = _
  rw [hdiv]
  exact h.unpack_pack s

theorem unpack_powerOfTen_one : (Json.powerOfTen 1).toModel.unpack =
    .finite .positive (5 * 2 ^ 50) (-49) (by decide) := rfl

/-- A significand of 53 bits that is divided by ten. -/
theorem Normal.div_ten (h : Normal m e) (he : -1000 ≤ e) :
    div Format.binary64 (.finite .positive m e h.pos) (Json.powerOfTen 1).toModel.unpack =
      roundWithAccuracy Format.binary64 .positive (8 * m / 5) (e - 4)
        (accuracyOfFraction (8 * m % 5 * 2 ^ 50) (5 * 2 ^ 50)) := by
  have hcore : divCore Format.binary64 m e (5 * 2 ^ 50) (-49) =
      (8 * m / 5, e - 4, accuracyOfFraction (8 * m % 5 * 2 ^ 50) (5 * 2 ^ 50)) := by
    have hten : (5 * 2 ^ 50 : Nat).log2 = 52 := by decide
    have htotal : Float.Model.totalExponent m e - Float.Model.totalExponent (5 * 2 ^ 50) (-49) =
        e + 49 := by
      unfold Float.Model.totalExponent
      rw [h.log2, hten]
      omega
    have htarget : min (e - -49) (Format.binary64.targetExponent (e + 49)) = e - 4 := by
      change min (e - -49) (max (e + 49 - 53) (-1074)) = e - 4
      omega
    have hamount : (e - -49 - (e - 4)).toNat = 53 := by omega
    have hshifted : m <<< 53 = 8 * m * 2 ^ 50 := by
      rw [Nat.shiftLeft_eq]
      omega
    unfold divCore
    rw [htotal, htarget]
    dsimp only
    rw [hamount, hshifted, Nat.mul_div_mul_right _ _ (by decide), Nat.mul_mod_mul_right]
  rw [unpack_powerOfTen_one]
  change (let (n, f, accuracy) := divCore Format.binary64 m e (5 * 2 ^ 50) (-49)
    roundWithAccuracy Format.binary64 .positive n f accuracy) = _
  rw [hcore]

/-- A significand of 53 bits at least is only shifted to the right when it is rounded. -/
theorem round_eq_roundWithAccuracy (hm : 52 ≤ m.log2) (hlower : -1022 ≤ m.log2 + e) (s : Sign) :
    UnpackedFloat.round Format.binary64 s m e =
      roundWithAccuracy Format.binary64 s m e .exact := by
  have hamount : (e - (m.log2 + e - 52)).toNat = 0 := by omega
  unfold UnpackedFloat.round decreaseExponent
  dsimp only
  rw [targetExponent_of_le hlower, hamount, Nat.shiftLeft_zero]
  congr 1
  omega

/-! ## Tenths of halves -/

/-- A whole number with 53 bits behind its zeros at most is the floating-point number with its
parts. -/
theorem exists_unpack_ofNat (hn : 0 < n) (h : n < 2 ^ 53 ∨ n % 2 = 0 ∧ n < 2 ^ 54) :
    ∃ m e, ∃ h : Normal m e, -53 ≤ e ∧ (m : Rat) * 2 ^ e = n ∧
      (Float.ofNat n).toModel.unpack = .finite .positive m e h.pos := by
  rcases Nat.lt_or_ge n (2 ^ 53) with hlt | hge
  · have hhas := has_ofNat hlt
    unfold Has at hhas
    generalize hq : (((n : Nat) : Int) : Rat) = q at hhas
    generalize hu : (Float.ofNat n).toModel.unpack = u at hhas
    have hpos : (0 : Rat) < q := by
      rw [← hq]
      exact_mod_cast hn
    cases hhas with
    | zero s => exact absurd hpos (lt_irrefl 0)
    | @normal s m e h =>
        refine ⟨m, e, h, h.lower_of_whole hq, ?_, ?_⟩
        · rw [← abs_number (isNegative s), abs_of_pos hpos, ← hq, Int.cast_natCast]
        · cases s with
          | positive => rfl
          | negative =>
              have hq := h.value_pos
              rw [number_isNegative, Sign.apply] at hpos
              push_cast at hpos
              linarith
  · obtain ⟨a, rfl⟩ : ∃ a, n = a * 2 := ⟨n / 2, by omega⟩
    have hnormal : Normal a 1 := ⟨by omega, by omega, by decide, by decide⟩
    refine ⟨a, 1, hnormal, by decide, by push_cast; rfl, ?_⟩
    rw [ofNat_eq hge, Nat.mul_assoc, ← pow_succ', hnormal.roundWithAccuracy_eq (by decide)]
    exact hnormal.unpack_pack .positive

/-- **Tenths that are read exactly**: five for each half, if they are even or fit 53 bits. -/
theorem unpack_tenths (h : Normal m e) (hk : (k : Rat) / 2 = m * 2 ^ e)
    (hkept : 2 ∣ k ∨ 5 * k < 2 ^ 53) (hlt : k < 2 ^ 51) :
    (Float.ofNat (5 * k) / Json.powerOfTen 1).toModel.unpack = .finite .positive m e h.pos := by
  have hpos : 0 < k := by
    have hq := h.value_pos
    rw [← hk] at hq
    have : (0 : Rat) < k := by linarith
    exact_mod_cast this
  obtain ⟨m', e', h', hlower, hvalue, hunpack⟩ := exists_unpack_ofNat (n := 5 * k) (by omega)
    (by omega)
  -- the significand is five times another one
  obtain ⟨b, rfl⟩ : 5 ∣ m' := by
    have hsame : m' * 2 ^ (e' - 0).toNat = 5 * k * 2 ^ (0 - e').toNat :=
      mul_two_pow_eq (by rw [hvalue, zpow_zero, mul_one])
    have hdvd : 5 ∣ m' * 2 ^ (e' - 0).toNat := by
      rw [hsame, Nat.mul_assoc]
      exact Nat.dvd_mul_right 5 _
    exact (Nat.Coprime.pow_right _ (by decide)).dvd_of_dvd_mul_right hdvd
  have hlarge : 2 ^ 52 ≤ 8 * b := by
    have := h'.le
    omega
  have hlog : 52 ≤ (8 * b).log2 := (Nat.le_log2 (by omega)).mpr hlarge
  have hexact : ((8 * b : Nat) : Rat) * 2 ^ (e' - 4) = m * 2 ^ e := by
    rw [← hk, zpow_sub₀ (by decide)]
    push_cast at hvalue ⊢
    linear_combination hvalue / 10
  refine unpack_div h ?_
  have hquotient : 8 * (5 * b) / 5 = 8 * b := by omega
  have hrest : 8 * (5 * b) % 5 = 0 := by omega
  rw [hunpack, h'.div_ten (by omega), hquotient, hrest]
  have hnone : accuracyOfFraction (0 * 2 ^ 50) (5 * 2 ^ 50) = .exact := rfl
  rw [hnone, ← round_eq_roundWithAccuracy hlog (by omega)]
  exact h.round_eq (by omega) hexact .positive

/-- An odd number of 54 bits becomes the neighbour with the even significand. -/
theorem unpack_ofNat_odd (h : Normal m 1) (h' : Normal (m + m % 2) 1) :
    (Float.ofNat (2 * m + 1)).toModel.unpack = .finite .positive (m + m % 2) 1 h'.pos := by
  have hle := h.le
  rw [ofNat_eq (by omega), roundWithAccuracy_odd h h']
  exact h'.unpack_pack .positive

/-- The tenth of such a neighbour, from its quotient and remainder by five. -/
theorem unpack_tenth_odd {a q r : Nat} (h : Normal m 1) (ha : m + m % 2 = a) (hwhole : Normal a 1)
    (hquotient : 8 * a / 5 = q) (hremainder : 8 * a % 5 = r) (htruncated : Normal q (-3))
    (hnormal : Normal n (-3))
    (hrounded : (ExtendedMantissa.ofMantissaAndAccuracy q
      (accuracyOfFraction (r * 2 ^ 50) (5 * 2 ^ 50))).roundedMantissa = n) :
    (Float.ofNat (2 * m + 1) / Json.powerOfTen 1).toModel.unpack =
      .finite .positive n (-3) hnormal.pos := by
  subst ha
  refine unpack_div hnormal ?_
  rw [unpack_ofNat_odd h hwhole, hwhole.div_ten (by decide), hquotient, hremainder]
  exact htruncated.roundWithAccuracy_near hnormal hrounded .positive

/-- **Tenths that are not read exactly**: an eighth is lost or added. -/
theorem unpack_tenths_odd (hodd : k % 2 = 1) (hle : 2 ^ 53 ≤ 5 * k) (hlt : k < 2 ^ 51) :
    ∃ h : Normal (if k % 4 = 1 then 4 * k - 1 else 4 * k + 1) (-3),
      (Float.ofNat (5 * k) / Json.powerOfTen 1).toModel.unpack =
        .finite .positive _ (-3) h.pos := by
  rcases (by omega : k % 4 = 1 ∨ k % 4 = 3) with hrest | hrest
  · obtain ⟨i, rfl⟩ : ∃ i, k = 4 * i + 1 := ⟨k / 4, by omega⟩
    have htenths : 5 * (4 * i + 1) = 2 * (10 * i + 2) + 1 := by omega
    have hsame : 4 * (4 * i + 1) - 1 = 16 * i + 3 := by omega
    have hwhole : Normal (10 * i + 2) 1 := ⟨by omega, by omega, by decide, by decide⟩
    have hnormal : Normal (16 * i + 3) (-3) := ⟨by omega, by omega, by decide, by decide⟩
    simp only [if_pos hrest, hsame, htenths]
    -- a fifth of an eighth is lost again
    exact ⟨hnormal, unpack_tenth_odd hwhole (by omega) hwhole (r := 1) (by omega) (by omega)
      hnormal hnormal rfl⟩
  · obtain ⟨i, rfl⟩ : ∃ i, k = 4 * i + 3 := ⟨k / 4, by omega⟩
    have htenths : 5 * (4 * i + 3) = 2 * (10 * i + 7) + 1 := by omega
    have hsame : 4 * (4 * i + 3) + 1 = 16 * i + 13 := by omega
    have hother : ¬ (4 * i + 3) % 4 = 1 := by omega
    have hbelow : Normal (10 * i + 7) 1 := ⟨by omega, by omega, by decide, by decide⟩
    have hwhole : Normal (10 * i + 8) 1 := ⟨by omega, by omega, by decide, by decide⟩
    have htruncated : Normal (16 * i + 12) (-3) := ⟨by omega, by omega, by decide, by decide⟩
    have hnormal : Normal (16 * i + 13) (-3) := ⟨by omega, by omega, by decide, by decide⟩
    simp only [if_neg hother, hsame, htenths]
    -- four fifths of an eighth are rounded to a whole one
    exact ⟨hnormal, unpack_tenth_odd hbelow (by omega) hwhole (r := 4) (by omega) (by omega)
      htruncated hnormal rfl⟩

/-- What is read of the numeral of a number of tenths. -/
def ofTenths (negative : Bool) (n : Nat) : Float :=
  if negative then -(Float.ofNat n / Json.powerOfTen 1) else Float.ofNat n / Json.powerOfTen 1

/-- With a sign the number has the sign. -/
theorem unpack_ofTenths (h : Normal m e)
    (hn : (Float.ofNat n / Json.powerOfTen 1).toModel.unpack = .finite .positive m e h.pos)
    (s : Sign) : (ofTenths (isNegative s) n).toModel.unpack = .finite s m e h.pos := by
  cases s with
  | positive => exact hn
  | negative =>
      change Float.Model.unpack (Float.Model.pack
        (Float.ofNat n / Json.powerOfTen 1).toModel.unpack.neg) = _
      rw [hn]
      exact h.unpack_pack .negative

theorem ofTenths_zero (hx : x.toModel.unpack = .zero s) : ofTenths (isNegative s) 0 = x := by
  refine eq_of_unpack_zero ?_ hx
  cases s <;> rfl

end Binary64

namespace Json

/-! ## Numerals of tenths -/

theorem toList_text_tenths (negative : Bool) (n : Nat) :
    (Numeral.tenths negative n).text.toList = (if negative then ['-'] else []) ++
      (Nat.toDigits 10 (n / 10) ++ '.' :: [Nat.digitChar (n % 10)]) := by
  cases negative <;> simp [Numeral.tenths, Numeral.text]

/-- **The numeral of a number of tenths is read back** when what is behind it is no part of it. -/
theorem readNumeral?_tenths (negative : Bool) (n : Nat) {rest : List Char} (h : Ends rest) :
    readNumeral? ((Numeral.tenths negative n).text.toList ++ rest) =
      some (.tenths negative n, rest) := by
  have hpoint : ∀ c ∈ ('.' :: ([Nat.digitChar (n % 10)] ++ rest)).head?, c.isDigit = false := by
    rintro c hc
    obtain rfl := Option.some.inj hc
    rfl
  have hdigit : Nat.toDigits 10 (n % 10) = [Nat.digitChar (n % 10)] :=
    Nat.toDigits_of_lt_base (Nat.mod_lt n (by decide))
  have hfraction := Decimal.someDigits?_toDigits (n % 10) h.isDigit
  rw [hdigit] at hfraction
  rw [toList_text_tenths, List.append_assoc, List.append_assoc, List.cons_append,
    readNumeral?_toDigits, readUnsigned?, Decimal.someDigits?_toDigits _ hpoint]
  simp only [Option.bind_eq_bind, Option.bind_some, if_neg (not_leading_zero _), hfraction,
    h.readExponent?]
  rfl

theorem readable_tenths (negative : Bool) (n : Nat) : Readable (.number (.tenths negative n)) := by
  refine readable_number ?_ fun _ => readNumeral?_tenths negative n
  rw [toList_text_tenths]
  exact exists_startsNumber negative (n / 10) _

/-- The value of the numeral of a number of tenths. -/
theorem floatOfNumeral?_tenths (negative : Bool) {n : Nat} (h : n ≤ lastWord) :
    floatOfNumeral? (.tenths negative n) =
      some (Binary64.ofTenths negative n) := by
  have hdigit : ∀ d < 10, (Nat.digitChar d).toNat - '0'.toNat = d := by decide
  have hwhole : takeDigits 0 (Nat.toDigits 10 (n / 10)) = (n / 10, []) := by
    have hvalue : Nat.ofDigitChars 10 (Nat.toDigits 10 (n / 10)) 0 = n / 10 :=
      Nat.ofDigitChars_ten_toDigits
    rw [takeDigits_eq (by omega), hvalue]
  have hall : takeDigits (n / 10) [Nat.digitChar (n % 10)] = (n, []) := by
    have hvalue : n / 10 * 10 + ((Nat.digitChar (n % 10)).toNat - '0'.toNat) = n := by
      rw [hdigit _ (Nat.mod_lt n (by decide))]
      omega
    rw [takeDigits, hvalue, if_pos h, takeDigits]
  rw [Numeral.tenths, floatOfNumeral?]
  simp only [hwhole, hall]
  cases negative <;> simp [scale, Binary64.ofTenths]

end Json

end CriticalSection
