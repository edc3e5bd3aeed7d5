import CriticalSection.Offset.Sample
import CriticalSection.Proofs.Decimal.Rounding

/-!
# Whole floating-point numbers

A number of 53 bits or more loses bits when it is rounded, but what is left is a whole number. So
the differences of clock readings are whole numbers however large they are, and the offset that an
exchange gives is a number of halves.
-/

set_option autoImplicit false

open Float.Model (Format UnpackedFloat)
open Float.Model.UnpackedFloat

namespace CriticalSection.Binary64

variable {m n j k : Nat} {e f : Int} {q : Rat} {u v : UnpackedFloat} {x y : Float}

/-! ## Rounding large numbers -/

/-- Shifting divides the significand. -/
theorem mantissa_shift (em : ExtendedMantissa) (j : Nat) :
    (em >>> j).mantissa = em.mantissa / 2 ^ j := by
  change (j.repeat ExtendedMantissa.shiftRightOne em).mantissa = _
  induction j with
  | zero => simp [Nat.repeat]
  | succ j ih =>
      rw [Nat.repeat, pow_succ, ← Nat.div_div_eq_div_mul, ← ih]
      rfl

/-- Rounding keeps the significand or takes the next one. -/
theorem roundedMantissa_cases (em : ExtendedMantissa) :
    em.roundedMantissa = em.mantissa ∨ em.roundedMantissa = em.mantissa + 1 := by
  obtain ⟨m, roundBit, stickyBit⟩ := em
  cases roundBit <;> cases stickyBit
  · exact .inl rfl
  · exact .inl rfl
  · change m + m % 2 = m ∨ m + m % 2 = m + 1
    omega
  · exact .inr rfl

/-- A significand with 53 bits at least, shifted to 53 bits and rounded. -/
theorem exists_shift (hm : 52 ≤ m.log2) (hlower : -1022 ≤ m.log2 + e) :
    ∃ em : ExtendedMantissa, 2 ^ 52 ≤ em.mantissa ∧ em.mantissa < 2 ^ 53 ∧
      shiftToTargetExponent Format.binary64 m e .exact = (em, m.log2 + e - 52) := by
  obtain ⟨j, hj⟩ := Nat.exists_eq_add_of_le hm
  have hpos : m ≠ 0 := by
    rintro rfl
    exact absurd hm (by decide)
  have hamount : ((m.log2 : Int) + e - 52 - e).toNat = j := by omega
  have hmantissa : ((.ofMantissaAndAccuracy m .exact : ExtendedMantissa) >>> j).mantissa =
      m / 2 ^ j := mantissa_shift _ j
  refine ⟨(.ofMantissaAndAccuracy m .exact : ExtendedMantissa) >>> j, ?_, ?_, ?_⟩
  · rw [hmantissa, Nat.le_div_iff_mul_le (Nat.two_pow_pos j), ← pow_add, ← hj]
    exact Nat.log2_self_le hpos
  · have hbits : 53 + j = m.log2 + 1 := by omega
    rw [hmantissa, Nat.div_lt_iff_lt_mul (Nat.two_pow_pos j), ← pow_add, hbits]
    exact Nat.lt_log2_self
  · unfold shiftToTargetExponent shiftToExponent
    rw [targetExponent_of_le hlower]
    dsimp only
    rw [hamount]
    congr 1
    omega

/-- **A large number is rounded to a whole one**, of at most one bit more. -/
theorem exists_roundWithAccuracy (hm : 52 ≤ m.log2) (hlarge : 52 ≤ m.log2 + e)
    (hsmall : m.log2 + e ≤ 1000) (s : Sign) :
    ∃ n i : Nat, ∃ h : Normal n i, i ≤ m.log2 + e - 51 ∧
      roundWithAccuracy Format.binary64 s m e .exact = .finite s n i h.pos := by
  obtain ⟨em, hle, hlt, hshift⟩ := exists_shift (e := e) hm (by omega)
  obtain ⟨f, hf⟩ := Int.eq_ofNat_of_zero_le (by omega : 0 ≤ (m.log2 : Int) + e - 52)
  rw [hf] at hshift
  have hrounded := roundedMantissa_cases em
  -- rounding up can make one bit more, and then the number is shifted once again
  have hagain : ∃ n i : Nat, ∃ _ : Normal n i, i ≤ f + 1 ∧
      shiftToTargetExponent Format.binary64 em.roundedMantissa f .exact =
        (.ofMantissaAndAccuracy n .exact, (i : Int)) := by
    rcases Nat.lt_or_ge em.roundedMantissa (2 ^ 53) with hfits | hmore
    · have hnormal : Normal em.roundedMantissa f := ⟨by omega, hfits, by omega, by omega⟩
      exact ⟨_, f, hnormal, by omega, hnormal.shift_self⟩
    · have hfull : em.roundedMantissa = 2 ^ 52 * 2 ^ 1 := by omega
      have hnormal : Normal (2 ^ 52) (f + 1 : Nat) := ⟨by omega, by decide, by omega, by omega⟩
      rw [hfull]
      exact ⟨_, f + 1, hnormal, by omega, hnormal.shift_eq (by push_cast; rfl)⟩
  obtain ⟨n, i, hnormal, hi, hagain⟩ := hagain
  refine ⟨n, i, hnormal, by omega, ?_⟩
  unfold roundWithAccuracy
  simp only [hshift, hagain]
  exact dif_neg hnormal.pos.ne'

/-! ## Whole numbers -/

/-- Numbers with exponents that are not below zero are whole. -/
theorem number_natCast (s : Sign) (n i : Nat) :
    number (isNegative s) n i = (s.apply (n * 2 ^ i : Nat) : Int) := by
  rw [number_isNegative, zpow_natCast]
  cases s <;> simp [Sign.apply]

theorem number_zero_exponent (s : Sign) (k : Nat) :
    number (isNegative s) k 0 = (s.apply k : Int) := by
  rw [number_isNegative, zpow_zero, mul_one]

theorem natAbs_apply (s : Sign) (k : Nat) : (s.apply k).natAbs = k := by
  cases s <;> simp [Sign.apply]

/-- Where the leading bit of a whole number stands. -/
theorem log2_bounds (hm : 0 < m) (h : (m : Rat) * 2 ^ e = k) (hk : 2 ^ 53 ≤ k) (hk' : k < 2 ^ 100) :
    (2 : Rat) ^ ((m.log2 : Int) + e) ≤ k ∧ 53 ≤ m.log2 + e ∧ m.log2 + e < 100 := by
  have hlower : (2 : Rat) ^ ((m.log2 : Int) + e) ≤ k := by
    have hlog : (2 : Rat) ^ m.log2 ≤ m := by exact_mod_cast Nat.log2_self_le hm.ne'
    rw [← h, zpow_add₀ (by decide), zpow_natCast]
    exact mul_le_mul_of_nonneg_right hlog (zpow_nonneg (by decide) e)
  have hupper : (k : Rat) < 2 ^ ((m.log2 : Int) + 1 + e) := by
    have hlog : (m : Rat) < 2 ^ ((m.log2 : Int) + 1) := by exact_mod_cast Nat.lt_log2_self
    rw [← h, zpow_add₀ (by decide)]
    exact mul_lt_mul_of_pos_right hlog (zpow_pos (by decide) e)
  refine ⟨hlower, ?_, ?_⟩
  · have hpow : (2 : Rat) ^ (53 : Int) < 2 ^ ((m.log2 : Int) + 1 + e) :=
      lt_of_le_of_lt (by exact_mod_cast hk) hupper
    have := (zpow_lt_zpow_iff_right₀ (by decide)).mp hpow
    omega
  · have hpow : (2 : Rat) ^ ((m.log2 : Int) + e) < 2 ^ (100 : Int) :=
      lt_of_le_of_lt hlower (by exact_mod_cast hk')
    exact (zpow_lt_zpow_iff_right₀ (by decide)).mp hpow

/-- **A whole number is rounded to a whole number**, at most four times as large. -/
theorem exists_holds_round (hm : 0 < m) (h : (m : Rat) * 2 ^ e = k) (hk : k < 2 ^ 100) (s : Sign) :
    ∃ k' : Int, k'.natAbs ≤ 4 * k ∧ Holds (UnpackedFloat.round Format.binary64 s m e) k' := by
  rcases Nat.lt_or_ge k (2 ^ 53) with hlt | hle
  · -- it is held exactly
    have hsame : number (isNegative s) m e = (s.apply k : Int) := by
      rw [← number_zero_exponent]
      exact number_congr _ (by rw [h, zpow_zero (2 : Rat), mul_one])
    have hexact : Exact (number (isNegative s) m e) := by
      rw [hsame, ← number_zero_exponent]
      exact exact_number s hlt (by decide) (by decide)
    refine ⟨s.apply k, by rw [natAbs_apply]; omega, ?_⟩
    rw [← hsame]
    exact hexact.holds_round hm s
  · obtain ⟨hlower, hlarge, hsmall⟩ := log2_bounds hm h hle hk
    obtain ⟨j, hj⟩ : ∃ j, j = (e - (m.log2 + e - 52)).toNat := ⟨_, rfl⟩
    have hlog : (m * 2 ^ j).log2 = m.log2 + j := log2_mul_two_pow hm j
    obtain ⟨n, i, hnormal, hi, hround⟩ := exists_roundWithAccuracy (m := m * 2 ^ j) (e := e - j)
      (by omega) (by omega) (by omega) s
    have hrounded : UnpackedFloat.round Format.binary64 s m e = .finite s n i hnormal.pos := by
      unfold UnpackedFloat.round decreaseExponent
      dsimp only
      rw [targetExponent_of_le (by omega), Nat.shiftLeft_eq, ← hj]
      exact hround
    have hbound : ((n * 2 ^ i : Nat) : Rat) ≤ (4 * k : Nat) := by
      push_cast
      calc (n : Rat) * 2 ^ i ≤ 2 ^ 53 * 2 ^ i := by
            exact_mod_cast Nat.mul_le_mul_right _ hnormal.lt.le
        _ = 2 ^ ((53 : Int) + i) := by rw [zpow_add₀ (by decide)]; rfl
        _ ≤ 2 ^ ((2 : Int) + (m.log2 + e)) := zpow_le_zpow_right₀ (by decide) (by omega)
        _ = 4 * 2 ^ ((m.log2 : Int) + e) := by rw [zpow_add₀ (by decide)]; norm_num
        _ ≤ 4 * k := mul_le_mul_of_nonneg_left hlower (by decide)
    refine ⟨s.apply (n * 2 ^ i : Nat), ?_, ?_⟩
    · rw [natAbs_apply]
      exact_mod_cast hbound
    · rw [hrounded, ← number_natCast]
      exact .normal s hnormal

/-- Whole numbers with a sign. -/
theorem exists_holds_normalize {a b : Int} (h : (a : Rat) * 2 ^ e = b) (hb : b.natAbs < 2 ^ 100)
    (s : Sign) :
    ∃ k : Int, k.natAbs ≤ 4 * b.natAbs ∧
      Holds (UnpackedFloat.normalize Format.binary64 a e s) k := by
  have habs : (a.natAbs : Rat) * 2 ^ e = b.natAbs := by
    rw [Nat.cast_natAbs, Nat.cast_natAbs, Int.cast_abs, Int.cast_abs, ← h, abs_mul,
      abs_of_pos (zpow_pos (by decide : (0 : Rat) < 2) e)]
  unfold UnpackedFloat.normalize
  split
  · next hlt =>
      have ha : a < 0 := Int.compare_eq_lt.mp hlt
      have hnat : (-a).toNat = a.natAbs := by omega
      rw [hnat]
      exact exists_holds_round (by omega) habs hb .negative
  · exact ⟨0, Nat.zero_le _, .zero s⟩
  · next hgt =>
      have ha : 0 < a := Int.compare_eq_gt.mp hgt
      have hnat : a.toNat = a.natAbs := by omega
      rw [hnat]
      exact exists_holds_round (by omega) habs hb .positive

theorem Results.exists_holds {b : Int} (h : Results u b) (hb : b.natAbs < 2 ^ 100) :
    ∃ k : Int, Holds u k := by
  rcases h with h | ⟨a, e, rfl, h⟩
  · exact ⟨b, h⟩
  · obtain ⟨k, -, hk⟩ := exists_holds_normalize h hb .positive
    exact ⟨k, hk⟩

/-- **The difference of whole numbers** is a whole number. -/
theorem exists_has_sub {a b : Int} (hx : Has x a) (hy : Has y b) (h : (a - b).natAbs < 2 ^ 100) :
    ∃ k : Int, Has (x - y) k := by
  have hsub : Results (UnpackedFloat.sub Format.binary64 x.toModel.unpack y.toModel.unpack)
      ((a - b : Int) : Rat) := by
    push_cast
    exact Holds.sub hx hy
  obtain ⟨k, hk⟩ := hsub.exists_holds h
  exact ⟨k, hk.has⟩

/-! ## Whole numbers as floating-point numbers -/

theorem mul_finite (s t : Sign) (hm : 0 < m) (hn : 0 < n) :
    mul Format.binary64 (.finite s m e hm) (.finite t n f hn) =
      roundWithAccuracy Format.binary64 (s * t) (m * n) (e + f) .exact := rfl

theorem ofScientific_natCast (hm : 0 < m) :
    UnpackedFloat.ofScientific Format.binary64 m 0 =
      roundWithAccuracy Format.binary64 .positive (m * 2 ^ 53) (-53) .exact := by
  have hbits : Format.binary64.mantissaBits = 53 := rfl
  have hexponents : (2 : Int) ^ Format.binary64.exponentBits = 2048 := rfl
  have hpower : 10 ^ (0 : Int).toNat = 1 := rfl
  unfold UnpackedFloat.ofScientific
  rw [dif_neg hm.ne', if_neg (by decide), hexponents, if_neg (by omega), if_pos (by decide),
    mul_finite, hbits, Nat.shiftLeft_eq, hpower, Nat.mul_one]
  rfl

/-- A product with one. -/
theorem Holds.mul_one (h : Holds u q) :
    Holds (mul Format.binary64 u (.finite .positive (2 ^ 52) (-52) (by decide))) q := by
  cases h with
  | zero s => cases s <;> exact .zero _
  | @normal s m e h =>
      have hsign : s * .positive = s := by cases s <;> rfl
      rw [mul_finite, hsign, h.roundWithAccuracy_eq (by omega)]
      exact .normal s h

/-- A word of 53 bits at most is a floating-point number. -/
theorem has_toFloat {w : UInt64} (hw : w.toNat < 2 ^ 53) : Has w.toFloat (w.toNat : Int) := by
  have hresults : Results (UnpackedFloat.ofUInt64 Format.binary64 w) (w.toNat : Int) :=
    .inr ⟨w.toNat, 0, rfl, by rw [zpow_zero, mul_one]⟩
  have hnumber : ((w.toNat : Int) : Rat) = number (isNegative .positive) w.toNat 0 :=
    (number_zero_exponent .positive _).symm
  have hexact : Exact (w.toNat : Int) := hnumber ▸ exact_number _ hw (by decide) (by decide)
  exact (hresults.holds hexact).has

/-- A natural number of 53 bits at most is a floating-point number. -/
theorem has_ofNat (hm : m < 2 ^ 53) : Has (Float.ofNat m) (m : Int) := by
  have hunfold : Float.ofNat m = m.toUInt64.toFloat * Float.ofBits 0x3FF0000000000000 := by
    change Float.ofScientific m false 0 = _
    rw [Float.ofScientific, dif_pos ⟨hm, by decide⟩]
    rfl
  have hword : m.toUInt64.toNat = m := UInt64.toNat_ofNat_of_lt' (hm.trans (by decide))
  have hfloat : Has m.toUInt64.toFloat (m : Int) := by
    have := has_toFloat (w := m.toUInt64) (by omega)
    rwa [hword] at this
  have hone : (Float.ofBits 0x3FF0000000000000).toModel.unpack =
      .finite .positive (2 ^ 52) (-52) (by decide) := rfl
  rw [hunfold]
  refine Holds.has ?_
  rw [hone]
  exact Holds.mul_one hfloat

/-- A natural number of more bits is rounded. -/
theorem ofNat_eq (hm : 2 ^ 53 ≤ m) : Float.ofNat m = .ofModel (.pack
    (roundWithAccuracy Format.binary64 .positive (m * 2 ^ 53) (-53) .exact)) := by
  rw [← ofScientific_natCast (by omega)]
  change Float.ofScientific m false 0 = _
  rw [Float.ofScientific, dif_neg (by omega)]
  rfl

/-- **A natural number of 64 bits** becomes a whole number. -/
theorem exists_has_ofNat (hm : m < 2 ^ 64) :
    ∃ k : Int, k.natAbs ≤ 2 ^ 66 ∧ Has (Float.ofNat m) k := by
  rcases Nat.lt_or_ge m (2 ^ 53) with hlt | hle
  · exact ⟨m, by omega, has_ofNat hlt⟩
  · have hlog : 53 ≤ m.log2 := (Nat.le_log2 (by omega)).mpr hle
    have hlog' : m.log2 < 64 := (Nat.log2_lt (by omega)).mpr hm
    have hshifted : (m * 2 ^ 53).log2 = m.log2 + 53 := log2_mul_two_pow (by omega) 53
    obtain ⟨n, i, hnormal, hi, hround⟩ := exists_roundWithAccuracy (m := m * 2 ^ 53) (e := -53)
      (by omega) (by omega) (by omega) .positive
    have hbound : n * 2 ^ i ≤ 2 ^ 53 * 2 ^ 13 :=
      Nat.mul_le_mul hnormal.lt.le (Nat.pow_le_pow_right (by decide) (by omega))
    refine ⟨Sign.positive.apply (n * 2 ^ i : Nat), by rw [natAbs_apply]; exact hbound, ?_⟩
    rw [ofNat_eq hle, hround, ← number_natCast]
    exact (Holds.normal .positive hnormal).has

/-- **A whole number of 64 bits** becomes a whole number. -/
theorem exists_has_ofInt {a : Int} (ha : a.natAbs < 2 ^ 64) :
    ∃ k : Int, k.natAbs ≤ 2 ^ 66 ∧ Has (Float.ofInt a) k := by
  cases a with
  | ofNat m => exact exists_has_ofNat ha
  | negSucc m =>
      obtain ⟨k, hk, hhas⟩ := exists_has_ofNat (m := m + 1) ha
      refine ⟨-k, by rwa [Int.natAbs_neg], ?_⟩
      rw [Int.cast_neg]
      exact hhas.neg

/-! ## Halving -/

/-- Half of a whole number below a power of two. -/
theorem natAbs_lt_of_abs_half_lt {a : Int} (h : |(a / 2 : Rat)| < 2 ^ n) :
    a.natAbs < 2 ^ (n + 1) := by
  have htwo : |(a : Rat)| < 2 ^ (n + 1) := by
    rw [abs_div, abs_two, div_lt_iff₀ (by decide)] at h
    exact h.trans_eq (pow_succ 2 n).symm
  have habs : ((a.natAbs : Int) : Rat) < 2 ^ (n + 1) := by
    rwa [Int.natCast_natAbs, Int.cast_abs]
  exact_mod_cast habs

/-- A significand of 53 bits, divided by two. -/
theorem Normal.divCore_two (h : Normal m e) (he : -1072 ≤ e) :
    divCore Format.binary64 m e (2 ^ 52) (-51) = (m * 2 ^ 1, e - 2, .exact) := by
  have htotal : Float.Model.totalExponent m e - Float.Model.totalExponent (2 ^ 52) (-51) =
      e + 51 := by
    unfold Float.Model.totalExponent
    rw [h.log2, Nat.log2_two_pow]
    omega
  have htarget : min (e - -51) (Format.binary64.targetExponent (e + 51)) = e - 2 := by
    change min (e - -51) (max (e + 51 - 53) (-1074)) = e - 2
    omega
  have hamount : (e - -51 - (e - 2)).toNat = 53 := by omega
  have hquotient : m * 2 ^ 53 / 2 ^ 52 = m * 2 ^ 1 := by omega
  have hrest : m * 2 ^ 53 % 2 ^ 52 = 0 := by omega
  unfold divCore
  rw [htotal, htarget]
  dsimp only
  rw [hamount, Nat.shiftLeft_eq, hquotient, hrest]
  rfl

/-- A whole number that is normal has no more than 53 bits behind the point. -/
theorem Normal.lower_of_whole (h : Normal m e) {k : Int} {negative : Bool}
    (hk : (k : Rat) = number negative m e) : -53 ≤ e := by
  have habs : ((|k| : Int) : Rat) = m * 2 ^ e := by rw [Int.cast_abs, hk, abs_number]
  have hone : (1 : Rat) ≤ m * 2 ^ e := by
    have hpos := h.value_pos
    rw [← habs] at hpos ⊢
    exact_mod_cast hpos
  have := h.lt_exponent (k := 0) (by rwa [zpow_zero])
  omega

/-- **Half of a whole number** is exact. -/
theorem Has.half {k : Int} (hx : Has x k) : Has (x / 2) (k / 2) := by
  have htwo : (2 : Float).toModel.unpack = .finite .positive (2 ^ 52) (-51) (by decide) := rfl
  refine Holds.has ?_
  rw [htwo]
  unfold Has at hx
  generalize hq : (k : Rat) = q at hx
  generalize x.toModel.unpack = u at hx
  cases hx with
  | zero s =>
      rw [zero_div]
      cases s <;> exact .zero _
  | @normal s m e h =>
      have hlower := h.lower_of_whole hq
      have hupper := h.upper
      have hnormal : Normal m (e - 1) := ⟨h.le, h.lt, by omega, by omega⟩
      have hsign : s / Sign.positive = s := by cases s <;> rfl
      have hdiv : div Format.binary64 (.finite s m e h.pos) (.finite .positive (2 ^ 52) (-51)
          (by decide)) = .finite s m (e - 1) h.pos := by
        change (let (n, f, accuracy) := divCore Format.binary64 m e (2 ^ 52) (-51)
          roundWithAccuracy Format.binary64 (s / Sign.positive) n f accuracy) = _
        rw [h.divCore_two (by omega), hsign]
        exact hnormal.roundWithAccuracy_eq (by omega) s
      have hhalf : number (isNegative s) m e / 2 = number (isNegative s) m (e - 1) := by
        rw [number, number, zpow_sub_one₀ (by decide), div_eq_mul_inv, mul_assoc]
      rw [hdiv, hhalf]
      exact .normal s hnormal

/-! ## Offsets -/

/-- **The offset that an exchange gives** is a number of halves. -/
theorem is_offset {exchange : Exchange} {sample : Sample Float}
    (h : Sample.ofExchange exchange = .ok sample) : ∃ k : Int, Is sample.offset (k / 2) := by
  have hword (t : Int64) : t.toInt.natAbs < 2 ^ 64 := by
    have hlower : -2 ^ 63 ≤ t.toInt := t.le_toInt
    have hupper : t.toInt < 2 ^ 63 := t.toInt_lt
    omega
  unfold Sample.ofExchange at h
  split at h
  · next there back hthere hback =>
      obtain rfl := Except.ok.inj h
      obtain ⟨a, ha, hhas⟩ := exists_has_ofInt (hword there)
      obtain ⟨b, hb, hhas'⟩ := exists_has_ofInt (hword back)
      obtain ⟨k, hk⟩ := exists_has_sub hhas hhas' (by omega)
      exact ⟨k, hk.half.is⟩
  · cases h

end CriticalSection.Binary64
