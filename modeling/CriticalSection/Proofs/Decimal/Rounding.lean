import CriticalSection.Proofs.Decimal.Packing
import CriticalSection.Quantity

/-!
# Exact floating-point arithmetic

A sum of two floating-point numbers is the exact sum, rounded to 53 bits. When the sum can be held
exactly, rounding changes nothing. So calculations with halves whose number is below two to the
power of 53 are exact, and rounding such a number to a whole one is exact too.
-/

set_option autoImplicit false

open Float.Model (Format UnpackedFloat)
open Float.Model.UnpackedFloat

namespace CriticalSection.Binary64

variable {m n j : Nat} {e f : Int} {p q : Rat} {u v : UnpackedFloat} {x y : Float}

/-! ## Rounding what needs no rounding -/

theorem log2_mul_two_pow (hm : 0 < m) (j : Nat) : (m * 2 ^ j).log2 = m.log2 + j := by
  have hpos : 0 < 2 ^ j := Nat.two_pow_pos j
  rw [Nat.log2_eq_iff (Nat.mul_pos hm hpos).ne']
  constructor
  · rw [pow_add]
    exact Nat.mul_le_mul_right _ (Nat.log2_self_le hm.ne')
  · rw [Nat.add_right_comm, pow_add _ _ j]
    exact Nat.mul_lt_mul_of_pos_right Nat.lt_log2_self hpos

/-- The exponent at which a number has 53 bits, if it is not too small. -/
theorem targetExponent_eq : Format.binary64.targetExponent (Float.Model.totalExponent m e) =
    max (m.log2 + e - 52) (-1074) := by
  change max ((m.log2 : Int) + 1 + e - 53) (-1074) = _
  congr 1
  omega

theorem targetExponent_of_le (h : -1022 ≤ m.log2 + e) :
    Format.binary64.targetExponent (Float.Model.totalExponent m e) = m.log2 + e - 52 := by
  rw [targetExponent_eq]
  omega

/-- Zeros are shifted out without loss. -/
theorem shift_exact (n j : Nat) :
    (ExtendedMantissa.ofMantissaAndAccuracy (n * 2 ^ j) .exact) >>> j =
      ExtendedMantissa.ofMantissaAndAccuracy n .exact := by
  change j.repeat ExtendedMantissa.shiftRightOne ⟨n * 2 ^ j, false, false⟩ = ⟨n, false, false⟩
  induction j generalizing n with
  | zero => simp [Nat.repeat]
  | succ j ih =>
      rw [Nat.repeat, pow_succ', ← Nat.mul_assoc, ih]
      simp [ExtendedMantissa.shiftRightOne]

theorem Normal.shift_eq (h : Normal n f) (hj : f = e + j) :
    shiftToTargetExponent Format.binary64 (n * 2 ^ j) e .exact =
      (.ofMantissaAndAccuracy n .exact, f) := by
  have hlower := h.lower
  have hlog : (n * 2 ^ j).log2 = 52 + j := by rw [log2_mul_two_pow h.pos, h.log2]
  have hshift : (f - e).toNat = j := by omega
  unfold shiftToTargetExponent shiftToExponent
  rw [targetExponent_of_le (by omega), hlog]
  have htarget : ((52 + j : Nat) : Int) + e - 52 = f := by omega
  dsimp only
  rw [htarget, hshift, shift_exact, ← hj]

/-- A normal number is shifted no further. -/
theorem Normal.shift_self (h : Normal n f) :
    shiftToTargetExponent Format.binary64 n f .exact = (.ofMantissaAndAccuracy n .exact, f) := by
  have hshift := h.shift_eq (j := 0) (Int.add_zero f).symm
  rwa [pow_zero, Nat.mul_one] at hshift

/-- **A normal number with zeros behind it** loses the zeros. -/
theorem Normal.roundWithAccuracy_eq (h : Normal n f) (hj : f = e + j) (s : Sign) :
    roundWithAccuracy Format.binary64 s (n * 2 ^ j) e .exact = .finite s n f h.pos := by
  have hrounded : (ExtendedMantissa.ofMantissaAndAccuracy n .exact).roundedMantissa = n := rfl
  unfold roundWithAccuracy
  simp only [h.shift_eq hj, hrounded, h.shift_self]
  exact dif_neg h.pos.ne'

/-- One number with two exponents, in units of the smaller power. -/
theorem mul_two_pow_eq (h : (m : Rat) * 2 ^ e = n * 2 ^ f) :
    m * 2 ^ (e - f).toNat = n * 2 ^ (f - e).toNat := by
  have hsplit (d g : Int) : (2 : Rat) ^ d = 2 ^ (d - g).toNat * 2 ^ min d g := by
    rw [← zpow_natCast, ← zpow_add₀ (by decide)]
    congr 1
    omega
  rw [hsplit e f, hsplit f e, min_comm f e, ← mul_assoc, ← mul_assoc] at h
  exact_mod_cast mul_right_cancel₀ (zpow_ne_zero _ (by decide)) h

/-- **A number is rounded to the normal number** that it is. -/
theorem Normal.round_eq (h : Normal n f) (hm : 0 < m) (heq : (m : Rat) * 2 ^ e = n * 2 ^ f)
    (s : Sign) : UnpackedFloat.round Format.binary64 s m e = .finite s n f h.pos := by
  have hlower := h.lower
  have hsame := mul_two_pow_eq heq
  have hlog := congrArg Nat.log2 hsame
  rw [log2_mul_two_pow hm, log2_mul_two_pow h.pos, h.log2] at hlog
  have htarget : (m.log2 : Int) + e - 52 = f := by omega
  unfold UnpackedFloat.round decreaseExponent
  dsimp only
  rw [targetExponent_of_le (by omega), htarget, Nat.shiftLeft_eq, hsame]
  exact h.roundWithAccuracy_eq (by omega) s

/-- **A number that can be held exactly** is not changed by rounding. -/
theorem Exact.holds_round (hm : 0 < m) (s : Sign) (h : Exact (number (isNegative s) m e)) :
    Holds (UnpackedFloat.round Format.binary64 s m e) (number (isNegative s) m e) := by
  have habs := abs_number (isNegative s) m e
  obtain ⟨u, hu⟩ := h
  generalize hq : number (isNegative s) m e = q at hu
  rw [hq] at habs
  cases hu with
  | zero s' =>
      have hne : (m : Rat) * 2 ^ e ≠ 0 :=
        mul_ne_zero (Nat.cast_ne_zero.mpr hm.ne') (zpow_ne_zero _ (by decide))
      rw [abs_zero] at habs
      exact absurd habs.symm hne
  | @normal s' n f hnormal =>
      rw [abs_number] at habs
      rw [hnormal.round_eq hm habs.symm, ← hq, number_congr _ habs.symm]
      exact .normal s hnormal

theorem mul_eq_number_negative {k : Int} (h : k < 0) (e : Int) :
    (k : Rat) * 2 ^ e = number (isNegative .negative) (-k).toNat e := by
  have hk : -((-k).toNat : Int) = k := by omega
  rw [number_isNegative, Sign.apply, hk]

theorem mul_eq_number_positive {k : Int} (h : 0 < k) (e : Int) :
    (k : Rat) * 2 ^ e = number (isNegative .positive) k.toNat e := by
  have hk : (k.toNat : Int) = k := by omega
  rw [number_isNegative, Sign.apply, hk]

/-- Numbers with a sign are not changed either. -/
theorem Exact.holds_normalize {k : Int} (h : Exact (k * 2 ^ e)) (s : Sign) :
    Holds (UnpackedFloat.normalize Format.binary64 k e s) (k * 2 ^ e) := by
  unfold UnpackedFloat.normalize
  split
  · next hlt =>
      have hk : k < 0 := Int.compare_eq_lt.mp hlt
      rw [mul_eq_number_negative hk] at h ⊢
      exact h.holds_round (by omega) .negative
  · next heq =>
      obtain rfl : k = 0 := Int.compare_eq_eq.mp heq
      rw [Int.cast_zero, zero_mul]
      exact .zero s
  · next hgt =>
      have hk : 0 < k := Int.compare_eq_gt.mp hgt
      rw [mul_eq_number_positive hk] at h ⊢
      exact h.holds_round (by omega) .positive

/-! ## Negatives, sums and differences -/

theorem Holds.neg (h : Holds u q) : Holds u.neg (-q) := by
  cases h with
  | zero s =>
      rw [neg_zero]
      exact .zero _
  | normal s h =>
      rw [← number_not, ← isNegative_neg]
      exact .normal _ h

/-- **The negative of a number.** -/
theorem Has.neg (h : Has x q) : Has (-x) (-q) := Holds.neg h |>.has

/-- A number in units of a smaller power. -/
theorem apply_shiftLeft (s : Sign) (m : Nat) (h : f ≤ e) :
    ((s.apply (m <<< (e - f).toNat : Nat) : Int) : Rat) * 2 ^ f = number (isNegative s) m e := by
  have hsame : ((m <<< (e - f).toNat : Nat) : Rat) * 2 ^ f = m * 2 ^ e := by
    have he : e = (e - f).toNat + f := by omega
    conv_rhs => rw [he, zpow_add₀ (by decide), zpow_natCast, ← mul_assoc]
    rw [Nat.shiftLeft_eq]
    push_cast
    rfl
  rw [← number_isNegative, number_congr _ hsame]

/-- **An exact result**, or a number that remains to be rounded to one. -/
def Results (u : UnpackedFloat) (q : Rat) : Prop :=
  Holds u q ∨ ∃ (k e : Int),
    u = UnpackedFloat.normalize Format.binary64 k e .positive ∧ k * 2 ^ e = q

theorem Results.holds (h : Results u q) (hq : Exact q) : Holds u q := by
  rcases h with h | ⟨k, e, rfl, rfl⟩
  · exact h
  · exact hq.holds_normalize .positive

theorem Holds.add (hu : Holds u p) (hv : Holds v q) :
    Results (UnpackedFloat.add Format.binary64 u v) (p + q) := by
  cases hu with
  | zero s =>
      left
      cases hv with
      | zero s' =>
          rw [add_zero]
          cases s <;> cases s' <;> exact .zero _
      | normal s' h' =>
          rw [zero_add]
          exact .normal s' h'
  | @normal s m e h =>
      cases hv with
      | zero s' =>
          left
          rw [add_zero]
          exact .normal s h
      | @normal s' n f h' =>
          refine .inr ⟨_, min e f, rfl, ?_⟩
          rw [Int.cast_add, add_mul, apply_shiftLeft s m (min_le_left e f),
            apply_shiftLeft s' n (min_le_right e f)]

theorem Holds.sub (hu : Holds u p) (hv : Holds v q) :
    Results (UnpackedFloat.sub Format.binary64 u v) (p - q) := by
  cases hu with
  | zero s =>
      left
      cases hv with
      | zero s' =>
          rw [sub_zero]
          cases s <;> cases s' <;> exact .zero _
      | normal s' h' =>
          rw [zero_sub]
          exact (Holds.normal s' h').neg
  | @normal s m e h =>
      cases hv with
      | zero s' =>
          left
          rw [sub_zero]
          exact .normal s h
      | @normal s' n f h' =>
          refine .inr ⟨_, min e f, rfl, ?_⟩
          rw [Int.cast_sub, sub_mul, apply_shiftLeft s m (min_le_left e f),
            apply_shiftLeft s' n (min_le_right e f)]

/-- **The sum of two numbers** is exact if it can be held exactly. -/
theorem Has.add (hx : Has x p) (hy : Has y q) (h : Exact (p + q)) : Has (x + y) (p + q) :=
  (Holds.add hx hy).holds h |>.has

/-! ## Halves -/

/-- A significand of 53 bits at most is held exactly. -/
theorem exact_number (s : Sign) (hm : m < 2 ^ 53) (hlower : -1022 ≤ e) (hupper : e ≤ 971) :
    Exact (number (isNegative s) m e) := by
  rcases Nat.eq_zero_or_pos m with rfl | hpos
  · rw [number_zero]
    exact ⟨_, .zero s⟩
  · have hlog : m.log2 ≤ 52 := Nat.lt_succ_iff.mp ((Nat.log2_lt hpos.ne').mpr hm)
    obtain ⟨j, hj⟩ := Nat.exists_eq_add_of_le hlog
    -- the significand is moved until its leading bit is the 53rd one
    have hmoved : (m * 2 ^ j).log2 = 52 := by rw [log2_mul_two_pow hpos, ← hj]
    have hne : m * 2 ^ j ≠ 0 := (Nat.mul_pos hpos (Nat.two_pow_pos j)).ne'
    obtain ⟨hle, hlt⟩ := (Nat.log2_eq_iff hne).mp hmoved
    have hnormal : Normal (m * 2 ^ j) (e - j) := ⟨hle, hlt, by omega, by omega⟩
    have hsame : (m : Rat) * 2 ^ e = (m * 2 ^ j : Nat) * 2 ^ (e - j) := by
      rw [zpow_sub₀ (by decide), zpow_natCast]
      push_cast
      field_simp
    rw [number_congr _ hsame]
    exact ⟨_, .normal s hnormal⟩

/-- **Halves** are held exactly when their number has 53 bits at most. -/
theorem exact_halves {k : Int} (hk : k.natAbs < 2 ^ 53) : Exact (k / 2) := by
  have hhalf (s : Sign) (n : Nat) : number (isNegative s) n (-1) = (s.apply n : Int) / 2 := by
    rw [number_isNegative, div_eq_mul_inv, zpow_neg_one]
  obtain ⟨n, rfl | rfl⟩ := Int.eq_nat_or_neg k
  · rw [Int.natAbs_natCast] at hk
    have hexact := exact_number .positive hk (e := -1) (by decide) (by decide)
    rwa [hhalf] at hexact
  · rw [Int.natAbs_neg, Int.natAbs_natCast] at hk
    have hexact := exact_number .negative hk (e := -1) (by decide) (by decide)
    rwa [hhalf] at hexact

theorem has_half : Has 0.5 (1 / 2) := by
  have hunpack : (0.5 : Float).toModel.unpack = .finite .positive (2 ^ 52) (-53) (by decide) := rfl
  have hnormal : Normal (2 ^ 52) (-53) := ⟨by decide, by decide, by decide, by decide⟩
  have hnumber : number (isNegative .positive) (2 ^ 52) (-53) = 1 / 2 := by
    rw [number_isNegative, Sign.apply]
    norm_num
  rw [Has, hunpack, ← hnumber]
  exact .normal .positive hnormal

/-- **Rounding to a whole number** is exact when no half more is lost. -/
theorem Has.round_eq (hx : Has x q) (h : Exact (q + 1 / 2)) :
    Quantity.round x = Quantity.round q := by
  have hsum : Is (x + 0.5) (q + 1 / 2) := (hx.add has_half h).is
  rw [Is] at hsum
  cases hparts : ofFloat (x + 0.5) with
  | nan => rw [hparts] at hsum; cases hsum
  | infinite negative => rw [hparts] at hsum; cases hsum
  | finite negative m e =>
      rw [hparts, value?] at hsum
      simp only [Quantity.round, hparts]
      rw [floor_eq, Option.some.inj hsum]
      rfl

end CriticalSection.Binary64
