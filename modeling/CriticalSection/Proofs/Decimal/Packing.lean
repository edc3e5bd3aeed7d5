import Mathlib
import CriticalSection.Decimal.Binary64

/-!
# The numbers that floating-point numbers are

A floating-point number is a word of 64 bits. Its parts, from which floors and digits are read off,
and the unpacked form in which numbers are added and rounded are two readings of that word, and they
agree. **Normal** numbers have a significand of 53 bits; zero and the normal numbers are packed into
a word and unpacked from it without loss. The numbers that are too small to be normal play no part
here.
-/

set_option autoImplicit false

open Float.Model (Format UnpackedFloat)
open Float.Model.UnpackedFloat

namespace CriticalSection.Binary64

/-! ## Numbers and their parts -/

/-- The number with a sign, a significand and an exponent. -/
def number (negative : Bool) (significand : Nat) (exponent : Int) : Rat :=
  (if negative then -(significand : Int) else significand : Int) * 2 ^ exponent

/-- **The number that the parts stand for**, if they are those of a number. -/
def value? : Binary64 → Option Rat
  | .finite negative significand exponent => some (number negative significand exponent)
  | _ => none

/-- **A floating-point number is a rational number.** -/
def Is (x : Float) (q : Rat) : Prop := (ofFloat x).value? = some q

section Number

variable {m n : Nat} {e f : Int}

theorem number_zero (negative : Bool) (e : Int) : number negative 0 e = 0 := by
  simp [number]

theorem number_false (m : Nat) (e : Int) : number false m e = m * 2 ^ e := rfl

theorem number_not (negative : Bool) (m : Nat) (e : Int) :
    number (!negative) m e = -number negative m e := by
  cases negative <;> simp [number]

theorem number_congr (negative : Bool) (h : (m : Rat) * 2 ^ e = n * 2 ^ f) :
    number negative m e = number negative n f := by
  unfold number
  cases negative <;> simp [h]

theorem abs_number (negative : Bool) (m : Nat) (e : Int) : |number negative m e| = m * 2 ^ e := by
  rw [number, abs_mul, abs_of_pos (zpow_pos (by decide : (0 : Rat) < 2) e)]
  cases negative <;> simp

/-- **The floor** is that of the number. -/
theorem floor_eq (negative : Bool) (m : Nat) (e : Int) :
    floor negative m e = ⌊number negative m e⌋ := by
  unfold floor number
  dsimp only
  generalize (if negative then -(m : Int) else m : Int) = n
  cases e with
  | ofNat j =>
      have hwhole : (n : Rat) * 2 ^ (Int.ofNat j) = ((n * 2 ^ j : Int) : Rat) := by
        push_cast
        rfl
      rw [hwhole, Int.floor_intCast]
      rfl
  | negSucc j =>
      have hfraction : (n : Rat) * 2 ^ (Int.negSucc j) = n / ((2 ^ (j + 1) : Nat) : Rat) := by
        rw [zpow_negSucc, div_eq_mul_inv]
        push_cast
        rfl
      rw [hfraction, Rat.floor_intCast_div_natCast]
      exact Int.fdiv_eq_ediv_of_nonneg _ (Int.natCast_nonneg _)

end Number

/-! ## The two readings of a word -/

/-- Whether a sign is that of a negative number. -/
def isNegative : Sign → Bool
  | .negative => true
  | .positive => false

theorem isNegative_neg (s : Sign) : isNegative (-s) = !isNegative s := by
  cases s <;> rfl

theorem number_isNegative (s : Sign) (m : Nat) (e : Int) :
    number (isNegative s) m e = (s.apply m : Int) * 2 ^ e := by
  cases s <;> rfl

/-- The parts of an unpacked number. -/
def ofUnpacked : UnpackedFloat → Binary64
  | .infinity s => .infinite (isNegative s)
  | .notANumber => .nan
  | .zero s => .finite (isNegative s) 0 (-1074)
  | .finite s m e _ => .finite (isNegative s) m e

section Words

variable (b : BitVec 64)

/-- The fraction that a word holds. -/
abbrev fraction : BitVec 52 := @unpackMantissa Format.binary64 b

/-- The exponent that a word holds. -/
abbrev field : BitVec 11 := @unpackExponent Format.binary64 b

theorem toNat_fraction : (fraction b).toNat = b.toNat % 2 ^ 52 := by
  simp [fraction, unpackMantissa]

theorem toNat_field : (field b).toNat = b.toNat / 2 ^ 52 % 2 ^ 11 := by
  simp [field, unpackExponent, Nat.shiftRight_eq_div_pow]

theorem isNegative_ofBitVec (s : BitVec 1) : isNegative (Sign.ofBitVec s) = (s.toNat == 1) := by
  revert s
  decide

theorem isNegative_unpackSign :
    isNegative (Sign.ofBitVec (@unpackSign Format.binary64 b)) =
      (b.toNat / 2 ^ 63 % 2 == 1) := by
  rw [isNegative_ofBitVec]
  simp [unpackSign, Nat.shiftRight_eq_div_pow]

theorem fraction_eq_zero_iff : fraction b = 0#52 ↔ (fraction b).toNat = 0 :=
  BitVec.toNat_inj.symm

theorem field_eq_zero_iff : field b = 0#11 ↔ (field b).toNat = 0 :=
  BitVec.toNat_inj.symm

theorem field_eq_full_iff : field b = -1#11 ↔ (field b).toNat = 2047 :=
  BitVec.toNat_inj.symm

end Words

/-- The leading bit of a significand stands in front of the fraction. -/
theorem toNat_significand (m : BitVec 52) : (1#1 ++ m).toNat = 2 ^ 52 + m.toNat := by
  rw [BitVec.toNat_append, ← Nat.shiftLeft_add_eq_or_of_lt m.isLt]
  rfl

/-- **Both readings of a word agree.** -/
theorem ofBits_eq (b : BitVec 64) : ofBits b.toNat = ofUnpacked (unpack Format.binary64 b) := by
  unfold ofBits unpack
  dsimp only [Nat.pow_eq]
  rw [← toNat_field, ← toNat_fraction, ← isNegative_unpackSign]
  by_cases hfull : (field b).toNat = 2047
  · rw [if_pos hfull, if_pos ((field_eq_full_iff b).mpr hfull)]
    by_cases hzero : (fraction b).toNat = 0
    · rw [if_pos hzero, if_pos ((fraction_eq_zero_iff b).mpr hzero)]
      rfl
    · rw [if_neg hzero, if_neg (mt (fraction_eq_zero_iff b).mp hzero)]
      rfl
  · rw [if_neg hfull, if_neg (mt (field_eq_full_iff b).mp hfull)]
    by_cases hnone : (field b).toNat = 0
    · rw [if_pos hnone, if_pos ((field_eq_zero_iff b).mpr hnone)]
      by_cases hzero : (fraction b).toNat = 0
      · rw [dif_pos ((fraction_eq_zero_iff b).mpr hzero), hzero]
        rfl
      · rw [dif_neg (mt (fraction_eq_zero_iff b).mp hzero), hnone]
        rfl
    · rw [if_neg hnone, if_neg (mt (field_eq_zero_iff b).mp hnone), ofUnpacked, toNat_significand]
      rfl

theorem ofFloat_eq (x : Float) : ofFloat x = ofUnpacked x.toModel.unpack :=
  ofBits_eq x.toModel.toBits.toBitVec

/-! ## Normal numbers -/

/-- **The significands and exponents of the normal numbers.** -/
structure Normal (m : Nat) (e : Int) : Prop where
  le : 2 ^ 52 ≤ m
  lt : m < 2 ^ 53
  lower : -1074 ≤ e
  upper : e ≤ 971

section Normal

variable {m n : Nat} {e f : Int}

theorem Normal.pos (h : Normal m e) : 0 < m := Nat.lt_of_lt_of_le (by decide) h.le

theorem Normal.log2 (h : Normal m e) : m.log2 = 52 :=
  (Nat.log2_eq_iff h.pos.ne').mpr ⟨h.le, h.lt⟩

theorem Normal.value_pos (h : Normal m e) : (0 : Rat) < m * 2 ^ e :=
  mul_pos (Nat.cast_pos.mpr h.pos) (zpow_pos (by decide) e)

/-- The exponent of a number that is small. -/
theorem Normal.exponent_lt (h : Normal m e) {k : Int} (hlt : (m : Rat) * 2 ^ e < 2 ^ k) :
    52 + e < k := by
  have hm : (2 : Rat) ^ (52 : Int) ≤ m := by exact_mod_cast h.le
  refine (zpow_lt_zpow_iff_right₀ (by decide : (1 : Rat) < 2)).mp ?_
  calc (2 : Rat) ^ (52 + e) = 2 ^ (52 : Int) * 2 ^ e := zpow_add₀ (by decide) _ _
    _ ≤ m * 2 ^ e := mul_le_mul_of_nonneg_right hm (zpow_pos (by decide) e).le
    _ < 2 ^ k := hlt

/-- The exponent of a number that is large. -/
theorem Normal.lt_exponent (h : Normal m e) {k : Int} (hle : (2 : Rat) ^ k ≤ m * 2 ^ e) :
    k < 53 + e := by
  have hm : (m : Rat) < 2 ^ (53 : Int) := by exact_mod_cast h.lt
  refine (zpow_lt_zpow_iff_right₀ (by decide : (1 : Rat) < 2)).mp ?_
  calc (2 : Rat) ^ k ≤ m * 2 ^ e := hle
    _ < 2 ^ (53 : Int) * 2 ^ e := mul_lt_mul_of_pos_right hm (zpow_pos (by decide) e)
    _ = 2 ^ (53 + e) := (zpow_add₀ (by decide) _ _).symm

/-- Numbers with fewer bits at the smallest exponent are smaller than all normal ones. -/
theorem Normal.lt_of_subnormal (h : Normal n f) (hm : m < 2 ^ 52) :
    (m : Rat) * 2 ^ (-1074 : Int) < n * 2 ^ f := by
  have hpos : (0 : Rat) < 2 ^ (-1074 : Int) := zpow_pos (by decide) _
  have hpow : (2 : Rat) ^ (-1074 : Int) ≤ 2 ^ f := zpow_le_zpow_right₀ (by decide) h.lower
  have hmn : (m : Rat) < n := by exact_mod_cast Nat.lt_of_lt_of_le hm h.le
  calc (m : Rat) * 2 ^ (-1074 : Int) < n * 2 ^ (-1074 : Int) := mul_lt_mul_of_pos_right hmn hpos
    _ ≤ n * 2 ^ f := mul_le_mul_of_nonneg_left hpow (Nat.cast_nonneg n)

end Normal

/-- **What an unpacked number holds**, if it is zero or a normal number. -/
inductive Holds : UnpackedFloat → Rat → Prop
  | zero (s : Sign) : Holds (.zero s) 0
  | normal (s : Sign) {m : Nat} {e : Int} (h : Normal m e) :
      Holds (.finite s m e h.pos) (number (isNegative s) m e)

/-- **A number that can be held exactly.** -/
def Exact (q : Rat) : Prop := ∃ u, Holds u q

/-- **What a floating-point number holds.** -/
def Has (x : Float) (q : Rat) : Prop := Holds x.toModel.unpack q

variable {u : UnpackedFloat} {q : Rat} {s : Sign} {m : Nat} {e : Int}

theorem Holds.value? (h : Holds u q) : (ofUnpacked u).value? = some q := by
  cases h with
  | zero s => rw [ofUnpacked, Binary64.value?, number_zero]
  | normal s h => rfl

/-- What a floating-point number holds it is. -/
theorem Has.is {x : Float} (h : Has x q) : Is x q := by
  rw [Is, ofFloat_eq]
  exact h.value?

/-- Nothing holds a number that is too small to be normal. -/
theorem not_holds_subnormal (hpos : 0 < m) (hm : m < 2 ^ 52) (negative : Bool) :
    ¬ Holds u (number negative m (-1074)) := by
  have habs := abs_number negative m (-1074)
  intro h
  generalize number negative m (-1074) = q at h habs
  cases h with
  | zero s =>
      have hne : (m : Rat) * 2 ^ (-1074 : Int) ≠ 0 :=
        mul_ne_zero (Nat.cast_ne_zero.mpr hpos.ne') (zpow_ne_zero _ (by decide))
      rw [abs_zero] at habs
      exact hne habs.symm
  | normal s h =>
      rw [abs_number] at habs
      exact (h.lt_of_subnormal hm).ne habs.symm

/-! ## Unpacking -/

/-- What is unpacked is normal, or too small for that. -/
theorem normal_or_subnormal {b : BitVec 64} {hm : 0 < m}
    (h : unpack Format.binary64 b = .finite s m e hm) : Normal m e ∨ m < 2 ^ 52 ∧ e = -1074 := by
  have hfraction : (fraction b).toNat < 2 ^ 52 := (fraction b).isLt
  have hfield : (field b).toNat < 2048 := (field b).isLt
  unfold unpack at h
  dsimp only at h
  split at h
  · split at h <;> cases h
  · next hfull =>
      have hfull' := mt (field_eq_full_iff b).mpr hfull
      split at h
      · next hnone =>
          split at h
          · cases h
          · injection h with hs hm' he
            rw [hnone] at he
            exact .inr ⟨hm' ▸ hfraction, he.symm⟩
      · next hnone =>
          have hnone' := mt (field_eq_zero_iff b).mpr hnone
          injection h with hs hm' he
          rw [toNat_significand] at hm'
          have he' : ((field b).toNat : Int) - (1023 + 52) = e := he
          left
          constructor <;> omega

/-- **A number that can be held exactly is held** by the floating-point number that is it. -/
theorem Is.has {x : Float} (h : Is x q) (hq : Exact q) : Has x q := by
  rw [Is, ofFloat_eq] at h
  unfold Has
  cases hunpack : x.toModel.unpack with
  | infinity s => rw [hunpack] at h; cases h
  | notANumber => rw [hunpack] at h; cases h
  | zero s =>
      rw [hunpack, (Holds.zero s).value?] at h
      obtain rfl := Option.some.inj h
      exact .zero s
  | finite s m e hm =>
      rw [hunpack] at h
      obtain rfl := Option.some.inj h
      rcases normal_or_subnormal hunpack with hnormal | ⟨hsmall, rfl⟩
      · exact .normal s hnormal
      · obtain ⟨u, hu⟩ := hq
        exact absurd hu (not_holds_subnormal hm hsmall _)

/-! ## Packing -/

/-- The parts that were packed are unpacked, unless the exponent is a special one. -/
theorem unpack_packComponents {spec : Format} (s : Sign) {e : BitVec spec.exponentBits}
    (m : BitVec spec.mantissaBitsWithoutImplicit) (hfull : e ≠ -1#_) (hnone : e ≠ 0#_) :
    unpack spec (packComponents spec s e m) =
      .finite s (1#1 ++ m).toNat
        (e.toNat - (spec.exponentBias + spec.mantissaBitsWithoutImplicit)) (by simp) := by
  unfold unpack
  simp only [unpackExponent_packComponents, unpackMantissa_packComponents,
    unpackSign_packComponents, Sign.ofBitVec_toBitVec, hfull, hnone, if_false]

/-- A normal number is packed with the exponent moved by its bias, and without its leading bit. -/
theorem Normal.pack_eq (h : Normal m e) (s : Sign) {b : Nat} (hb : e + 1075 = b) :
    pack Format.binary64 (.finite s m e h.pos) =
      packComponents Format.binary64 s (BitVec.ofNat 11 b) (BitVec.ofNat 52 m) := by
  have hupper := h.upper
  have hbiased : (e + 1023 + 52).toNat = b := by omega
  change (if 2048 ≤ (e + 1023 + 52).toNat + 1 then _ else if m.log2 + 1 = 53 then
    packComponents Format.binary64 s (BitVec.ofNat 11 (e + 1023 + 52).toNat) (BitVec.ofNat 52 m)
      else _) = _
  rw [hbiased, if_neg (by omega), if_pos (by rw [h.log2])]

/-- **A normal number is unpacked** as it was packed. -/
theorem Normal.unpack_pack (h : Normal m e) (s : Sign) :
    unpack Format.binary64 (pack Format.binary64 (.finite s m e h.pos)) = .finite s m e h.pos := by
  have hle := h.le
  have hlt := h.lt
  have hlower := h.lower
  have hupper := h.upper
  obtain ⟨b, hb⟩ := Int.eq_ofNat_of_zero_le (by omega : 0 ≤ e + 1075)
  have hexponent : (BitVec.ofNat 11 b).toNat = b := by
    rw [BitVec.toNat_ofNat, Nat.mod_eq_of_lt (by omega)]
  have hsignificand : (1#1 ++ BitVec.ofNat 52 m).toNat = m := by
    rw [toNat_significand, BitVec.toNat_ofNat]
    omega
  have hfull : BitVec.ofNat 11 b ≠ -1#11 := by
    intro heq
    have : b = 2047 := hexponent.symm.trans (congrArg BitVec.toNat heq)
    omega
  have hnone : BitVec.ofNat 11 b ≠ 0#11 := by
    intro heq
    have : b = 0 := hexponent.symm.trans (congrArg BitVec.toNat heq)
    omega
  have hback : ((BitVec.ofNat 11 b).toNat : Int) - (1023 + 52) = e := by omega
  rw [h.pack_eq s hb, @unpack_packComponents Format.binary64 s _ _ hfull hnone]
  simp only [hsignificand]
  congr 1

theorem Holds.unpack_pack (h : Holds u q) :
    unpack Format.binary64 (pack Format.binary64 u) = u := by
  cases h with
  | zero s => cases s <;> rfl
  | normal s h => exact h.unpack_pack s

/-- **What is packed is held** by the floating-point number. -/
theorem Holds.has (h : Holds u q) : Has (.ofModel (.pack u)) q := by
  have hunpack : (Float.Model.pack u).unpack = u := h.unpack_pack
  unfold Has
  rw [hunpack]
  exact h

end CriticalSection.Binary64
