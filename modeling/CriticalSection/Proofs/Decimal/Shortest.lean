import CriticalSection.Decimal.Layout
import CriticalSection.Proofs.Decimal.Rounding

/-!
# The digits of tenths

A floating-point number that is a number of tenths is written with exactly its digits, as long as
the numbers around it are much denser than the tenths: a decimal that rounds to it and has no more
than one place behind the point is then the number itself. The search for the shortest digits goes
from coarse decimals to fine ones, so it comes to such a decimal at the tenths at the latest.
-/

set_option autoImplicit false

open Float.Model.UnpackedFloat (Sign)

namespace CriticalSection

/-- The numeral of a number of tenths, with one digit behind the point. -/
def Numeral.tenths (negative : Bool) (n : Nat) : Numeral :=
  ⟨negative, Nat.toDigits 10 (n / 10), [Nat.digitChar (n % 10)], none⟩

namespace Decimal

/-- The number that a decimal stands for. -/
def value (d : Decimal) : Rat := d.digits * 10 ^ d.exponent

theorem scaled_pos (n : Nat) (e : Int) : 0 < (scaled n e).2 := by
  cases e with
  | ofNat j => exact Nat.one_pos
  | negSucc j => exact Nat.pow_pos (by decide)

theorem scaled_eq (n : Nat) (e : Int) :
    ((scaled n e).1 : Rat) = n * 10 ^ e * (scaled n e).2 := by
  cases e with
  | ofNat j => simp [scaled]
  | negSucc j => simp [scaled, zpow_negSucc]

/-! ## The numbers that round to a number -/

/-- **A neighbourhood** of a number that reaches no farther than a radius. -/
structure Neighbourhood.Surrounds (around : Neighbourhood) (q radius : Rat) : Prop where
  denominator : 0 < around.denominator
  centre : (around.centre : Rat) = q * around.denominator
  low : (q - radius) * around.denominator ≤ around.low
  high : (around.high : Rat) ≤ (q + radius) * around.denominator
  inside : around.low < around.centre ∧ around.centre < around.high

/-- The reals that round to a number reach half way to the next one at the farthest. -/
theorem surrounds_of {m : Nat} (hm : 0 < m) (e : Int) :
    (Neighbourhood.of m e).Surrounds (m * 2 ^ e) (2 ^ e / 2) := by
  obtain ⟨below, factor, denominator, hbelow, hfactor, hdenominator, hscale, hof⟩ :
      ∃ below factor denominator : Nat, (below = 1 ∨ below = 2) ∧ 0 < factor ∧ 0 < denominator ∧
        (factor : Rat) * 4 = 2 ^ e * denominator ∧
        Neighbourhood.of m e =
          ⟨(4 * m - below) * factor, 4 * m * factor, (4 * m + 2) * factor, denominator,
            m % 2 == 0⟩ := by
    have hdense : ∀ p : Prop, ∀ _ : Decidable p, (if p then 1 else 2) = 1 ∨
        (if p then 1 else 2) = 2 := by
      intro p _
      split <;> simp
    cases e with
    | ofNat j =>
        exact ⟨_, 2 ^ j, 4, hdense _ _, Nat.two_pow_pos j, by decide, by simp, rfl⟩
    | negSucc j =>
        refine ⟨_, 1, 4 * 2 ^ (j + 1), hdense _ _, Nat.one_pos, Nat.mul_pos (by decide)
          (Nat.two_pow_pos _), ?_, rfl⟩
        rw [zpow_negSucc]
        push_cast
        field_simp
  have hpos : (0 : Rat) < factor := Nat.cast_pos.mpr hfactor
  have hlow : (4 * m : Rat) ≤ (4 * m - below : Nat) + 2 := by
    have : 4 * m ≤ 4 * m - below + 2 := by omega
    exact_mod_cast this
  rw [hof]
  refine ⟨hdenominator, ?_, ?_, ?_, ?_, ?_⟩
  · push_cast
    linear_combination m * hscale
  · have hprod := mul_le_mul_of_nonneg_right hlow hpos.le
    push_cast
    linear_combination hprod - (m - 1 / 2) * hscale
  · push_cast
    linear_combination (m + 1 / 2) * hscale
  · exact Nat.mul_lt_mul_of_pos_right (by omega) hfactor
  · exact Nat.mul_lt_mul_of_pos_right (by omega) hfactor

variable {around : Neighbourhood} {q radius : Rat} {d : Decimal} {tie : Tie} {place : Int}

theorem cast_scaled_pos (n : Nat) (e : Int) : (0 : Rat) < (scaled n e).2 :=
  Nat.cast_pos.mpr (scaled_pos n e)

/-- **A decimal is compared with a fraction** by the products of natural numbers across. -/
theorem cmp_scaled (n k : Nat) (d : Decimal) :
    cmp ((scaled d.digits d.exponent).1 * k) (n * (scaled d.digits d.exponent).2) =
      cmp (d.value * k) n := by
  rw [← cmp_mul_pos_right (cast_scaled_pos d.digits d.exponent), mul_right_comm, value,
    ← scaled_eq, ← Nat.cast_mul, ← Nat.cast_mul, Nat.strictMono_cast.cmp_map_eq]

theorem le_scaled_iff (n k : Nat) (d : Decimal) :
    n * (scaled d.digits d.exponent).2 ≤ (scaled d.digits d.exponent).1 * k ↔
      (n : Rat) ≤ d.value * k :=
  le_iff_le_of_cmp_eq_cmp (cmp_eq_cmp_symm.mp (cmp_scaled n k d))

theorem scaled_le_iff (n k : Nat) (d : Decimal) :
    (scaled d.digits d.exponent).1 * k ≤ n * (scaled d.digits d.exponent).2 ↔
      d.value * k ≤ n :=
  le_iff_le_of_cmp_eq_cmp (cmp_scaled n k d)

/-- What rounds to a number is near it. -/
theorem Neighbourhood.Surrounds.near (h : around.Surrounds q radius)
    (hd : around.contains d = true) : |d.value - q| ≤ radius := by
  have hpos : (0 : Rat) < around.denominator := Nat.cast_pos.mpr h.denominator
  have hbounds : around.low * (scaled d.digits d.exponent).2 ≤
        (scaled d.digits d.exponent).1 * around.denominator ∧
      (scaled d.digits d.exponent).1 * around.denominator ≤
        around.high * (scaled d.digits d.exponent).2 := by
    unfold Neighbourhood.contains at hd
    dsimp only at hd
    split at hd
    · simpa using hd
    · simp only [Bool.and_eq_true, decide_eq_true_eq] at hd
      exact ⟨hd.1.le, hd.2.le⟩
  rw [le_scaled_iff, scaled_le_iff] at hbounds
  have hlow := (mul_le_mul_iff_of_pos_right hpos).mp (h.low.trans hbounds.1)
  have hhigh := (mul_le_mul_iff_of_pos_right hpos).mp (hbounds.2.trans h.high)
  rw [abs_le]
  constructor <;> linarith

/-- The number itself rounds to itself. -/
theorem Neighbourhood.Surrounds.contains (h : around.Surrounds q radius) (hd : d.value = q) :
    around.contains d = true := by
  have hlow : ¬ (scaled d.digits d.exponent).1 * around.denominator ≤
      around.low * (scaled d.digits d.exponent).2 := by
    rw [scaled_le_iff, hd, ← h.centre, Nat.cast_le]
    exact Nat.not_le.mpr h.inside.1
  have hhigh : ¬ around.high * (scaled d.digits d.exponent).2 ≤
      (scaled d.digits d.exponent).1 * around.denominator := by
    rw [le_scaled_iff, hd, ← h.centre, Nat.cast_le]
    exact Nat.not_le.mpr h.inside.2
  unfold Neighbourhood.contains
  dsimp only
  split
  · simp [Nat.le_of_not_le hlow, Nat.le_of_not_le hhigh]
  · simp [Nat.lt_of_not_le hlow, Nat.lt_of_not_le hhigh]

/-! ## The search -/

theorem contains_of_onGrid? (h : onGrid? tie around place = some d) :
    around.contains d = true ∧ d.exponent = place := by
  unfold onGrid? at h
  dsimp only at h
  split at h
  · next hbelow habove =>
      split at h
      · obtain rfl := Option.some.inj h
        exact ⟨habove, rfl⟩
      · obtain rfl := Option.some.inj h
        exact ⟨hbelow, rfl⟩
  · next hbelow _ =>
      obtain rfl := Option.some.inj h
      exact ⟨hbelow, rfl⟩
  · next habove =>
      obtain rfl := Option.some.inj h
      exact ⟨habove, rfl⟩
  · cases h

/-- A number on a grid is found there. -/
theorem isSome_onGrid? (h : around.Surrounds q radius) {n : Nat}
    (hn : (n : Rat) * 10 ^ place = q) : (onGrid? tie around place).isSome = true := by
  have hlower : (neighbours tie around place).1 = n := by
    have htop : 0 < (scaled 1 place).1 := by
      have hpos := cast_scaled_pos 1 place
      have : (0 : Rat) < (scaled 1 place).1 := by
        rw [scaled_eq]
        positivity
      exact_mod_cast this
    have hproduct : around.centre * (scaled 1 place).2 =
        n * (around.denominator * (scaled 1 place).1) := by
      have : ((around.centre * (scaled 1 place).2 : Nat) : Rat) =
          (n * (around.denominator * (scaled 1 place).1) : Nat) := by
        push_cast
        rw [h.centre, scaled_eq, ← hn]
        push_cast
        ring
      exact_mod_cast this
    change around.centre * (scaled 1 place).2 / (around.denominator * (scaled 1 place).1) = n
    rw [hproduct]
    exact Nat.mul_div_cancel _ (Nat.mul_pos h.denominator htop)
  have hbelow : around.contains ⟨n, place⟩ = true := h.contains hn
  unfold onGrid?
  dsimp only
  rw [hlower, hbelow]
  cases around.contains ⟨n + 1, place⟩ <;> rfl

/-- **The search ends at the tenths at the latest** if the number is a number of tenths. -/
theorem search_tenths (h : around.Surrounds q radius) {n : Nat}
    (hn : (n : Rat) * 10 ^ (-1 : Int) = q) (tie : Tie) {size : Int} {fuel count : Nat}
    (hplace : -1 ≤ size - count) (hfuel : size - count + 2 ≤ fuel) :
    around.contains (search tie around size fuel count) = true ∧
      -1 ≤ (search tie around size fuel count).exponent := by
  induction fuel generalizing count with
  | zero => omega
  | succ fuel ih =>
      rw [search]
      split
      · next d hd =>
          obtain ⟨hcontains, hexponent⟩ := contains_of_onGrid? hd
          exact ⟨hcontains, hexponent ▸ hplace⟩
      · next hnone =>
          have hcoarse : size - count ≠ -1 := by
            intro heq
            have hsome : (onGrid? tie around (-1)).isSome = true := isSome_onGrid? h hn
            rw [← heq, hnone] at hsome
            cases hsome
          exact ih (by omega) (by omega)

/-- Without the zeros at its end a decimal is the same number. -/
theorem trim_spec (fuel : Nat) (d : Decimal) :
    (trim fuel d).value = d.value ∧ d.exponent ≤ (trim fuel d).exponent := by
  induction fuel generalizing d with
  | zero => exact ⟨rfl, le_rfl⟩
  | succ fuel ih =>
      rw [trim]
      split
      · next hzero =>
          obtain ⟨hvalue, hexponent⟩ := ih ⟨d.digits / 10, d.exponent + 1⟩
          have hdigits : d.digits = d.digits / 10 * 10 := by omega
          refine ⟨hvalue.trans ?_, (Int.le_add_one le_rfl).trans hexponent⟩
          have hcast : (d.digits : Rat) = (d.digits / 10 : Nat) * 10 := by exact_mod_cast hdigits
          rw [value, value, hcast, zpow_add₀ (by decide), zpow_one]
          ring
      · exact ⟨rfl, le_rfl⟩

/-- The number of digits before the point, of numbers that have a digit among the tenths or before
them and not more than sixteen digits before the point. -/
theorem magnitude_bounds {numerator denominator : Nat} (hdenominator : 0 < denominator)
    (hq : (numerator : Rat) = q * denominator)
    (hlower : -4 ≤ (numerator.log2 : Int) - denominator.log2)
    (hupper : (numerator.log2 : Int) - denominator.log2 ≤ 49)
    (hlow : (10 : Rat) ^ (-1 : Int) ≤ q) (hhigh : q < 10 ^ (16 : Int)) :
    0 ≤ magnitude numerator denominator ∧ magnitude numerator denominator ≤ 16 := by
  have hpos : (0 : Rat) < denominator := Nat.cast_pos.mpr hdenominator
  have hreaches (k : Int) : (scaled 1 k).1 * denominator ≤ numerator * (scaled 1 k).2 ↔
      (10 : Rat) ^ k ≤ q := by
    rw [scaled_le_iff numerator denominator ⟨1, k⟩, hq, mul_le_mul_iff_of_pos_right hpos, value,
      Nat.cast_one, one_mul]
  have hreached {k : Int} (hk : k ≤ -1) : (10 : Rat) ^ k ≤ q :=
    (zpow_le_zpow_right₀ (by norm_num) hk).trans hlow
  have hbeyond {k : Int} (hk : 16 ≤ k) : ¬ (10 : Rat) ^ k ≤ q := by
    intro hle
    exact absurd ((zpow_le_zpow_right₀ (by norm_num) hk).trans hle) (not_le.mpr hhigh)
  obtain ⟨start, hstart⟩ : ∃ start, start =
      Int.fdiv (((numerator.log2 : Int) - denominator.log2 - 1) * 30103) 100000 := ⟨_, rfl⟩
  have hbounds : -2 ≤ start ∧ start ≤ 14 := by
    rw [Int.fdiv_eq_ediv_of_nonneg _ (by decide)] at hstart
    omega
  unfold magnitude
  simp only [← hstart, decide_eq_true_eq, hreaches]
  split_ifs with htwo hone hzero
  · have hsmall : ¬ 16 ≤ start + 2 := fun hle => hbeyond hle htwo
    omega
  · omega
  · have hlarge : ¬ start + 1 ≤ -1 := fun hle => hone (hreached hle)
    omega
  · have hlarge : ¬ start ≤ -1 := fun hle => hzero (hreached hle)
    omega

/-- A decimal that has at most one place behind the point is a number of tenths. -/
theorem exists_tenths (h : -1 ≤ d.exponent) : ∃ n : Nat, d.value = n * 10 ^ (-1 : Int) := by
  obtain ⟨j, hj⟩ := Int.eq_ofNat_of_zero_le (by omega : 0 ≤ d.exponent + 1)
  refine ⟨d.digits * 10 ^ j, ?_⟩
  have hexponent : d.exponent = j + -1 := by omega
  rw [value, hexponent, zpow_add₀ (by norm_num), zpow_natCast]
  push_cast
  ring

/-- The bits of a normal number below one half of a power of two, and of its denominator. -/
theorem log2_neighbourhood {m : Nat} {e : Int} (h : Binary64.Normal m e) (he : e < 0) :
    ((Neighbourhood.of m e).centre.log2 : Int) - (Neighbourhood.of m e).denominator.log2 =
      52 + e := by
  obtain ⟨j, rfl⟩ := Int.eq_negSucc_of_lt_zero he
  have hcentre : (Neighbourhood.of m (Int.negSucc j)).centre = m * 2 ^ 2 := by
    change 4 * m * 1 = m * 2 ^ 2
    omega
  have hdenominator : (Neighbourhood.of m (Int.negSucc j)).denominator = 2 ^ (j + 3) := by
    change 4 * 2 ^ (j + 1) = 2 ^ (j + 3)
    rw [pow_add, pow_add]
    omega
  rw [hcentre, hdenominator, Binary64.log2_mul_two_pow h.pos, h.log2, Nat.log2_two_pow]
  omega

/-- Numbers of tenths that are less than a tenth apart are the same. -/
theorem eq_of_tenths_near {k n : Nat}
    (h : |(k : Rat) * 10 ^ (-1 : Int) - n * 10 ^ (-1 : Int)| < 10 ^ (-1 : Int)) : k = n := by
  have hten : (0 : Rat) < 10 ^ (-1 : Int) := zpow_pos (by decide) _
  rw [← sub_mul, abs_mul, abs_of_pos hten, mul_lt_iff_lt_one_left hten] at h
  have hint : |(k : Int) - n| < 1 := by exact_mod_cast h
  have := Int.abs_lt_one_iff.mp hint
  omega

section Tenths

variable {m n : Nat} {e : Int} (h : Binary64.Normal m e)
  (hn : (n : Rat) * 10 ^ (-1 : Int) = m * 2 ^ e)

include h hn

theorem tenths_pos : 0 < n := by
  have hpos := h.value_pos
  rw [← hn] at hpos
  exact Nat.cast_pos.mp (pos_of_mul_pos_left hpos (by norm_num))

theorem tenth_le : (10 : Rat) ^ (-1 : Int) ≤ m * 2 ^ e := by
  have hone : (1 : Rat) ≤ n := by exact_mod_cast tenths_pos h hn
  rw [← hn]
  exact le_mul_of_one_le_left (zpow_pos (by decide) _).le hone

omit h in
theorem lt_of_tenths_lt (hlt : n < 10 * 2 ^ 50) : (m : Rat) * 2 ^ e < 2 ^ (50 : Int) := by
  have hcast : (n : Rat) < 10 * 2 ^ 50 := by exact_mod_cast hlt
  rw [← hn, zpow_neg_one, zpow_ofNat]
  linarith

theorem lower_of_tenths : -56 ≤ e := by
  have hle : (2 : Rat) ^ (-4 : Int) ≤ m * 2 ^ e := le_trans (by norm_num) (tenth_le h hn)
  have := h.lt_exponent hle
  omega

theorem magnitude_tenths (hlt : n < 10 * 2 ^ 50) :
    0 ≤ magnitude (Neighbourhood.of m e).centre (Neighbourhood.of m e).denominator ∧
      magnitude (Neighbourhood.of m e).centre (Neighbourhood.of m e).denominator ≤ 16 := by
  have hhigh := lt_of_tenths_lt hn hlt
  have hlower := lower_of_tenths h hn
  have hupper := h.exponent_lt hhigh
  have hlog := log2_neighbourhood h (by omega)
  have hsurrounds := surrounds_of h.pos e
  exact magnitude_bounds hsurrounds.denominator hsurrounds.centre (by omega) (by omega)
    (tenth_le h hn) (hhigh.trans (by norm_num))

/-- **The shortest digits of a number of tenths** are its own. -/
theorem shortest_tenths (hlt : n < 10 * 2 ^ 50) (tie : Tie) :
    (shortest tie m e).value = n * 10 ^ (-1 : Int) ∧ -1 ≤ (shortest tie m e).exponent := by
  have hsurrounds := surrounds_of h.pos e
  have hmagnitude := magnitude_tenths h hn hlt
  unfold shortest
  rw [if_neg h.pos.ne']
  dsimp only
  generalize magnitude _ _ = size at *
  have hsearch : -1 ≤ size - (1 : Nat) ∧ size - (1 : Nat) + 2 ≤ (17 : Nat) := by omega
  obtain ⟨hcontains, hexponent⟩ := search_tenths hsurrounds hn tie hsearch.1 hsearch.2
  obtain ⟨hvalue, hle⟩ := trim_spec 17 (search tie (Neighbourhood.of m e) size 17 1)
  refine ⟨?_, hexponent.trans hle⟩
  -- what rounds to the number is nearer to it than another number of tenths
  have hradius : (2 : Rat) ^ e / 2 < 10 ^ (-1 : Int) := by
    have hupper := h.exponent_lt (lt_of_tenths_lt hn hlt)
    have hle : (2 : Rat) ^ e ≤ 2 ^ (-3 : Int) := zpow_le_zpow_right₀ (by decide) (by omega)
    norm_num at hle ⊢
    linarith
  obtain ⟨k, hk⟩ := exists_tenths hexponent
  have hnear := (hsurrounds.near hcontains).trans_lt hradius
  rw [hk, ← hn] at hnear
  rw [hvalue, hk, eq_of_tenths_near hnear]

end Tenths

end Decimal

/-! ## The numeral -/

namespace Layout

/-- Zeros at the end of a number are zeros at the end of its digits. -/
theorem toDigits_mul_ten_pow {n : Nat} (hn : 0 < n) (j : Nat) :
    Nat.toDigits 10 (n * 10 ^ j) = Nat.toDigits 10 n ++ List.replicate j '0' := by
  induction j with
  | zero => simp
  | succ j ih =>
      have hten : 10 ≤ n * 10 ^ (j + 1) := by
        rw [pow_succ, ← Nat.mul_assoc]
        exact Nat.le_mul_of_pos_left 10 (Nat.mul_pos hn (Nat.pow_pos (by decide)))
      have hdiv : n * 10 ^ (j + 1) / 10 = n * 10 ^ j := by
        rw [pow_succ, ← Nat.mul_assoc, Nat.mul_div_cancel _ (by decide)]
      have hmod : n * 10 ^ (j + 1) % 10 = 0 := by
        rw [pow_succ, ← Nat.mul_assoc, Nat.mul_mod_left]
      rw [Nat.toDigits_of_base_le (by decide) hten, hdiv, hmod, ih, List.replicate_succ',
        List.append_assoc]
      rfl

/-- The digits of tenths stand around the point. -/
theorem atPlace_tenths (negative : Bool) {n : Nat} (hn : 0 < n) :
    atPlace 1 negative (Nat.toDigits 10 n) ((Nat.toDigits 10 n).length - 1) =
      Numeral.tenths negative n := by
  rcases Nat.lt_or_ge n 10 with hlt | hge
  · have hzero : n / 10 = 0 := by omega
    have hsame : n % 10 = n := by omega
    rw [Nat.toDigits_of_lt_base hlt, Numeral.tenths, hzero, hsame]
    rfl
  · rw [Nat.toDigits_of_base_le (by decide) hge, Numeral.tenths]
    have hsize : ((Nat.toDigits 10 (n / 10) ++ [Nat.digitChar (n % 10)]).length : Int) - 1 =
        (Nat.toDigits 10 (n / 10)).length := by simp
    rw [hsize]
    simp [atPlace]

/-- The digits of a whole number stand before the point, and a zero behind it. -/
theorem atPlace_whole (negative : Bool) {n : Nat} (hn : 0 < n) (j : Nat) :
    atPlace 1 negative (Nat.toDigits 10 n) ((Nat.toDigits 10 n).length + j) =
      Numeral.tenths negative (n * 10 ^ (j + 1)) := by
  have hdiv : n * 10 ^ (j + 1) / 10 = n * 10 ^ j := by
    rw [pow_succ, ← Nat.mul_assoc, Nat.mul_div_cancel _ (by decide)]
  have hmod : n * 10 ^ (j + 1) % 10 = 0 := by
    rw [pow_succ, ← Nat.mul_assoc, Nat.mul_mod_left]
  have hne : 0 < (Nat.toDigits 10 n).length := List.length_pos_iff.mpr Nat.toDigits_ne_nil
  have hpos : ¬ ((Nat.toDigits 10 n).length : Int) + j ≤ 0 := by omega
  have hsize : (((Nat.toDigits 10 n).length : Int) + j).toNat =
      (Nat.toDigits 10 n).length + j := by omega
  have htake : (Nat.toDigits 10 n ++ List.replicate ((Nat.toDigits 10 n).length + j) '0').take
      ((Nat.toDigits 10 n).length + j) = Nat.toDigits 10 n ++ List.replicate j '0' := by
    simp [List.take_append]
  have hdrop : (Nat.toDigits 10 n).drop ((Nat.toDigits 10 n).length + j) = [] :=
    List.drop_eq_nil_of_le (Nat.le_add_right _ _)
  rw [Numeral.tenths, hdiv, hmod, toDigits_mul_ten_pow hn, atPlace, if_neg hpos, if_neg hpos,
    hsize, htake, hdrop]
  rfl

/-- **A number of tenths is written** with one digit behind the point. -/
theorem ofDecimal_tenths (negative : Bool) {d : Decimal} {n : Nat} (hn : 0 < n)
    (hlt : n < 10 ^ 17) (hvalue : d.value = n * 10 ^ (-1 : Int)) (hexponent : -1 ≤ d.exponent) :
    estimate.ofDecimal negative d = Numeral.tenths negative n := by
  obtain ⟨digits, exponent⟩ := d
  obtain ⟨j, rfl⟩ : ∃ j : Nat, exponent = j - 1 := ⟨(exponent + 1).toNat, by
    dsimp only at hexponent
    omega⟩
  have hsame : n = digits * 10 ^ j := by
    rw [Decimal.value, zpow_sub₀ (by norm_num), zpow_natCast, zpow_neg, zpow_one] at hvalue
    have hcast : (n : Rat) = digits * 10 ^ j := by linarith
    exact_mod_cast hcast
  have hdigits : 0 < digits := by
    by_contra hzero
    obtain rfl : digits = 0 := by omega
    omega
  have htext : (toString digits).toList = Nat.toDigits 10 digits := by
    rw [Nat.toString_eq_repr, Nat.repr_eq_ofList_toDigits, String.toList_ofList]
  have hlength : (Nat.toDigits 10 digits).length + j ≤ 17 := by
    have hall := (Nat.length_toDigits_le_iff (b := 10) (k := 17) (by decide) (by decide)).mpr hlt
    rwa [hsame, toDigits_mul_ten_pow hdigits, List.length_append, List.length_replicate] at hall
  have hpositional : -4 ≤ ((Nat.toDigits 10 digits).length : Int) + (j - 1) ∧
      ((Nat.toDigits 10 digits).length : Int) + (j - 1) ≤ 16 := by omega
  unfold ofDecimal
  simp only [hdigits.ne', if_false, htext, estimate, hpositional, decide_true, Bool.false_or,
    Bool.and_self, if_true, decide_false]
  cases j with
  | zero =>
      rw [hsame, pow_zero, Nat.mul_one]
      exact atPlace_tenths negative hdigits
  | succ j =>
      have hsize : ((Nat.toDigits 10 digits).length : Int) + ((j + 1 : Nat) - 1) =
          (Nat.toDigits 10 digits).length + j := by omega
      rw [hsame, hsize]
      exact atPlace_whole negative hdigits j

open Binary64 in
/-- Zero is written with its sign. -/
theorem numeral?_zero {x : Float} {s : Sign} (hx : x.toModel.unpack = .zero s) :
    estimate.numeral? x = some (.tenths (isNegative s) 0) := by
  rw [numeral?, ofFloat_eq, hx]
  rfl

open Binary64 in
/-- **The numeral of a number of tenths.** -/
theorem numeral?_tenths {x : Float} {s : Sign} {m n : Nat} {e : Int} (h : Normal m e)
    (hx : x.toModel.unpack = .finite s m e h.pos)
    (hn : (n : Rat) * 10 ^ (-1 : Int) = m * 2 ^ e) (hlt : n < 10 * 2 ^ 50) :
    estimate.numeral? x = some (.tenths (isNegative s) n) := by
  obtain ⟨hvalue, hexponent⟩ := Decimal.shortest_tenths h hn hlt estimate.tie
  rw [numeral?, ofFloat_eq, hx]
  exact congrArg some
    (ofDecimal_tenths (isNegative s) (Decimal.tenths_pos h hn) (by omega) hvalue hexponent)

end Layout

end CriticalSection
