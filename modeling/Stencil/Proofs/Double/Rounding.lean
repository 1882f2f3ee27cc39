import Stencil.Proofs.Double.Order

/-! Rounding picks the nearest double.

The logic shifts a significand until it fits, keeping track of what it has shifted out by two bits, and rounds what
is left to the nearest integer, ties to the even one. Nothing else can be nearer: doubles with a higher exponent
stand on the same grid, and those with a lower one stand below the shortest significand of this length.
-/

set_option autoImplicit false

namespace Stencil.Decimal

open Float.Model (Format totalExponent)
open Float.Model.UnpackedFloat (ExtendedMantissa Accuracy roundWithAccuracy shiftToTargetExponent)

/-! ### Rounding to an integer -/

/-- `m / 2 ^ k` rounded to the nearest integer, and to the even one of two that are equally near. -/
def halfEven (m k : Nat) : Nat :=
  if 2 * (m % 2 ^ k) < 2 ^ k then m / 2 ^ k
  else if 2 * (m % 2 ^ k) = 2 ^ k then m / 2 ^ k + m / 2 ^ k % 2
  else m / 2 ^ k + 1

theorem halfEven_bounds (m k : Nat) : m / 2 ^ k ≤ halfEven m k ∧ halfEven m k ≤ m / 2 ^ k + 1 := by
  unfold halfEven
  split_ifs <;> omega

/-- What the two residual bits tell about the digits that have been shifted out. -/
structure Shifted (m k : Nat) (em : ExtendedMantissa) : Prop where
  mantissa : em.mantissa = m / 2 ^ k
  roundBit : em.roundBit = true ↔ 2 ^ k ≤ 2 * (m % 2 ^ k)
  stickyBit : em.stickyBit = true ↔ m % 2 ^ k ≠ 0 ∧ 2 * (m % 2 ^ k) ≠ 2 ^ k

theorem Shifted.shiftRightOne {m k : Nat} {em : ExtendedMantissa} (h : Shifted m k em) :
    Shifted m (k + 1) em.shiftRightOne := by
  have below : m % 2 ^ k < 2 ^ k := Nat.mod_lt _ (Nat.two_pow_pos k)
  have twice : 2 ^ (k + 1) = 2 * 2 ^ k := by rw [pow_succ, Nat.mul_comm]
  have next : m % 2 ^ (k + 1) = m % 2 ^ k + 2 ^ k * (m / 2 ^ k % 2) := by rw [pow_succ, Nat.mod_mul]
  have parity : m / 2 ^ k % 2 = 0 ∧ m % 2 ^ (k + 1) = m % 2 ^ k ∨
      m / 2 ^ k % 2 = 1 ∧ m % 2 ^ (k + 1) = m % 2 ^ k + 2 ^ k := by
    rcases Nat.mod_two_eq_zero_or_one (m / 2 ^ k) with even | odd
    · rw [even, Nat.mul_zero] at next
      exact .inl ⟨even, next⟩
    · rw [odd, Nat.mul_one] at next
      exact .inr ⟨odd, next⟩
  refine ⟨?_, ?_, ?_⟩
  · simp only [ExtendedMantissa.shiftRightOne, h.mantissa, pow_succ, Nat.div_div_eq_div_mul]
  · simp only [ExtendedMantissa.shiftRightOne, h.mantissa, bne_iff_ne]
    omega
  · simp only [ExtendedMantissa.shiftRightOne, Bool.or_eq_true, h.roundBit, h.stickyBit]
    omega

theorem shifted_shiftRight (m k : Nat) : Shifted m k (ExtendedMantissa.ofMantissaAndAccuracy m .exact >>> k) := by
  induction k with
  | zero =>
    have same : ExtendedMantissa.ofMantissaAndAccuracy m .exact >>> 0 = ⟨m, false, false⟩ := rfl
    rw [same]
    exact ⟨by simp, by simp [Nat.mod_one], by simp [Nat.mod_one]⟩
  | succ k ih => exact ih.shiftRightOne

theorem Shifted.roundedMantissa {m k : Nat} {em : ExtendedMantissa} (h : Shifted m k em) :
    em.roundedMantissa = halfEven m k := by
  obtain ⟨mantissa, round, sticky⟩ := em
  obtain ⟨rfl, hround, hsticky⟩ := h
  have unit : 0 < 2 ^ k := Nat.two_pow_pos k
  cases round <;> cases sticky <;>
    simp only [ExtendedMantissa.roundedMantissa, ExtendedMantissa.accuracy, Accuracy.roundToNearestEven, halfEven] <;>
    simp at hround hsticky <;> split_ifs <;> omega

theorem unit_cases (q j P : Int) (unit : 0 < P) :
    j = q ∨ j = q + 1 ∨ j * P ≤ q * P - P ∨ q * P + 2 * P ≤ j * P := by
  rcases lt_trichotomy j q with less | same | more
  · refine .inr (.inr (.inl ?_))
    calc j * P ≤ (q - 1) * P := mul_le_mul_of_nonneg_right (by omega) unit.le
      _ = q * P - P := by ring
  · exact .inl same
  · by_cases next : j = q + 1
    · exact .inr (.inl next)
    · refine .inr (.inr (.inr ?_))
      calc q * P + 2 * P = (q + 2) * P := by ring
        _ ≤ j * P := mul_le_mul_of_nonneg_right (by omega) unit.le

theorem halfEven_nearest (m k : Nat) (j : Int) :
    |halfEven m k * 2 ^ k - (m : Int)| ≤ |j * 2 ^ k - m| ∧
      (|j * 2 ^ k - m| = |halfEven m k * 2 ^ k - (m : Int)| → j ≠ halfEven m k → halfEven m k % 2 = 0) := by
  have unit : (0 : Int) < 2 ^ k := by positivity
  have cast : ((2 ^ k : Nat) : Int) = 2 ^ k := by push_cast; rfl
  have below : m % 2 ^ k < 2 ^ k := Nat.mod_lt _ (Nat.two_pow_pos k)
  have parts : (m : Int) = (m / 2 ^ k : Nat) * 2 ^ k + (m % 2 ^ k : Nat) := by
    exact_mod_cast (Nat.div_add_mod' m (2 ^ k)).symm
  have downward : |((m / 2 ^ k : Nat) : Int) * 2 ^ k - m| = (m % 2 ^ k : Nat) := by
    rw [abs_of_nonpos] <;> omega
  have upward : |((m / 2 ^ k : Nat) + 1 : Int) * 2 ^ k - m| = 2 ^ k - (m % 2 ^ k : Nat) := by
    rw [add_mul, one_mul, abs_of_nonneg] <;> omega
  have far : j * 2 ^ k ≤ (m / 2 ^ k : Nat) * 2 ^ k - 2 ^ k ∨ (m / 2 ^ k : Nat) * 2 ^ k + 2 * 2 ^ k ≤ j * 2 ^ k →
      2 ^ k ≤ |j * 2 ^ k - m| := by
    rintro (low | high)
    · rw [abs_of_nonpos] <;> omega
    · rw [abs_of_nonneg] <;> omega
  have even : 2 * (m % 2 ^ k) = 2 ^ k → halfEven m k % 2 = 0 := by
    intro tie
    unfold halfEven
    split_ifs <;> omega
  have near : halfEven m k = m / 2 ^ k ∧ 2 * (m % 2 ^ k) ≤ 2 ^ k ∨
      halfEven m k = m / 2 ^ k + 1 ∧ 2 ^ k ≤ 2 * (m % 2 ^ k) := by
    unfold halfEven
    split_ifs <;> omega
  -- Only the two integers around the quotient are near; they are equally near exactly when the remainder is a half.
  have place := unit_cases (m / 2 ^ k : Nat) j (2 ^ k) unit
  rcases near with ⟨down, close⟩ | ⟨up, close⟩
  · rw [down, downward]
    rcases place with rfl | rfl | apart
    · exact ⟨downward.ge, fun _ other => absurd rfl other⟩
    · rw [upward]
      exact ⟨by omega, fun tie _ => down ▸ even (by omega)⟩
    · have := far apart
      exact ⟨by omega, fun tie _ => by omega⟩
  · rw [up, Nat.cast_add, Nat.cast_one, upward]
    rcases place with rfl | rfl | apart
    · rw [downward]
      exact ⟨by omega, fun tie _ => up ▸ even (by omega)⟩
    · exact ⟨upward.ge, fun _ other => absurd rfl other⟩
    · have := far apart
      exact ⟨by omega, fun tie _ => by omega⟩

/-! ### Rounding to a double -/

/-- How many digits of `m · 2 ^ e` a double has no room for. -/
def surplus (m : Nat) (e : Int) : Nat := (max (m.log2 + e - 52) Parts.lowest - e).toNat

/-- The parts of the double nearest to `m · 2 ^ e`. A significand that rounding has made too long is halved. -/
def Parts.rounded (negative : Bool) (m : Nat) (e : Int) : Parts :=
  if halfEven m (surplus m e) < 2 ^ 53 then ⟨negative, halfEven m (surplus m e), e + surplus m e⟩
  else ⟨negative, 2 ^ 52, e + surplus m e + 1⟩

/-- A significand has its full length, or the exponent leaves it all the room there is. -/
def Full (m : Nat) (e : Int) : Prop := 52 ≤ m.log2 ∨ e ≤ Parts.lowest

theorem lowest_le_surplus (m : Nat) (e : Int) : Parts.lowest ≤ e + surplus m e := by
  simp only [surplus]
  omega

theorem Full.exponent_eq {m : Nat} {e : Int} (full : Full m e) :
    e + surplus m e = max (m.log2 + e - 52) Parts.lowest := by
  simp only [Full, surplus] at *
  omega

theorem lt_of_surplus (m : Nat) (e : Int) : m / 2 ^ surplus m e < 2 ^ 53 := by
  rw [Nat.div_lt_iff_lt_mul (Nat.two_pow_pos _), ← pow_add]
  refine Nat.lt_log2_self.trans_le (Nat.pow_le_pow_right two_pos ?_)
  simp only [surplus, Parts.lowest]
  omega

theorem surplus_of_lt {m : Nat} {e : Int} (short : m < 2 ^ 53) (low : Parts.lowest ≤ e) : surplus m e = 0 := by
  have log : m.log2 ≤ 52 := by
    by_cases zero : m = 0
    · simp [zero]
    · have := (Nat.log2_lt zero).mpr short
      omega
  simp only [surplus]
  omega

theorem surplus_carry {e : Int} (low : Parts.lowest ≤ e) : surplus (2 ^ 53) e = 1 := by
  simp only [surplus, Nat.log2_two_pow]
  omega

theorem Full.le_div {m : Nat} {e : Int} (full : Full m e) (high : e + surplus m e ≠ Parts.lowest) :
    2 ^ 52 ≤ m / 2 ^ surplus m e := by
  rw [full.exponent_eq] at high
  have long : 52 ≤ m.log2 := by
    simp only [Full] at full
    omega
  have kept : surplus m e = m.log2 - 52 := by
    simp only [surplus]
    omega
  have some_ : m ≠ 0 := by
    rintro rfl
    simp at long
  rw [kept, Nat.le_div_iff_mul_le (Nat.two_pow_pos _), ← pow_add, show 52 + (m.log2 - 52) = m.log2 by omega]
  exact Nat.log2_self_le some_

theorem targetExponent_eq (m : Nat) (e : Int) :
    Format.binary64.targetExponent (totalExponent m e) = max (m.log2 + e - 52) Parts.lowest := by
  simp only [Format.targetExponent, totalExponent, Format.mantissaBits, Format.minExponent, Parts.lowest]
  omega

theorem shiftToTargetExponent_eq (m : Nat) (e : Int) :
    shiftToTargetExponent Format.binary64 m e .exact =
      (ExtendedMantissa.ofMantissaAndAccuracy m .exact >>> surplus m e, e + surplus m e) := by
  simp only [shiftToTargetExponent, targetExponent_eq]
  rfl

theorem roundWithAccuracy_eq (negative : Bool) (m : Nat) (e : Int) :
    roundWithAccuracy Format.binary64 (signOf negative) m e .exact = (Parts.rounded negative m e).unpacked := by
  have bounds := halfEven_bounds m (surplus m e)
  have room := lt_of_surplus m e
  have low := lowest_le_surplus m e
  have once := (shifted_shiftRight m (surplus m e)).roundedMantissa
  -- The second shift halves a significand that rounding has made one digit longer, and else does nothing.
  have twice : roundWithAccuracy Format.binary64 (signOf negative) m e .exact =
      Parts.unpacked ⟨negative,
        (shiftToTargetExponent Format.binary64 (shiftToTargetExponent Format.binary64 m e .exact).1.roundedMantissa
          (shiftToTargetExponent Format.binary64 m e .exact).2 .exact).1.mantissa,
        (shiftToTargetExponent Format.binary64 (shiftToTargetExponent Format.binary64 m e .exact).1.roundedMantissa
          (shiftToTargetExponent Format.binary64 m e .exact).2 .exact).2⟩ := rfl
  rw [twice, shiftToTargetExponent_eq, shiftToTargetExponent_eq, once, (shifted_shiftRight _ _).mantissa, Parts.rounded]
  split
  next short => simp [surplus_of_lt short low]
  next long =>
    obtain same : halfEven m (surplus m e) = 2 ^ 53 := by omega
    rw [same, surplus_carry low]
    rfl

namespace Parts

theorem canonical_rounded (negative : Bool) {m : Nat} {e : Int} (full : Full m e) (small : e + surplus m e ≤ 970) :
    (rounded negative m e).Canonical := by
  have low := lowest_le_surplus m e
  have bounds := halfEven_bounds m (surplus m e)
  rw [rounded]
  split
  next short =>
    refine ⟨short, low, by simp only; omega, ?_⟩
    by_cases least : e + surplus m e = lowest
    · exact .inr least
    · exact .inl ((full.le_div least).trans bounds.1)
  next => exact ⟨by norm_num, by simp only; omega, by simp only; omega, .inl le_rfl⟩

theorem value_rounded (m : Nat) (e : Int) :
    (rounded false m e).value = (halfEven m (surplus m e) : Int) * 2 ^ (e + surplus m e) := by
  have bounds := halfEven_bounds m (surplus m e)
  have room := lt_of_surplus m e
  rw [rounded, Int.cast_natCast]
  split
  next => rfl
  next long =>
    have same : halfEven m (surplus m e) = 2 ^ 53 := by omega
    rw [value, if_neg Bool.false_ne_true, magnitude, same, zpow_add_one₀ two_ne_zero]
    norm_num
    ring

theorem even_rounded (negative : Bool) {m : Nat} {e : Int} (even : halfEven m (surplus m e) % 2 = 0) :
    (rounded negative m e).significand % 2 = 0 := by
  rw [rounded]
  split
  · exact even
  · norm_num

theorem exists_multiple (p : Parts) {e : Int} (le : e ≤ p.exponent) : ∃ j : Int, p.value = j * 2 ^ e := by
  have scale : p.magnitude = ((p.significand * 2 ^ (p.exponent - e).toNat : Int) : ℚ) * 2 ^ e := by
    push_cast
    rw [magnitude, mul_assoc, ← zpow_natCast, ← zpow_add₀ two_ne_zero]
    congr 2
    omega
  rw [value]
  split
  next => exact ⟨-(p.significand * 2 ^ (p.exponent - e).toNat), by rw [scale]; push_cast; ring⟩
  next => exact ⟨_, scale⟩

end Parts

theorem abs_multiple_sub (j : Int) (m k : Nat) (e : Int) :
    |(j : ℚ) * 2 ^ (e + k) - m * 2 ^ e| = ((|j * 2 ^ k - m| : Int) : ℚ) * 2 ^ e := by
  have common : (j : ℚ) * 2 ^ (e + k) - m * 2 ^ e = ((j * 2 ^ k - m : Int) : ℚ) * 2 ^ e := by
    push_cast
    rw [zpow_add₀ two_ne_zero, zpow_natCast]
    ring
  rw [common, abs_mul, abs_of_pos (by positivity : (0 : ℚ) < 2 ^ e), Int.cast_abs]

theorem Parts.Canonical.far {m : Nat} {e : Int} (full : Full m e) {p : Parts} (canonical : p.Canonical)
    (fine : p.exponent < e + surplus m e) :
    |(Parts.rounded false m e).value - m * 2 ^ e| < |p.value - m * 2 ^ e| := by
  have low := canonical.lowest_le
  have unit : (0 : ℚ) < 2 ^ e := by positivity
  have normal : 2 ^ 52 * 2 ^ surplus m e ≤ m :=
    (Nat.le_div_iff_mul_le (Nat.two_pow_pos _)).mp (full.le_div (by omega))
  -- The shortest full significand at the exponent of the grid lies between the double and the number.
  obtain ⟨c, shortest⟩ : ∃ c : Int, c = 2 ^ 52 := ⟨_, rfl⟩
  have below : p.value < c * 2 ^ (e + surplus m e) := by
    rw [shortest]
    push_cast
    exact p.value_le_magnitude.trans_lt (canonical.magnitude_lt fine)
  have least : (c : ℚ) * 2 ^ (e + surplus m e) ≤ m * 2 ^ e := by
    have scaled : ((2 ^ 52 * 2 ^ surplus m e : Nat) : ℚ) ≤ m := by exact_mod_cast normal
    have := mul_le_mul_of_nonneg_right scaled unit.le
    rw [shortest]
    push_cast at this ⊢
    rwa [zpow_add₀ two_ne_zero, zpow_natCast, mul_comm (2 ^ e), ← mul_assoc]
  have nearer := (halfEven_nearest m (surplus m e) c).1
  rw [Parts.value_rounded, abs_multiple_sub]
  calc ((|halfEven m (surplus m e) * 2 ^ surplus m e - (m : Int)| : Int) : ℚ) * 2 ^ e
      ≤ ((|c * 2 ^ surplus m e - (m : Int)| : Int) : ℚ) * 2 ^ e :=
        mul_le_mul_of_nonneg_right (by exact_mod_cast nearer) unit.le
    _ = |(c : ℚ) * 2 ^ (e + surplus m e) - m * 2 ^ e| := (abs_multiple_sub _ _ _ _).symm
    _ = m * 2 ^ e - c * 2 ^ (e + surplus m e) := by rw [abs_of_nonpos (sub_nonpos.mpr least), neg_sub]
    _ < m * 2 ^ e - p.value := sub_lt_sub_left below _
    _ = |p.value - m * 2 ^ e| := by rw [abs_of_nonpos (sub_nonpos.mpr (below.le.trans least)), neg_sub]

/-- No double is nearer to `m · 2 ^ e` than the one it is rounded to, and of two that are equally near that one is
even. -/
theorem Parts.Canonical.rounded_nearest {m : Nat} {e : Int} (full : Full m e) {p : Parts} (canonical : p.Canonical) :
    |(Parts.rounded false m e).value - m * 2 ^ e| ≤ |p.value - m * 2 ^ e| ∧
      (|p.value - m * 2 ^ e| = |(Parts.rounded false m e).value - m * 2 ^ e| →
        p.value ≠ (Parts.rounded false m e).value → (Parts.rounded false m e).significand % 2 = 0) := by
  by_cases coarse : e + surplus m e ≤ p.exponent
  · have unit : (0 : ℚ) < 2 ^ e := by positivity
    obtain ⟨j, value⟩ := p.exists_multiple coarse
    obtain ⟨least, tied⟩ := halfEven_nearest m (surplus m e) j
    rw [value, Parts.value_rounded, abs_multiple_sub, abs_multiple_sub]
    refine ⟨mul_le_mul_of_nonneg_right (by exact_mod_cast least) unit.le, fun same other => ?_⟩
    refine Parts.even_rounded _ (tied ?_ ?_)
    · exact_mod_cast mul_right_cancel₀ unit.ne' same
    · rintro rfl
      exact other rfl
  · have strict := canonical.far full (not_le.mp coarse)
    exact ⟨strict.le, fun same => absurd same strict.ne'⟩

end Stencil.Decimal
