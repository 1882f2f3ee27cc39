import Stencil.Proofs.Double.Parts

/-! Doubles are ordered as the rational numbers that they stand for.

The logic compares exponents first and significands where the exponents are equal. For canonical parts that is the
order of the numbers: among them a higher exponent stands for more.
-/

set_option autoImplicit false

namespace Stencil.Decimal

def Parts.magnitude (p : Parts) : ℚ := p.significand * 2 ^ p.exponent

def Parts.value (p : Parts) : ℚ := if p.negative then -p.magnitude else p.magnitude

/-- The number that a finite double stands for. -/
def valueOf (x : Float) : ℚ := (partsOf x).value

namespace Parts

theorem magnitude_nonneg (p : Parts) : 0 ≤ p.magnitude := by
  rw [magnitude]
  positivity

theorem magnitude_pos {p : Parts} (some_ : p.significand ≠ 0) : 0 < p.magnitude := by
  rw [magnitude]
  positivity

theorem value_le_magnitude (p : Parts) : p.value ≤ p.magnitude := by
  have := p.magnitude_nonneg
  rw [value]
  split <;> linarith

theorem value_of_zero {p : Parts} (zero : p.significand = 0) : p.value = 0 := by
  simp [value, magnitude, zero]

theorem value_turned (p : Parts) : p.turned.value = -p.value := by
  have same : p.turned.magnitude = p.magnitude := rfl
  rw [value, value, same, turned]
  cases p.negative <;> simp

theorem Canonical.magnitude_lt {p : Parts} (canonical : p.Canonical) {e : Int} (less : p.exponent < e) :
    p.magnitude < 2 ^ 52 * 2 ^ e := by
  have short : (p.significand : ℚ) < 2 ^ 53 := by exact_mod_cast canonical.significand_lt
  calc p.magnitude < 2 ^ 53 * 2 ^ p.exponent := mul_lt_mul_of_pos_right short (by positivity)
    _ = 2 ^ 52 * 2 ^ (p.exponent + 1) := by
      rw [zpow_add_one₀ two_ne_zero]
      norm_num
      ring
    _ ≤ 2 ^ 52 * 2 ^ e := mul_le_mul_of_nonneg_left (zpow_le_zpow_right₀ one_le_two less) (by positivity)

section

variable {p q : Parts} (hp : p.Canonical) (hq : q.Canonical)

include hp hq

theorem Canonical.magnitude_lt_of_exponent (less : p.exponent < q.exponent) : p.magnitude < q.magnitude := by
  have full : (2 : ℚ) ^ 52 ≤ q.significand := by
    exact_mod_cast hq.leading.resolve_right fun low => absurd hp.lowest_le (by omega)
  exact (hp.magnitude_lt less).trans_le (mul_le_mul_of_nonneg_right full (by positivity))

theorem Canonical.compare_magnitude :
    (compare p.exponent q.exponent).then (compare p.significand q.significand) = compare p.magnitude q.magnitude := by
  rcases lt_trichotomy p.exponent q.exponent with less | same | more
  · rw [compare_lt_iff_lt.mpr less, compare_lt_iff_lt.mpr (hp.magnitude_lt_of_exponent hq less)]
    rfl
  · have grows : StrictMono fun n : ℕ => (n : ℚ) * 2 ^ q.exponent := fun m n less =>
      mul_lt_mul_of_pos_right (by exact_mod_cast less) (by positivity)
    rw [magnitude, magnitude, same, compare_eq_iff_eq.mpr rfl, Ordering.eq_then, ← cmp_eq_compare, ← cmp_eq_compare]
    exact (grows.cmp_map_eq _ _).symm
  · rw [compare_gt_iff_gt.mpr more, compare_gt_iff_gt.mpr (hq.magnitude_lt_of_exponent hp more)]
    rfl

theorem Canonical.compare_unpacked : p.unpacked.compare q.unpacked = some (compare p.value q.value) := by
  by_cases pz : p.significand = 0 <;> by_cases qz : q.significand = 0
  · rw [unpacked_of_zero pz, unpacked_of_zero qz, value_of_zero pz, value_of_zero qz]
    rfl
  · have pos := magnitude_pos qz
    rw [unpacked_of_zero pz, unpacked_of_ne qz, value_of_zero pz, value]
    cases q.negative with
    | true => rw [if_pos rfl, compare_gt_iff_gt.mpr (neg_lt_zero.mpr pos)]; rfl
    | false => rw [if_neg Bool.false_ne_true, compare_lt_iff_lt.mpr pos]; rfl
  · have pos := magnitude_pos pz
    rw [unpacked_of_ne pz, unpacked_of_zero qz, value_of_zero qz, value]
    cases p.negative with
    | true => rw [if_pos rfl, compare_lt_iff_lt.mpr (neg_lt_zero.mpr pos)]; rfl
    | false => rw [if_neg Bool.false_ne_true, compare_gt_iff_gt.mpr pos]; rfl
  · have ppos := magnitude_pos pz
    have qpos := magnitude_pos qz
    have sizes := hp.compare_magnitude hq
    rw [unpacked_of_ne pz, unpacked_of_ne qz, value, value]
    cases p.negative <;> cases q.negative
    · rw [if_neg Bool.false_ne_true, if_neg Bool.false_ne_true, ← sizes]
      rfl
    · rw [if_neg Bool.false_ne_true, if_pos rfl, compare_gt_iff_gt.mpr (by linarith)]
      rfl
    · rw [if_pos rfl, if_neg Bool.false_ne_true, compare_lt_iff_lt.mpr (by linarith)]
      rfl
    -- Of two negative numbers the one of the greater size is the lesser one.
    · have turns : StrictAnti fun a : ℚ => -a := fun _ _ less => neg_lt_neg less
      have swapped : compare (-p.magnitude) (-q.magnitude) = (compare p.magnitude q.magnitude).swap := by
        rw [← cmp_eq_compare, ← cmp_eq_compare, cmp_swap]
        exact turns.cmp_map_eq _ _
      rw [if_pos rfl, if_pos rfl, swapped, ← sizes]
      rfl

end

end Parts

/-! ### Comparisons of doubles -/

section

variable {x y : Float} (hx : x.isFinite = true) (hy : y.isFinite = true)

include hx hy

theorem compare_toModel : x.toModel.unpack.compare y.toModel.unpack = some (compare (valueOf x) (valueOf y)) := by
  rw [unpack_toModel hx, unpack_toModel hy, (canonical_partsOf hx).compare_unpacked (canonical_partsOf hy)]
  rfl

theorem beq_iff_valueOf : (x == y) = true ↔ valueOf x = valueOf y := by
  change (x.toModel.unpack.compare y.toModel.unpack == some .eq) = true ↔ _
  rw [compare_toModel hx hy]
  simp

theorem lt_iff_valueOf : x < y ↔ valueOf x < valueOf y := by
  change decide ((x.toModel.unpack.compare y.toModel.unpack == some .lt) = true) = true ↔ _
  rw [decide_eq_true_iff, compare_toModel hx hy]
  simp [compare_lt_iff_lt]

end

theorem isFinite_neg {x : Float} (finite : x.isFinite = true) : (-x).isFinite = true := by
  rw [neg_eq_packed finite]
  exact (canonical_partsOf finite).turned.isFinite_packed

theorem valueOf_neg {x : Float} (finite : x.isFinite = true) : valueOf (-x) = -valueOf x := by
  rw [valueOf, neg_eq_packed finite, (canonical_partsOf finite).turned.partsOf_packed, Parts.value_turned]
  rfl

end Stencil.Decimal
