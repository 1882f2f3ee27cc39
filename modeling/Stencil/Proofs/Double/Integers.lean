import Stencil.Json.Value
import Stencil.Proofs.Double.Rounding

/-! The double of an integer of 64 bits is the nearest one.

What is nearest to a number is told by the distances of all doubles from it. Sums, differences and products of doubles
that stand for integers of 64 bits are finite.
-/

set_option autoImplicit false

namespace Stencil.Decimal

open Float.Model (Format UnpackedFloat)
open Float.Model.UnpackedFloat (Sign)

/-- The double that a number is rounded to: no finite double is nearer, and one that is equally near gives way to an
even significand. -/
structure Nearest (q : ℚ) (x : Float) : Prop where
  finite : x.isFinite = true
  least : ∀ y : Float, y.isFinite = true → |valueOf x - q| ≤ |valueOf y - q|
  even : ∀ y : Float, y.isFinite = true → |valueOf y - q| = |valueOf x - q| → valueOf y ≠ valueOf x →
    (partsOf x).significand % 2 = 0

namespace Nearest

variable {p q : ℚ} {x y : Float}

theorem self (finite : x.isFinite = true) : Nearest (valueOf x) x where
  finite := finite
  least := by simp
  even := fun y _ same other => absurd (by simpa [sub_eq_zero] using same) other

theorem exact (near : Nearest (valueOf y) x) (finite : y.isFinite = true) : valueOf x = valueOf y := by
  have least := near.least y finite
  rw [sub_self, abs_zero] at least
  exact sub_eq_zero.mp (abs_nonpos_iff.mp least)

theorem le_of_lt (hp : Nearest p x) (hq : Nearest q y) (less : p < q) : valueOf x ≤ valueOf y := by
  by_contra turned
  have first := hp.least y hq.finite
  have second := hq.least x hp.finite
  -- Each of the two numbers would have to lie on the other's side of the middle.
  rcases abs_cases (valueOf x - p) with ⟨a, _⟩ | ⟨a, _⟩ <;> rcases abs_cases (valueOf y - p) with ⟨b, _⟩ | ⟨b, _⟩ <;>
    rcases abs_cases (valueOf x - q) with ⟨c, _⟩ | ⟨c, _⟩ <;> rcases abs_cases (valueOf y - q) with ⟨d, _⟩ | ⟨d, _⟩ <;>
    linarith

theorem neg (near : Nearest q x) : Nearest (-q) (-x) where
  finite := isFinite_neg near.finite
  least := fun y finite => by
    have least := near.least (-y) (isFinite_neg finite)
    rw [valueOf_neg finite] at least
    rw [valueOf_neg near.finite, ← abs_neg, ← abs_neg (valueOf y - -q)]
    convert least using 2 <;> ring
  even := fun y finite same other => by
    have parts : partsOf (-x) = (partsOf x).turned := by
      rw [neg_eq_packed near.finite, (canonical_partsOf near.finite).turned.partsOf_packed]
    rw [parts]
    rw [valueOf_neg near.finite] at same other
    refine near.even (-y) (isFinite_neg finite) ?_ fun h => other ?_
    · rw [valueOf_neg finite, ← abs_neg, ← abs_neg (valueOf x - q)]
      convert same using 2 <;> ring
    · rw [← h, valueOf_neg finite, neg_neg]

end Nearest

theorem nearest_rounded {m : Nat} {e : Int} (full : Full m e) (small : e + surplus m e ≤ 970) :
    Nearest (m * 2 ^ e) (Parts.rounded false m e).packed := by
  have canonical := Parts.canonical_rounded false full small
  have parts := canonical.partsOf_packed
  refine ⟨canonical.isFinite_packed, fun y finite => ?_, fun y finite => ?_⟩
  · rw [valueOf, parts]
    exact ((canonical_partsOf finite).rounded_nearest full).1
  · rw [valueOf, valueOf, parts]
    exact ((canonical_partsOf finite).rounded_nearest full).2

/-! ### Rounding what is not full yet -/

/-- By how many digits `m · 2 ^ e` is lengthened before it is rounded. -/
def room (m : Nat) (e : Int) : Nat := (e - max (m.log2 + e - 52) Parts.lowest).toNat

theorem log2_shiftLeft {m : Nat} (pos : 0 < m) (k : Nat) : (m <<< k).log2 = m.log2 + k := by
  have lower := Nat.mul_le_mul_right (2 ^ k) (Nat.log2_self_le pos.ne')
  have upper := Nat.mul_lt_mul_of_pos_right (Nat.lt_log2_self (n := m)) (Nat.two_pow_pos k)
  have some_ : m <<< k ≠ 0 := by
    rw [Nat.shiftLeft_eq]
    positivity
  rw [Nat.log2_eq_iff some_, Nat.shiftLeft_eq]
  constructor
  · rwa [pow_add]
  · rwa [show m.log2 + k + 1 = m.log2 + 1 + k by omega, pow_add]

theorem full_lengthened {m : Nat} (pos : 0 < m) (e : Int) : Full (m <<< room m e) (e - room m e) := by
  rw [Full, log2_shiftLeft pos]
  simp only [room]
  omega

theorem exponent_lengthened {m : Nat} (pos : 0 < m) (e : Int) :
    e - room m e + surplus (m <<< room m e) (e - room m e) = max (m.log2 + e - 52) Parts.lowest := by
  rw [(full_lengthened pos e).exponent_eq, log2_shiftLeft pos]
  omega

theorem value_lengthened (m : Nat) (e : Int) : ((m <<< room m e : Nat) : ℚ) * 2 ^ (e - room m e) = m * 2 ^ e := by
  rw [Nat.shiftLeft_eq, Nat.cast_mul, Nat.cast_pow, Nat.cast_ofNat, ← zpow_natCast, mul_assoc, ← zpow_add₀ two_ne_zero]
  congr 2
  omega

theorem round_eq (negative : Bool) (m : Nat) (e : Int) :
    UnpackedFloat.round Format.binary64 (signOf negative) m e =
      (Parts.rounded negative (m <<< room m e) (e - room m e)).unpacked := by
  rw [← roundWithAccuracy_eq]
  simp only [UnpackedFloat.round, UnpackedFloat.decreaseExponent, targetExponent_eq]
  rfl

theorem Parts.canonical_lengthened (negative : Bool) {m : Nat} (pos : 0 < m) {e : Int} (small : m.log2 + e ≤ 1022) :
    (rounded negative (m <<< room m e) (e - room m e)).Canonical := by
  refine canonical_rounded negative (full_lengthened pos e) ?_
  rw [exponent_lengthened pos, lowest]
  omega

/-! ### Integers -/

def Parts.ofNat (n : Nat) : Parts :=
  if n = 0 then ⟨false, 0, lowest⟩ else rounded false (n <<< room n 0) (0 - room n 0)

theorem Parts.canonical_zero (negative : Bool) : Parts.Canonical ⟨negative, 0, lowest⟩ :=
  ⟨by simp, le_rfl, by simp [lowest], .inr rfl⟩

theorem normalize_of_pos {m : Nat} (pos : 0 < m) (e : Int) (s : Sign) :
    UnpackedFloat.normalize Format.binary64 m e s = (Parts.rounded false (m <<< room m e) (e - room m e)).unpacked := by
  rw [← round_eq, UnpackedFloat.normalize, Int.compare_eq_gt.mpr (by omega)]
  rfl

theorem normalize_of_neg {m : Nat} (pos : 0 < m) (e : Int) (s : Sign) :
    UnpackedFloat.normalize Format.binary64 (-m) e s = (Parts.rounded true (m <<< room m e) (e - room m e)).unpacked := by
  rw [← round_eq, UnpackedFloat.normalize, Int.compare_eq_lt.mpr (by omega), neg_neg]
  rfl

theorem toFloat_eq (n : UInt64) : n.toFloat = (Parts.ofNat n.toNat).packed := by
  have model : n.toFloat = .ofModel (.pack (UnpackedFloat.normalize Format.binary64 n.toNat 0 .positive)) := rfl
  rw [model, Parts.packed, Parts.ofNat]
  split
  next zero =>
    rw [zero]
    rfl
  next some_ => rw [normalize_of_pos (Nat.pos_of_ne_zero some_)]

theorem log2_lt_of_lt {n : Nat} (bound : n < 2 ^ 64) : n.log2 < 64 := by
  by_cases zero : n = 0
  · simp [zero]
  · exact (Nat.log2_lt zero).mpr bound

theorem Parts.canonical_ofNat {n : Nat} (bound : n < 2 ^ 64) : (ofNat n).Canonical := by
  have log := log2_lt_of_lt bound
  rw [ofNat]
  split
  next => exact canonical_zero false
  next some_ => exact canonical_lengthened false (Nat.pos_of_ne_zero some_) (by omega)

theorem nearest_toFloat (n : UInt64) : Nearest n.toNat n.toFloat := by
  have log := log2_lt_of_lt n.toNat_lt
  rw [toFloat_eq, Parts.ofNat]
  split
  next zero =>
    have parts := (Parts.canonical_zero false).partsOf_packed
    have value : valueOf (Parts.packed ⟨false, 0, Parts.lowest⟩) = 0 := by
      rw [valueOf, parts, Parts.value_of_zero rfl]
    rw [zero, Nat.cast_zero, ← value]
    exact .self (Parts.canonical_zero false).isFinite_packed
  next some_ =>
    have pos := Nat.pos_of_ne_zero some_
    have value := value_lengthened n.toNat 0
    rw [zpow_zero, mul_one] at value
    rw [← value]
    refine nearest_rounded (full_lengthened pos 0) ?_
    rw [exponent_lengthened pos, Parts.lowest]
    omega

/-- The double of an integer of 64 bits, signed or not, is the nearest one. -/
theorem nearest_floatOfInt {n : Int} (bound : n.natAbs < 2 ^ 64) : Nearest n (Json.floatOfInt n) := by
  have size : (UInt64.ofNat n.natAbs).toNat = n.natAbs := by
    rw [UInt64.toNat_ofNat', Nat.mod_eq_of_lt bound]
  have near := nearest_toFloat (.ofNat n.natAbs)
  rw [size] at near
  rw [Json.floatOfInt]
  split
  next negative =>
    have cast : (n : ℚ) = -(n.natAbs : ℚ) := by
      rw [← Int.cast_natCast, Int.ofNat_natAbs_of_nonpos negative.le, Int.cast_neg, neg_neg]
    rw [cast]
    exact near.neg
  next nonneg =>
    have cast : (n : ℚ) = (n.natAbs : ℚ) := by
      rw [← Int.cast_natCast, Int.natAbs_of_nonneg (not_lt.mp nonneg)]
    rwa [cast]

/-! ### Sums and products -/

structure Parts.Moderate (p : Parts) : Prop extends p.Canonical where
  bounds : p.significand ≠ 0 → 2 ^ 52 ≤ p.significand ∧ -52 ≤ p.exponent ∧ p.exponent ≤ 12

theorem Parts.Moderate.turned {p : Parts} (moderate : p.Moderate) : p.turned.Moderate :=
  ⟨moderate.toCanonical.turned, moderate.bounds⟩

theorem Parts.moderate_ofNat {n : Nat} (bound : n < 2 ^ 64) : (ofNat n).Moderate := by
  refine ⟨canonical_ofNat bound, fun some_ => ?_⟩
  have log := log2_lt_of_lt bound
  have canonical := canonical_ofNat bound
  revert some_ canonical
  rw [ofNat]
  split
  next => exact fun some_ => absurd rfl some_
  next pos =>
    intro _ canonical
    have exponent := exponent_lengthened (Nat.pos_of_ne_zero pos) 0
    have place : -52 ≤ (rounded false (n <<< room n 0) (0 - room n 0)).exponent ∧
        (rounded false (n <<< room n 0) (0 - room n 0)).exponent ≤ 12 := by
      rw [rounded]
      split <;> simp only [exponent, lowest] <;> omega
    exact ⟨canonical.leading.resolve_right fun low => by simp only [lowest] at low; omega, place⟩

theorem moderate_floatOfInt {n : Int} (bound : n.natAbs < 2 ^ 64) :
    (Json.floatOfInt n).isFinite = true ∧ (partsOf (Json.floatOfInt n)).Moderate := by
  have size : (UInt64.ofNat n.natAbs).toNat = n.natAbs := by
    rw [UInt64.toNat_ofNat', Nat.mod_eq_of_lt bound]
  have moderate := Parts.moderate_ofNat bound
  have canonical := moderate.toCanonical
  refine ⟨(nearest_floatOfInt bound).finite, ?_⟩
  rw [Json.floatOfInt, toFloat_eq, size]
  split
  · rw [neg_eq_packed canonical.isFinite_packed, canonical.partsOf_packed, canonical.turned.partsOf_packed]
    exact moderate.turned
  · rwa [canonical.partsOf_packed]

theorem isFinite_zero (s : Sign) : (Float.ofModel (.pack (.zero s))).isFinite = true := by
  cases s <;> rfl

theorem isFinite_normalize {m : Int} {e : Int} (small : m ≠ 0 → m.natAbs.log2 + e ≤ 1022) :
    (Float.ofModel (.pack (UnpackedFloat.normalize Format.binary64 m e .positive))).isFinite = true := by
  rcases lt_trichotomy m 0 with less | rfl | more
  · have pos : 0 < m.natAbs := by omega
    have whole : m = -(m.natAbs : Int) := by omega
    rw [whole, normalize_of_neg pos]
    exact (Parts.canonical_lengthened true pos (small less.ne)).isFinite_packed
  · exact isFinite_zero .positive
  · have pos : 0 < m.natAbs := by omega
    have whole : m = (m.natAbs : Int) := by omega
    rw [whole, normalize_of_pos pos]
    exact (Parts.canonical_lengthened false pos (small more.ne')).isFinite_packed

theorem apply_neg (s : Sign) (n : Int) : (-s).apply n = -s.apply n := by
  cases s
  · exact (neg_neg n).symm
  · rfl

theorem sub_eq_add (f : Format) (a b : UnpackedFloat) : a.sub f b = a.add f b.neg := by
  match a, b with
  | .finite s m e _, .finite t n k _ =>
    simp only [UnpackedFloat.sub, UnpackedFloat.neg, UnpackedFloat.add, apply_neg, Int.sub_eq_add_neg]
  | .notANumber, _ => rfl
  | .infinity _, .notANumber | .zero _, .notANumber | .finite .., .notANumber => rfl
  | .infinity _, .infinity _ | .zero _, .infinity _ | .finite .., .infinity _ => rfl
  | .infinity _, .zero _ | .zero _, .zero _ | .finite .., .zero _ => rfl
  | .infinity _, .finite .. | .zero _, .finite .. => rfl

theorem natAbs_apply (s : Sign) (n : Nat) : (s.apply n).natAbs = n := by
  cases s <;> simp [Sign.apply]

/-- The sum of two significands, brought to the lesser one of their exponents. -/
def Parts.sum (p q : Parts) : Int :=
  (signOf p.negative).apply (p.significand <<< (p.exponent - min p.exponent q.exponent).toNat : Nat) +
    (signOf q.negative).apply (q.significand <<< (q.exponent - min p.exponent q.exponent).toNat : Nat)

section

variable {p q : Parts} (hp : p.Moderate) (hq : q.Moderate)

include hp hq

theorem Parts.Moderate.natAbs_sum_lt (ps : p.significand ≠ 0) (qs : q.significand ≠ 0) :
    (p.sum q).natAbs < 2 ^ 118 := by
  obtain ⟨-, pl, pu⟩ := hp.bounds ps
  obtain ⟨-, ql, qu⟩ := hq.bounds qs
  -- The exponents are at most 64 apart, so that neither significand is lengthened by more digits.
  have left : p.significand <<< (p.exponent - min p.exponent q.exponent).toNat ≤ 2 ^ 53 * 2 ^ 64 := by
    rw [Nat.shiftLeft_eq]
    exact Nat.mul_le_mul hp.significand_lt.le (Nat.pow_le_pow_right two_pos (by omega))
  have right : q.significand <<< (q.exponent - min p.exponent q.exponent).toNat < 2 ^ 53 * 2 ^ 64 := by
    rw [Nat.shiftLeft_eq]
    exact Nat.mul_lt_mul_of_lt_of_le hq.significand_lt (Nat.pow_le_pow_right two_pos (by omega)) (by positivity)
  have parts := Int.natAbs_add_le
    ((signOf p.negative).apply (p.significand <<< (p.exponent - min p.exponent q.exponent).toNat : Nat))
    ((signOf q.negative).apply (q.significand <<< (q.exponent - min p.exponent q.exponent).toNat : Nat))
  rw [natAbs_apply, natAbs_apply, ← sum] at parts
  omega

theorem Parts.Moderate.isFinite_add :
    (Float.ofModel (.pack (UnpackedFloat.add Format.binary64 p.unpacked q.unpacked))).isFinite = true := by
  by_cases ps : p.significand = 0 <;> by_cases qs : q.significand = 0
  · rw [unpacked_of_zero ps, unpacked_of_zero qs, UnpackedFloat.add]
    split <;> exact isFinite_zero _
  · have same : UnpackedFloat.add Format.binary64 p.unpacked q.unpacked = q.unpacked := by
      rw [unpacked_of_zero ps, unpacked_of_ne qs]
      rfl
    rw [same]
    exact hq.toCanonical.isFinite_packed
  · have same : UnpackedFloat.add Format.binary64 p.unpacked q.unpacked = p.unpacked := by
      rw [unpacked_of_ne ps, unpacked_of_zero qs]
      rfl
    rw [same]
    exact hp.toCanonical.isFinite_packed
  · have adds : UnpackedFloat.add Format.binary64 p.unpacked q.unpacked =
        UnpackedFloat.normalize Format.binary64 (p.sum q) (min p.exponent q.exponent) .positive := by
      rw [unpacked_of_ne ps, unpacked_of_ne qs]
      rfl
    -- Both significands are brought to the lesser exponent, where their sum stays small enough.
    obtain ⟨-, -, small⟩ := hp.bounds ps
    rw [adds]
    refine isFinite_normalize fun some_ => ?_
    have log := (Nat.log2_lt (Int.natAbs_ne_zero.mpr some_)).mpr (hp.natAbs_sum_lt hq ps qs)
    omega

theorem Parts.Moderate.isFinite_mul :
    (Float.ofModel (.pack (UnpackedFloat.mul Format.binary64 p.unpacked q.unpacked))).isFinite = true := by
  by_cases ps : p.significand = 0 <;> by_cases qs : q.significand = 0
  · rw [unpacked_of_zero ps, unpacked_of_zero qs]
    exact isFinite_zero _
  · rw [unpacked_of_zero ps, unpacked_of_ne qs]
    exact isFinite_zero _
  · rw [unpacked_of_ne ps, unpacked_of_zero qs]
    exact isFinite_zero _
  · obtain ⟨pm, pl, pu⟩ := hp.bounds ps
    obtain ⟨qm, ql, qu⟩ := hq.bounds qs
    have product : p.significand * q.significand ≠ 0 := Nat.mul_ne_zero ps qs
    -- The product is as long as a full significand at least, so that it is only rounded.
    have long : 52 ≤ (p.significand * q.significand).log2 :=
      (Nat.le_log2 product).mpr (pm.trans (Nat.le_mul_of_pos_right _ (Nat.pos_of_ne_zero qs)))
    have bound : p.significand * q.significand < 2 ^ 53 * 2 ^ 53 :=
      Nat.mul_lt_mul_of_lt_of_lt hp.significand_lt hq.significand_lt
    have short : (p.significand * q.significand).log2 < 106 := (Nat.log2_lt product).mpr (by omega)
    have full : Full (p.significand * q.significand) (p.exponent + q.exponent) := .inl long
    have sign : signOf p.negative * signOf q.negative = signOf (p.negative != q.negative) := by
      cases p.negative <;> cases q.negative <;> rfl
    have rounds : UnpackedFloat.mul Format.binary64 p.unpacked q.unpacked =
        (rounded (p.negative != q.negative) (p.significand * q.significand) (p.exponent + q.exponent)).unpacked := by
      rw [unpacked_of_ne ps, unpacked_of_ne qs, ← roundWithAccuracy_eq, ← sign]
      rfl
    rw [rounds]
    refine (canonical_rounded _ full ?_).isFinite_packed
    rw [full.exponent_eq, lowest]
    omega

end

section

variable {x y : Float} (hx : x.isFinite = true) (hy : y.isFinite = true) (px : (partsOf x).Moderate)
  (py : (partsOf y).Moderate)

include hx hy px py

theorem isFinite_add : (x + y).isFinite = true := by
  change (Float.ofModel (.pack (UnpackedFloat.add Format.binary64 x.toModel.unpack y.toModel.unpack))).isFinite = true
  rw [unpack_toModel hx, unpack_toModel hy]
  exact px.isFinite_add py

theorem isFinite_mul : (x * y).isFinite = true := by
  change (Float.ofModel (.pack (UnpackedFloat.mul Format.binary64 x.toModel.unpack y.toModel.unpack))).isFinite = true
  rw [unpack_toModel hx, unpack_toModel hy]
  exact px.isFinite_mul py

theorem isFinite_sub : (x - y).isFinite = true := by
  change (Float.ofModel (.pack (UnpackedFloat.sub Format.binary64 x.toModel.unpack y.toModel.unpack))).isFinite = true
  rw [unpack_toModel hx, unpack_toModel hy, sub_eq_add, ← Parts.unpacked_turned]
  exact px.isFinite_add py.turned

end

end Stencil.Decimal
