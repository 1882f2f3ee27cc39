import Stencil.Proofs.Evaluation.Arithmetic

/-! Comparisons of numbers.

A number stands for one rational number. Two integers of 64 signed bits compare as these do; any other two numbers
compare as the doubles nearest to them, so that numbers with the same nearest double count as equal.
-/

set_option autoImplicit false

namespace Stencil

open Decimal (Nearest valueOf)

namespace Json.Number

def Sound : Number → Prop
  | .int n => -2 ^ 63 ≤ n ∧ n < 2 ^ 64
  | .float x => x.isFinite = true

def value : Number → ℚ
  | .int n => n
  | .float x => valueOf x

/-- The double that a number is computed with, where it is, as the rational number that it stands for. -/
def rounded (x : Number) : ℚ := valueOf x.toFloat

def IsSigned (x : Number) : Prop := x.asInt?.isSome = true

/-- Two numbers that comparisons can tell apart. -/
def Distinguished (x y : Number) : Prop := (x.IsSigned ∧ y.IsSigned) ∨ x.rounded ≠ y.rounded

instance (x : Number) : Decidable x.IsSigned := inferInstanceAs (Decidable (_ = true))

instance (x y : Number) : Decidable (x.Distinguished y) := inferInstanceAs (Decidable (_ ∨ _))

variable {x y z : Number}

theorem Sound.nearest (sound : x.Sound) : Nearest x.value x.toFloat := by
  cases x with
  | int n =>
    refine Decimal.nearest_floatOfInt ?_
    obtain ⟨least, greatest⟩ := sound
    omega
  | float x => exact .self sound

theorem IsSigned.exists_int (signed : x.IsSigned) : ∃ n : Int, x = .int n ∧ Program.inRange n = true := by
  cases x with
  | int n =>
    rw [IsSigned, Program.asInt?_int] at signed
    exact ⟨n, rfl, by_contra fun long => by simp [long] at signed⟩
  | float x => exact absurd signed Bool.false_ne_true

section

variable (hx : x.Sound) (hy : y.Sound)

include hx hy

theorem rounded_congr (same : x.value = y.value) : x.rounded = y.rounded := by
  have nx := hx.nearest
  have ny := hy.nearest
  -- An integer and a double that are the same number: the nearest double to the number is that double.
  cases x with
  | int m =>
    cases y with
    | int n => rw [Int.cast_injective same]
    | float y =>
      rw [same] at nx
      exact nx.exact hy
  | float x =>
    cases y with
    | int n =>
      rw [← same] at ny
      exact (ny.exact hx).symm
    | float y => exact same

theorem rounded_mono (less : x.value ≤ y.value) : x.rounded ≤ y.rounded := by
  rcases less.lt_or_eq with less | same
  · exact hx.nearest.le_of_lt hy.nearest less
  · exact (rounded_congr hx hy same).le

/-- Numbers with different doubles are ordered as these are. -/
theorem compare_rounded (other : x.rounded ≠ y.rounded) : compare x.rounded y.rounded = compare x.value y.value := by
  rcases lt_trichotomy x.value y.value with less | same | more
  · rw [compare_lt_iff_lt.mpr less, compare_lt_iff_lt.mpr ((rounded_mono hx hy less.le).lt_of_ne other)]
  · exact absurd (rounded_congr hx hy same) other
  · rw [compare_gt_iff_gt.mpr more, compare_gt_iff_gt.mpr ((rounded_mono hy hx more.le).lt_of_ne other.symm)]

end

/-- The order of two numbers, as comparisons see it. -/
def order (x y : Number) : Ordering := if x.Distinguished y then compare x.value y.value else .eq

theorem order_of_not (unsigned : ¬(x.IsSigned ∧ y.IsSigned)) (hx : x.Sound) (hy : y.Sound) :
    x.order y = compare x.rounded y.rounded := by
  by_cases same : x.rounded = y.rounded
  · rw [order, if_neg fun h => h.elim unsigned (· same), same, compare_eq_iff_eq.mpr rfl]
  · rw [order, if_pos (.inr same), compare_rounded hx hy same]

theorem order_swap (x y : Number) : (x.order y).swap = y.order x := by
  have swapped : y.Distinguished x ↔ x.Distinguished y := by
    rw [Distinguished, Distinguished, and_comm, ne_comm]
  rw [order, order]
  by_cases apart : x.Distinguished y
  · rw [if_pos apart, if_pos (swapped.mpr apart), ← cmp_eq_compare, ← cmp_eq_compare, cmp_swap]
  · rw [if_neg apart, if_neg (mt swapped.mp apart), Ordering.swap_eq]

theorem order_self (x : Number) : x.order x = .eq := by
  rw [order]
  split
  · exact compare_eq_iff_eq.mpr rfl
  · rfl

theorem order_eq_eq_iff : x.order y = .eq ↔ x.order y ≠ .gt ∧ y.order x ≠ .gt := by
  rw [← order_swap x y]
  cases x.order y <;> simp

theorem order_ne_gt_iff_value (hx : x.IsSigned) (hy : y.IsSigned) : x.order y ≠ .gt ↔ x.value ≤ y.value := by
  rw [order, if_pos (.inl ⟨hx, hy⟩), Ne, compare_gt_iff_gt, not_lt]

theorem order_ne_gt_iff_rounded (unsigned : ¬(x.IsSigned ∧ y.IsSigned)) (hx : x.Sound) (hy : y.Sound) :
    x.order y ≠ .gt ↔ x.rounded ≤ y.rounded := by
  rw [order_of_not unsigned hx hy, Ne, compare_gt_iff_gt, not_lt]

theorem rounded_le (hx : x.Sound) (hy : y.Sound) (most : x.order y ≠ .gt) : x.rounded ≤ y.rounded := by
  by_cases signed : x.IsSigned ∧ y.IsSigned
  · exact rounded_mono hx hy ((order_ne_gt_iff_value signed.1 signed.2).mp most)
  · exact (order_ne_gt_iff_rounded signed hx hy).mp most

theorem order_trans (hx : x.Sound) (hy : y.Sound) (hz : z.Sound) (plain : x.IsSigned → z.IsSigned → y.IsSigned)
    (xy : x.order y ≠ .gt) (yz : y.order z ≠ .gt) : x.order z ≠ .gt := by
  by_cases signed : x.IsSigned ∧ z.IsSigned
  -- Among three integers the order is that of the rational numbers, and otherwise all goes by the doubles.
  · have middle := plain signed.1 signed.2
    rw [order_ne_gt_iff_value signed.1 middle] at xy
    rw [order_ne_gt_iff_value middle signed.2] at yz
    exact (order_ne_gt_iff_value signed.1 signed.2).mpr (xy.trans yz)
  · exact (order_ne_gt_iff_rounded signed hx hz).mpr ((rounded_le hx hy xy).trans (rounded_le hy hz yz))

end Json.Number

namespace Program

open Json (Number Value)

theorem compareFloats?_eq {x y : Float} (hx : x.isFinite = true) (hy : y.isFinite = true) :
    compareFloats? x y = some (compare (valueOf x) (valueOf y)) := by
  simp only [compareFloats?, Decimal.lt_iff_valueOf hx hy, Decimal.lt_iff_valueOf hy hx, Decimal.beq_iff_valueOf hx hy]
  rcases lt_trichotomy (valueOf x) (valueOf y) with less | same | more
  · rw [if_pos less, compare_lt_iff_lt.mpr less]
  · rw [if_neg same.not_lt, if_neg same.not_gt, if_pos same, compare_eq_iff_eq.mpr same]
  · rw [if_neg more.not_gt, if_pos more, compare_gt_iff_gt.mpr more]

variable {x y z : Number}

theorem ofNumber_of_not (unsigned : ¬x.IsSigned) : Num.ofNumber x = .float x.toFloat := by
  have none_ : x.asInt? = none := Option.not_isSome_iff_eq_none.mp unsigned
  rw [Num.ofNumber, none_]

theorem toFloat_ofNumber (x : Number) : (Num.ofNumber x).toFloat = x.toFloat := by
  by_cases signed : x.IsSigned
  · obtain ⟨n, rfl, fits⟩ := signed.exists_int
    rw [ofNumber_int fits]
    rfl
  · rw [ofNumber_of_not signed]
    rfl

/-- Two numbers are compared as doubles unless both are integers of 64 signed bits. -/
theorem compared_of_not (unsigned : ¬(x.IsSigned ∧ y.IsSigned)) :
    compareValues? (.number x) (.number y) = compareFloats? x.toFloat y.toFloat ∧
      valuesEqual (.number x) (.number y) = (x.toFloat == y.toFloat) := by
  simp only [compareValues?, valuesEqual, Num.ofValue?]
  rw [not_and_or] at unsigned
  rcases unsigned with unsigned | unsigned
  · rw [ofNumber_of_not unsigned, ← toFloat_ofNumber y]
    exact ⟨rfl, rfl⟩
  · rw [ofNumber_of_not unsigned, ← toFloat_ofNumber x]
    cases Num.ofNumber x <;> exact ⟨rfl, rfl⟩

theorem compared_eq_order (hx : x.Sound) (hy : y.Sound) :
    compareValues? (.number x) (.number y) = some (x.order y) ∧
      valuesEqual (.number x) (.number y) = (x.order y == .eq) := by
  by_cases signed : x.IsSigned ∧ y.IsSigned
  · obtain ⟨m, rfl, hm⟩ := signed.1.exists_int
    obtain ⟨n, rfl, hn⟩ := signed.2.exists_int
    have grows : StrictMono fun n : ℤ => (n : ℚ) := Int.cast_strictMono
    have same : compare (m : ℚ) n = compare m n := by
      rw [← cmp_eq_compare, ← cmp_eq_compare]
      exact grows.cmp_map_eq m n
    have order : Number.order (.int m) (.int n) = compare m n := by
      rw [Number.order, if_pos (.inl signed)]
      exact same
    simp only [compareValues?, valuesEqual, Num.ofValue?, ofNumber_int hm, ofNumber_int hn, order, true_and]
    rw [Bool.eq_iff_iff, beq_iff_eq, beq_iff_eq, compare_eq_iff_eq]
  · obtain ⟨compared, equal⟩ := compared_of_not signed
    rw [compared, equal, Number.order_of_not signed hx hy, compareFloats?_eq hx.nearest.finite hy.nearest.finite]
    refine ⟨rfl, ?_⟩
    rw [Bool.eq_iff_iff, Decimal.beq_iff_valueOf hx.nearest.finite hy.nearest.finite, beq_iff_eq, compare_eq_iff_eq]
    rfl

/-! ### Operators -/

def BinaryOp.comparisons : List BinaryOp := [.equal, .unequal, .less, .lessEqual, .greater, .greaterEqual]

def BinaryOp.relates (op : BinaryOp) (p q : ℚ) : Bool :=
  match op with
  | .equal => p = q
  | .unequal => p ≠ q
  | .less => p < q
  | .lessEqual => p ≤ q
  | .greater => q < p
  | .greaterEqual => q ≤ p
  | _ => false

def Meets (op : BinaryOp) (x y : Number) : Prop := applyBinary op (.number x) (.number y) = .ok (.bool true)

def BinaryOp.judges (op : BinaryOp) (order : Ordering) : Bool :=
  match op with
  | .equal => order == .eq
  | .unequal => order != .eq
  | op => satisfies op order

theorem judges_compare {op : BinaryOp} (comparison : op ∈ BinaryOp.comparisons) (p q : ℚ) :
    op.judges (compare p q) = op.relates p q := by
  rcases lt_trichotomy p q with less | same | more
  · rw [compare_lt_iff_lt.mpr less]
    cases op with
    | equal | unequal | less | lessEqual | greater | greaterEqual =>
      simp [BinaryOp.judges, BinaryOp.relates, satisfies, less, less.ne, less.le, less.not_gt, less.not_ge]
    | _ => exact absurd comparison (by decide)
  · rw [compare_eq_iff_eq.mpr same]
    cases op with
    | equal | unequal | less | lessEqual | greater | greaterEqual =>
      simp [BinaryOp.judges, BinaryOp.relates, satisfies, same]
    | _ => exact absurd comparison (by decide)
  · rw [compare_gt_iff_gt.mpr more]
    cases op with
    | equal | unequal | less | lessEqual | greater | greaterEqual =>
      simp [BinaryOp.judges, BinaryOp.relates, satisfies, more, more.ne', more.le, more.not_gt, more.not_ge]
    | _ => exact absurd comparison (by decide)

theorem applyBinary_number {op : BinaryOp} (comparison : op ∈ BinaryOp.comparisons) (hx : x.Sound) (hy : y.Sound) :
    applyBinary op (.number x) (.number y) = .ok (.bool (op.judges (x.order y))) := by
  obtain ⟨compared, equal⟩ := compared_eq_order hx hy
  cases op with
  | equal | unequal | less | lessEqual | greater | greaterEqual =>
    simp [applyBinary, BinaryOp.judges, compared, equal, bne]
  | _ => exact absurd comparison (by decide)

theorem meets_equal (hx : x.Sound) (hy : y.Sound) : Meets .equal x y ↔ x.order y = .eq := by
  rw [Meets, applyBinary_number (by decide) hx hy]
  simp [BinaryOp.judges]

theorem meets_lessEqual (hx : x.Sound) (hy : y.Sound) : Meets .lessEqual x y ↔ x.order y ≠ .gt := by
  rw [Meets, applyBinary_number (by decide) hx hy]
  simp [BinaryOp.judges, satisfies]

theorem evaluate_comparison {op : BinaryOp} (comparison : op ∈ BinaryOp.comparisons) (hx : x.Sound) (hy : y.Sound)
    {model : Value} {left right : Expr} (hl : evaluate model left = .ok (.number x))
    (hr : evaluate model right = .ok (.number y)) :
    evaluate model (.binary op left right) =
      .ok (.bool (if x.Distinguished y then op.relates x.value y.value else op.relates x.value x.value)) := by
  have equal : compare x.value x.value = .eq := compare_eq_iff_eq.mpr rfl
  have applied := applyBinary_number comparison hx hy
  rw [Number.order, ← equal, apply_ite op.judges, judges_compare comparison, judges_compare comparison] at applied
  rw [evaluate_binary (strict_of_mem comparison (by decide) (by decide)), hl, hr]
  exact applied

theorem meets_equal_comm (hx : x.Sound) (hy : y.Sound) : Meets .equal x y ↔ Meets .equal y x := by
  rw [meets_equal hx hy, meets_equal hy hx, ← Number.order_swap x y]
  cases x.order y <;> simp

theorem meets_lessEqual_total (hx : x.Sound) (hy : y.Sound) : Meets .lessEqual x y ∨ Meets .lessEqual y x := by
  rw [meets_lessEqual hx hy, meets_lessEqual hy hx, ← Number.order_swap x y]
  cases x.order y <;> simp

theorem meets_equal_iff (hx : x.Sound) (hy : y.Sound) :
    Meets .equal x y ↔ Meets .lessEqual x y ∧ Meets .lessEqual y x := by
  rw [meets_equal hx hy, meets_lessEqual hx hy, meets_lessEqual hy hx, Number.order_eq_eq_iff]

theorem meets_lessEqual_trans (hx : x.Sound) (hy : y.Sound) (hz : z.Sound)
    (plain : x.IsSigned → z.IsSigned → y.IsSigned) (xy : Meets .lessEqual x y) (yz : Meets .lessEqual y z) :
    Meets .lessEqual x z := by
  rw [meets_lessEqual hx hy] at xy
  rw [meets_lessEqual hy hz] at yz
  exact (meets_lessEqual hx hz).mpr (Number.order_trans hx hy hz plain xy yz)

theorem meets_equal_trans (hx : x.Sound) (hy : y.Sound) (hz : z.Sound)
    (plain : x.IsSigned → z.IsSigned → y.IsSigned) (xy : Meets .equal x y) (yz : Meets .equal y z) :
    Meets .equal x z := by
  rw [meets_equal_iff hx hy] at xy
  rw [meets_equal_iff hy hz] at yz
  refine (meets_equal_iff hx hz).mpr ⟨meets_lessEqual_trans hx hy hz plain xy.1 yz.1, ?_⟩
  exact meets_lessEqual_trans hz hy hx (fun last first => plain first last) yz.2 xy.2

theorem exists_number_of_valuesEqual {item : Value} (equal : valuesEqual item (.number y) = true) :
    ∃ v : Number, item = .number v := by
  cases item with
  | number v => exact ⟨v, rfl⟩
  | _ => exact absurd equal Bool.false_ne_true

theorem holds_number (items : List Value) (y : Number) :
    ∃ found : Bool, Function.contains.call [.array items, .number y] = .ok (.bool found) ∧
      (found = true ↔ ∃ v : Number, .number v ∈ items ∧ Meets .equal v y) := by
  refine ⟨items.any fun item => valuesEqual item (.number y), rfl, ?_⟩
  have meets : ∀ v : Number, Meets .equal v y ↔ valuesEqual (.number v) (.number y) = true := fun v => by
    simp [Meets, applyBinary]
  simp only [List.any_eq_true, meets]
  constructor
  · rintro ⟨item, member, equal⟩
    obtain ⟨v, rfl⟩ := exists_number_of_valuesEqual equal
    exact ⟨v, member, equal⟩
  · rintro ⟨v, member, equal⟩
    exact ⟨_, member, equal⟩

/-- Comparisons see the rational numbers behind two numbers, unless one is no integer of 64 signed bits and the same
double is nearest to both: then they count as equal. -/
theorem numbers_compared (hx : x.Sound) (hy : y.Sound) (hz : z.Sound) :
    Nearest x.value x.toFloat ∧
    (∀ op ∈ BinaryOp.comparisons, ∀ (model : Value) (left right : Expr),
      evaluate model left = .ok (.number x) → evaluate model right = .ok (.number y) →
        evaluate model (.binary op left right) =
          .ok (.bool (if x.Distinguished y then op.relates x.value y.value else op.relates x.value x.value))) ∧
    Meets .equal x x ∧
    (Meets .equal x y ↔ Meets .equal y x) ∧
    (Meets .lessEqual x y ∨ Meets .lessEqual y x) ∧
    (Meets .equal x y ↔ Meets .lessEqual x y ∧ Meets .lessEqual y x) ∧
    ((x.IsSigned → z.IsSigned → y.IsSigned) →
      (Meets .equal x y → Meets .equal y z → Meets .equal x z) ∧
        (Meets .lessEqual x y → Meets .lessEqual y z → Meets .lessEqual x z)) ∧
    ∀ items : List Value, ∃ found : Bool, Function.contains.call [.array items, .number y] = .ok (.bool found) ∧
      (found = true ↔ ∃ v : Number, .number v ∈ items ∧ Meets .equal v y) := by
  refine ⟨hx.nearest, fun op comparison model left right hl hr => evaluate_comparison comparison hx hy hl hr, ?_,
    meets_equal_comm hx hy, meets_lessEqual_total hx hy, meets_equal_iff hx hy,
    fun plain => ⟨meets_equal_trans hx hy hz plain, meets_lessEqual_trans hx hy hz plain⟩,
    fun items => holds_number items y⟩
  rw [meets_equal hx hx, Number.order_self]

theorem numbers_compared_long :
    Number.Sound (.int 9007199254740993) ∧ Number.Sound (.float 9007199254740992.0) ∧
      Meets .equal (.float 9007199254740992.0) (.int 9007199254740993) ∧
      ∃ found : Bool, Function.contains.call [.array [.ofInt 9007199254740993], .number (.float 9007199254740992.0)] =
          .ok (.bool found) ∧
        (found = true ↔ ∃ v : Number, .number v ∈ [Value.ofInt 9007199254740993] ∧
          Meets .equal v (.float 9007199254740992.0)) := by
  have long : Number.Sound (.int 9007199254740993) := ⟨by decide, by decide⟩
  have double : Number.Sound (.float 9007199254740992.0) := by rfl
  have meets : Meets .equal (.int 9007199254740993) (.float 9007199254740992.0) := by rfl
  obtain ⟨-, -, -, symmetric, -, -, -, found⟩ := numbers_compared long double long
  exact ⟨long, double, symmetric.mp meets, found _⟩

/-- Two integers count as equal to one double, to which only one of them is. -/
theorem close_numbers_equal :
    evaluate (.object [("a", .ofInt 9007199254740993), ("b", .ofFloat 9007199254740992.0)])
        (.binary .equal (.member .model "a") (.member .model "b")) = .ok (.bool true) ∧
      evaluate (.object [("a", .ofInt 9007199254740992), ("b", .ofFloat 9007199254740992.0)])
        (.binary .equal (.member .model "a") (.member .model "b")) = .ok (.bool true) ∧
      Number.value (.float 9007199254740992.0) = 9007199254740992 ∧
      Number.value (.int 9007199254740993) ≠ Number.value (.float 9007199254740992.0) := by
  have parts : Decimal.partsOf 9007199254740992.0 = ⟨false, 2 ^ 52, 1⟩ := by rfl
  have value : Number.value (.float 9007199254740992.0) = 9007199254740992 := by
    rw [Number.value, valueOf, parts, Decimal.Parts.value, Decimal.Parts.magnitude]
    norm_num
  refine ⟨rfl, rfl, value, ?_⟩
  rw [value, Number.value]
  norm_num

end Program

end Stencil
