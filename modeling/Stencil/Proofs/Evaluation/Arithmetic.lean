import Stencil.Program.Evaluate
import Stencil.Proofs.Double.Integers

/-! Integer arithmetic is exact where its result fits 64 signed bits.

The two integers of 64 signed bits whose quotient does not fit are the least one and -1. Their remainder, which is
0, does not come out as an integer either: it is left to the doubles together with the quotient.
-/

set_option autoImplicit false

namespace Stencil.Program

open Json (Value floatOfInt)

def BinaryOp.arithmetical : List BinaryOp := [.add, .subtract, .multiply, .divide, .remainder]

/-- The result of an arithmetical operator on integers, where it has one: quotients are truncated towards zero, and a
remainder has the sign of the first integer. -/
def BinaryOp.resultOn (op : BinaryOp) (a b : Int) : Int :=
  match op with
  | .add => a + b
  | .subtract => a - b
  | .multiply => a * b
  | .divide => a.tdiv b
  | _ => a.tmod b

/-- The one remainder whose quotient does not fit. -/
def IsLeastByMinusOne (op : BinaryOp) (a b : Int) : Prop := op = .remainder ∧ a = -2 ^ 63 ∧ b = -1

instance (op : BinaryOp) (a b : Int) : Decidable (IsLeastByMinusOne op a b) :=
  inferInstanceAs (Decidable (_ ∧ _ ∧ _))

theorem inRange_iff {n : Int} : inRange n = true ↔ -2 ^ 63 ≤ n ∧ n < 2 ^ 63 := by
  simp [inRange]

theorem asInt?_int (n : Int) : (Json.Number.int n).asInt? = if inRange n = true then some n else none := by
  rw [Json.Number.asInt?]
  simp only [inRange_iff]
  rfl

theorem ofNumber_int {n : Int} (fits : inRange n = true) : Num.ofNumber (.int n) = .int n := by
  rw [Num.ofNumber, asInt?_int, if_pos fits]

theorem natAbs_lt_of_inRange {n : Int} (fits : inRange n = true) : n.natAbs < 2 ^ 64 := by
  rw [inRange_iff] at fits
  omega

theorem inRange_tdiv {a b : Int} (ha : inRange a = true) (corner : ¬(a = -2 ^ 63 ∧ b = -1)) :
    inRange (a.tdiv b) = true := by
  rw [inRange_iff] at *
  have size := Int.natAbs_tdiv_le_natAbs a b
  -- Only the quotient of the least integer could be as great as it is and not be negative.
  by_cases least : a = -2 ^ 63
  · have other : b ≠ -1 := fun h => corner ⟨least, h⟩
    have half : b.natAbs ≤ 1 ∨ (a.tdiv b).natAbs ≤ a.natAbs / 2 := by
      rw [Int.natAbs_tdiv]
      by_cases small : b.natAbs ≤ 1
      · exact .inl small
      · exact .inr (Nat.div_le_div_left (by omega) two_pos)
    rcases half with small | half
    · obtain rfl | rfl : b = 0 ∨ b = 1 := by omega
      · simp
      · simp [least]
    · omega
  · omega

theorem inRange_tmod {a b : Int} (ha : inRange a = true) : inRange (a.tmod b) = true := by
  rw [inRange_iff] at *
  have size : (a.tmod b).natAbs ≤ a.natAbs := by
    rw [Int.natAbs_tmod]
    exact Nat.mod_le _ _
  rcases le_or_gt 0 a with nonneg | neg
  · omega
  · have sign := Int.tmod_nonneg b (neg_nonneg.mpr neg.le)
    rw [Int.neg_tmod] at sign
    omega

/-- A result that does not fit is left to the doubles, and so is the remainder of the least integer by -1. -/
theorem exact_eq {op : BinaryOp} {a b : Int} (arithmetical : op ∈ BinaryOp.arithmetical) :
    (exact op a b).filter inRange =
      if inRange (op.resultOn a b) = true ∧ ¬IsLeastByMinusOne op a b then some (op.resultOn a b) else none := by
  -- Only the remainder is left out before the range is looked at.
  have plain : ∀ result : Int, (some result).filter inRange = if inRange result = true then some result else none :=
    fun result => rfl
  cases op with
  | add | subtract | multiply | divide => simp [exact, BinaryOp.resultOn, IsLeastByMinusOne, plain]
  | remainder =>
    have exact_ : exact .remainder a b = if IsLeastByMinusOne .remainder a b then none else some (a.tmod b) := by
      simp [exact, IsLeastByMinusOne]
    have result : BinaryOp.remainder.resultOn a b = a.tmod b := rfl
    rw [exact_, result]
    by_cases corner : IsLeastByMinusOne .remainder a b <;> simp [corner, plain]
  | _ => exact absurd arithmetical (by decide)

section

variable {op : BinaryOp} {a b : Int} (arithmetical : op ∈ BinaryOp.arithmetical) (ha : inRange a = true)
  (left : ¬(inRange (op.resultOn a b) = true ∧ ¬IsLeastByMinusOne op a b))

include arithmetical ha left

theorem corner_of_isDivision (division : isDivision op = true) : a = -2 ^ 63 ∧ b = -1 := by
  by_contra other
  cases op with
  | divide => exact left ⟨inRange_tdiv ha other, by simp [IsLeastByMinusOne]⟩
  | remainder => exact left ⟨inRange_tmod ha, fun corner => other corner.2⟩
  | _ => exact absurd division Bool.false_ne_true

theorem isFinite_approximate (hb : inRange b = true) :
    (approximate op (floatOfInt a) (floatOfInt b)).isFinite = true := by
  obtain ⟨fa, pa⟩ := Decimal.moderate_floatOfInt (natAbs_lt_of_inRange ha)
  obtain ⟨fb, pb⟩ := Decimal.moderate_floatOfInt (natAbs_lt_of_inRange hb)
  cases op with
  | add => exact Decimal.isFinite_add fa fb pa pb
  | subtract => exact Decimal.isFinite_sub fa fb pa pb
  | multiply => exact Decimal.isFinite_mul fa fb pa pb
  -- What is left of the quotients and remainders is computed.
  | divide | remainder =>
    obtain ⟨rfl, rfl⟩ := corner_of_isDivision arithmetical ha left rfl
    rfl
  | _ => exact absurd arithmetical (by decide)

theorem floatArithmetic_eq (hb : inRange b = true) :
    floatArithmetic op (floatOfInt a) (floatOfInt b) =
      .ok (.number (.float (approximate op (floatOfInt a) (floatOfInt b)))) := by
  have divisor : (isDivision op && floatOfInt b == 0) = false := by
    by_cases division : isDivision op = true
    · obtain ⟨-, rfl⟩ := corner_of_isDivision arithmetical ha left division
      rw [division]
      rfl
    · simp [division]
  rw [floatArithmetic, divisor, if_neg Bool.false_ne_true, Value.ofFloat, Json.Number.ofFloat?,
    if_pos (isFinite_approximate arithmetical ha left hb)]

end

theorem applyBinary_ofInt {op : BinaryOp} {a b : Int} (arithmetical : op ∈ BinaryOp.arithmetical)
    (ha : inRange a = true) (hb : inRange b = true) :
    applyBinary op (.ofInt a) (.ofInt b) =
      if isDivision op = true ∧ b = 0 then .error .divisionByZero
      else if inRange (op.resultOn a b) = true ∧ ¬IsLeastByMinusOne op a b then .ok (.ofInt (op.resultOn a b))
      else .ok (.number (.float (approximate op (floatOfInt a) (floatOfInt b)))) := by
  have numeric : applyBinary op (.ofInt a) (.ofInt b) = arithmetic op (.int a) (.int b) := by
    rw [← ofNumber_int ha, ← ofNumber_int hb]
    cases op with
    | add => simp [applyBinary, Value.ofInt, Value.kind, Num.ofValue?]
    | subtract | multiply | divide | remainder => rfl
    | _ => exact absurd arithmetical (by decide)
  rw [numeric, arithmetic, exact_eq arithmetical]
  by_cases zero : isDivision op = true ∧ b = 0
  · simp [zero]
  · rw [if_neg (by simpa using zero), if_neg zero]
    by_cases fits : inRange (op.resultOn a b) = true ∧ ¬IsLeastByMinusOne op a b
    · rw [if_pos fits, if_pos fits]
    · rw [if_neg fits, if_neg fits]
      exact floatArithmetic_eq arithmetical ha fits hb

theorem strict_of_mem {op : BinaryOp} {ops : List BinaryOp} (member : op ∈ ops) (both : .both ∉ ops)
    (either : .either ∉ ops) : op ≠ .both ∧ op ≠ .either :=
  ⟨fun same => both (same ▸ member), fun same => either (same ▸ member)⟩

/-- Integer arithmetic is exact where the result fits 64 signed bits, but for the remainder of the least integer by
-1. What does not fit is computed with doubles. -/
theorem integers_computed {op : BinaryOp} {a b : Int} {model : Value} {left right : Expr}
    (arithmetical : op ∈ BinaryOp.arithmetical) (ha : inRange a = true) (hb : inRange b = true)
    (hl : evaluate model left = .ok (.ofInt a)) (hr : evaluate model right = .ok (.ofInt b)) :
    (evaluate model (.binary op left right) = .error .divisionByZero ↔ isDivision op = true ∧ b = 0) ∧
      (evaluate model (.binary op left right) = .ok (.ofInt (op.resultOn a b)) ↔
        ¬(isDivision op = true ∧ b = 0) ∧ inRange (op.resultOn a b) = true ∧ ¬IsLeastByMinusOne op a b) ∧
      ((∃ x : Float, x.isFinite = true ∧ x = approximate op (floatOfInt a) (floatOfInt b) ∧
          evaluate model (.binary op left right) = .ok (.number (.float x))) ↔
        ¬(isDivision op = true ∧ b = 0) ∧ (inRange (op.resultOn a b) = false ∨ IsLeastByMinusOne op a b)) := by
  have value : evaluate model (.binary op left right) = applyBinary op (.ofInt a) (.ofInt b) := by
    rw [evaluate_binary (strict_of_mem arithmetical (by decide) (by decide)), hl, hr]
    rfl
  rw [value, applyBinary_ofInt arithmetical ha hb]
  by_cases zero : isDivision op = true ∧ b = 0
  · simp [zero]
  by_cases fits : inRange (op.resultOn a b) = true ∧ ¬IsLeastByMinusOne op a b
  · simp [zero, fits, Value.ofInt]
  · have finite := isFinite_approximate arithmetical ha fits hb
    rw [if_neg zero, if_neg fits]
    refine ⟨by simp [zero], by simp [fits, Value.ofInt], ?_⟩
    rw [not_and_or, not_not, Bool.not_eq_true] at fits
    exact ⟨fun _ => ⟨zero, fits⟩, fun _ => ⟨_, finite, rfl, rfl⟩⟩

theorem integers_computed_product :
    inRange 3037000500 = true ∧ inRange (BinaryOp.multiply.resultOn 3037000500 3037000500) = false ∧
      ∃ x : Float, x.isFinite = true ∧ x = approximate .multiply (floatOfInt 3037000500) (floatOfInt 3037000500) ∧
        evaluate (.ofInt 3037000500) (.binary .multiply .model .model) = .ok (.number (.float x)) :=
  have fits : inRange 3037000500 = true := by decide
  have long : inRange (BinaryOp.multiply.resultOn 3037000500 3037000500) = false := by decide
  ⟨fits, long, (integers_computed (by decide) fits fits rfl rfl).2.2.mpr ⟨by decide, .inl long⟩⟩

/-- The remainder of the least integer by -1 is no integer, though 0 fits. -/
theorem least_remainder_inexact :
    evaluate (.object [("a", .ofInt (-2 ^ 63))])
        (.binary .remainder (.member .model "a") (.unary .negate (.literal (.ofInt 1)))) =
          .ok (.number (.float (-0.0))) ∧
      BinaryOp.remainder.resultOn (-2 ^ 63) (-1) = 0 ∧ inRange 0 = true := by
  refine ⟨?_, by decide, by decide⟩
  rfl

end Stencil.Program
