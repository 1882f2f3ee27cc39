import Stencil.Program.Resolve

/-! Evaluation by operations that can trap.

An operation that reads an item behind the end of a list traps, and so does one on integers whose result is beyond 64
signed bits or whose divisor is zero; a trap leaves the evaluation without any answer. A checked operation on integers
catches an overflow. Nothing else is caught: positions, divisors and the numbers of arguments are in range only where
the evaluation, or the reader of the program before it, has looked.
-/

set_option autoImplicit false

namespace Stencil.Program

open Json (Value Number)

inductive Trap where
  | outOfRange
  | overflow
  | divisionByZero
  deriving DecidableEq, Repr

/-- An evaluation that comes to a value or fails, unless it traps. -/
abbrev Attempt (α : Type) := ExceptT EvalError (Except Trap) α

namespace Attempt

variable {α : Type}

def settled (result : Except EvalError α) : Attempt α := ExceptT.mk (.ok result)

def bare (x : Except Trap α) : Attempt α := ExceptT.lift x

end Attempt

open Attempt (settled bare)

def itemOf {α : Type} (items : List α) (position : Nat) : Except Trap α :=
  match items[position]? with
  | some item => .ok item
  | none => .error .outOfRange

def swapRemoveAt (items : List Value) (position : Nat) : Except Trap (Value × List Value) :=
  if h : position < items.length then .ok (swapRemove items ⟨position, h⟩) else .error .outOfRange

/-! ### Integers -/

def held (n : Int) : Except Trap Int := if inRange n then .ok n else .error .overflow

/-- An operation on integers. The remainder of the least integer by -1 overflows as its quotient does. -/
def integerOp (op : BinaryOp) (a b : Int) : Except Trap (Option Int) :=
  match op with
  | .add => (held (a + b)).map some
  | .subtract => (held (a - b)).map some
  | .multiply => (held (a * b)).map some
  | .divide => if b = 0 then .error .divisionByZero else (held (a.tdiv b)).map some
  | .remainder =>
    if b = 0 then .error .divisionByZero
    else if a = -(Int.pow 2 63) ∧ b = -1 then .error .overflow
    else (held (a.tmod b)).map some
  | _ => .ok none

/-- A checked operation has no result where the operation overflows. -/
def checked (x : Except Trap (Option Int)) : Except Trap (Option Int) :=
  match x with
  | .error .overflow => .ok none
  | x => x

def attemptArithmetic (op : BinaryOp) (a b : Num) : Attempt Value :=
  match a, b with
  | .int m, .int n =>
    if isDivision op && n = 0 then settled (.error .divisionByZero)
    else do
      match ← bare (checked (integerOp op m n)) with
      | some result => return .ofInt result
      | none => settled (floatArithmetic op (Json.floatOfInt m) (Json.floatOfInt n))
  | a, b => settled (floatArithmetic op a.toFloat b.toFloat)

def attemptBinary (op : BinaryOp) (a b : Value) : Attempt Value :=
  let numeric : Attempt Value :=
    match Num.ofValue? a, Num.ofValue? b with
    | some x, some y => attemptArithmetic op x y
    | _, _ => settled (.error (.invalidOperands op a.kind b.kind))
  match op with
  | .add =>
    if a.kind = .string ∨ b.kind = .string then pure (.string (textOf a ++ textOf b)) else numeric
  | .subtract | .multiply | .divide | .remainder => numeric
  | op => settled (applyBinary op a b)

def attemptUnary (op : UnaryOp) (value : Value) : Attempt Value :=
  match op, Num.ofValue? value with
  | .negate, some (.int n) => do
    match ← bare (checked ((held (-n)).map some)) with
    | some result => return .ofInt result
    | none => return .ofFloat (-(Json.floatOfInt n))
  | op, _ => settled (applyUnary op value)

/-! ### Positions -/

def positionBelow (n : Number) (length : Nat) : Except Unit (Option Nat) :=
  match n.asInt? with
  | some i => .ok (if 0 ≤ i ∧ i.toNat < length then some i.toNat else none)
  | none => .error ()

def Held.attemptIndex (target : Held) (index : Value) : Attempt Held :=
  match target, index with
  | .borrowed (.array items), .number n =>
    match positionBelow n items.length with
    | .ok (some i) => bare ((itemOf items i).map .borrowed)
    | .ok none => pure (.owned .null)
    | .error _ => settled (.error (.invalidIndex .array .number))
  | .owned (.array items), .number n =>
    match positionBelow n items.length with
    | .ok (some i) => bare ((swapRemoveAt items i).map fun taken => .owned taken.1)
    | .ok none => pure (.owned .null)
    | .error _ => settled (.error (.invalidIndex .array .number))
  | target, index => settled (target.index index)

/-! ### Calls -/

/-- A call reads its arguments by their positions, without counting them. -/
def Function.attempt (f : Function) (arguments : List Value) : Attempt Value :=
  match f with
  | .len => do
    let value ← bare (itemOf arguments 0)
    settled (lengthOf value)
  | .upper => do
    let value ← bare (itemOf arguments 0)
    return mapText Text.upper value
  | .lower => do
    let value ← bare (itemOf arguments 0)
    return mapText Text.lower value
  | .trim => do
    let value ← bare (itemOf arguments 0)
    return mapText Text.trim value
  | .join => do
    let value ← bare (itemOf arguments 0)
    settled (joined ((arguments[1]?.map textOf).getD "") value)
  | .contains => do
    let needle ← bare (itemOf arguments 1)
    let value ← bare (itemOf arguments 0)
    settled (holds needle value)
  | .default => do
    let value ← bare (itemOf arguments 0)
    match value with
    | .null => bare (itemOf arguments 1)
    | .string s => if s = "" then bare (itemOf arguments 1) else return value
    | value => return value
  | .string => do
    let value ← bare (itemOf arguments 0)
    return .string (textOf value)

/-! ### Expressions -/

mutual

def attempt (model : Value) : Expr → Attempt Held
  | .literal value => return .owned value
  | .model => return .borrowed model
  | .member object property => do
    let target ← attempt model object
    settled (target.member property)
  | .index object index => do
    let target ← attempt model object
    let index ← attempt model index
    target.attemptIndex index.value
  | .call f arguments => do
    let values ← attemptAll model arguments
    return .owned (← f.attempt values)
  | .unary op operand => do
    let held ← attempt model operand
    return .owned (← attemptUnary op held.value)
  | .binary .both left right => do
    let a ← attempt model left
    if ← settled (expectBool a.value) then
      let b ← attempt model right
      return .owned (.bool (← settled (expectBool b.value)))
    else return .owned (.bool false)
  | .binary .either left right => do
    let a ← attempt model left
    if ← settled (expectBool a.value) then return .owned (.bool true)
    else
      let b ← attempt model right
      return .owned (.bool (← settled (expectBool b.value)))
  | .binary op left right => do
    let a ← attempt model left
    let b ← attempt model right
    return .owned (← attemptBinary op a.value b.value)

def attemptAll (model : Value) : List Expr → Attempt (List Value)
  | [] => return []
  | e :: rest => do
    let held ← attempt model e
    let values ← attemptAll model rest
    return held.value :: values

end

def attemptText (model : Value) (e : Expr) : Attempt String := do
  let held ← attempt model e
  return textOf held.value

def attemptDecision (model : Value) (e : Expr) : Attempt Bool := do
  let held ← attempt model e
  settled (expectBool held.value)

end Stencil.Program
