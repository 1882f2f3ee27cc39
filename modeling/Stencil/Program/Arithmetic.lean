import Stencil.Decimal.Binary64
import Stencil.Json.Printer
import Stencil.Program.EvalError

/-! Numbers and comparisons in expressions.

Integers are computed exactly as long as the operands and the result fit 64 signed bits; anything else is
computed with doubles, where a result that is no finite double becomes `null`.
-/

set_option autoImplicit false

namespace Stencil.Program

open Json (Value Number)

/-- The text of a value where text is wanted: nothing for `null`, a string as it is. -/
def textOf : Value → String
  | .null => ""
  | .string s => s
  | .bool b => String.ofList (Json.boolText b)
  | .number n => String.ofList n.text
  | value => String.ofList value.text

/-- A number as expressions compute with it. -/
inductive Num where
  | int (value : Int)
  | float (value : Float)
  deriving Repr

def Num.toFloat : Num → Float
  | .int n => Json.floatOfInt n
  | .float x => x

/-- An integer beyond 64 signed bits is computed with as a double. -/
def Num.ofNumber (n : Number) : Num :=
  match n.asInt? with
  | some i => .int i
  | none => .float n.toFloat

def Num.ofValue? : Value → Option Num
  | .number n => some (.ofNumber n)
  | _ => none

def inRange (n : Int) : Bool := -(Int.pow 2 63) ≤ n && n < Int.pow 2 63

/-- The exact result of an operation on integers; quotients are truncated towards zero, and a remainder has
the sign of the dividend. The divisor is not zero. -/
def exact (op : BinaryOp) (a b : Int) : Option Int :=
  match op with
  | .add => some (a + b)
  | .subtract => some (a - b)
  | .multiply => some (a * b)
  | .divide => some (Int.tdiv a b)
  | .remainder => if a = -(Int.pow 2 63) ∧ b = -1 then none else some (Int.tmod a b)
  | _ => none

def approximate (op : BinaryOp) (x y : Float) : Float :=
  match op with
  | .add => x + y
  | .subtract => x - y
  | .multiply => x * y
  | .divide => x / y
  | .remainder => Decimal.remainder x y
  | _ => 0

def isDivision (op : BinaryOp) : Bool := op = .divide || op = .remainder

def floatArithmetic (op : BinaryOp) (x y : Float) : Except EvalError Value :=
  if isDivision op && y == 0 then .error .divisionByZero
  else .ok (.ofFloat (approximate op x y))

def arithmetic (op : BinaryOp) (a b : Num) : Except EvalError Value :=
  match a, b with
  | .int m, .int n =>
    if isDivision op && n = 0 then .error .divisionByZero
    else
      match (exact op m n).filter inRange with
      | some result => .ok (.ofInt result)
      | none => floatArithmetic op (Json.floatOfInt m) (Json.floatOfInt n)
  | a, b => floatArithmetic op a.toFloat b.toFloat

/-- Whether two values count as equal. Two numbers do when they agree as integers, or as doubles when one of
them is no integer; other values do when they are alike. -/
def valuesEqual (a b : Value) : Bool :=
  match Num.ofValue? a, Num.ofValue? b with
  | some (.int m), some (.int n) => m == n
  | some x, some y => x.toFloat == y.toFloat
  | _, _ => a.alike b

def compareFloats? (x y : Float) : Option Ordering :=
  if x < y then some .lt else if y < x then some .gt else if x == y then some .eq else none

def compareValues? (a b : Value) : Option Ordering :=
  match a, b with
  | .string s, .string t => some (compareOfLessAndEq s t)
  | a, b =>
    match Num.ofValue? a, Num.ofValue? b with
    | some (.int m), some (.int n) => some (compare m n)
    | some x, some y => compareFloats? x.toFloat y.toFloat
    | _, _ => none

def satisfies (op : BinaryOp) (order : Ordering) : Bool :=
  match op with
  | .less => order == .lt
  | .lessEqual => order != .gt
  | .greater => order == .gt
  | _ => order != .lt

def applyBinary (op : BinaryOp) (a b : Value) : Except EvalError Value :=
  let invalid : Except EvalError Value := .error (.invalidOperands op a.kind b.kind)
  let numeric : Except EvalError Value :=
    match Num.ofValue? a, Num.ofValue? b with
    | some x, some y => arithmetic op x y
    | _, _ => invalid
  match op with
  | .add =>
    if a.kind = .string ∨ b.kind = .string then .ok (.string (textOf a ++ textOf b)) else numeric
  | .subtract | .multiply | .divide | .remainder => numeric
  | .equal => .ok (.bool (valuesEqual a b))
  | .unequal => .ok (.bool (!valuesEqual a b))
  | .less | .lessEqual | .greater | .greaterEqual =>
    match compareValues? a b with
    | some order => .ok (.bool (satisfies op order))
    | none => invalid
  | .both | .either => invalid

def negate (value : Value) : Except EvalError Value :=
  match Num.ofValue? value with
  | some (.int n) => .ok (if inRange (-n) then .ofInt (-n) else .ofFloat (-(Json.floatOfInt n)))
  | some (.float x) => .ok (.ofFloat (-x))
  | none => .error (.typeMismatch [.number] value.kind)

end Stencil.Program
