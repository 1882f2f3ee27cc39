import Stencil.Program.Arithmetic
import Stencil.Text.Blank
import Stencil.Text.Casing

/-! The value of an expression. -/

set_option autoImplicit false

namespace Stencil.Program

open Json (Value Number)

def lengthOf : Value → Except EvalError Value
  | .null => .ok (.ofInt 0)
  | .string s => .ok (.ofInt s.length)
  | .array items => .ok (.ofInt items.length)
  | .object members => .ok (.ofInt members.length)
  | value => .error (.typeMismatch [.string, .array, .object] value.kind)

def joined (separator : String) : Value → Except EvalError Value
  | .null => .ok (.string "")
  | .array items => .ok (.string (String.intercalate separator (items.map textOf)))
  | value => .error (.typeMismatch [.array] value.kind)

def occursIn (needle : List Char) : List Char → Bool
  | [] => needle.isEmpty
  | c :: rest => needle.isPrefixOf (c :: rest) || occursIn needle rest

def holds (needle : Value) : Value → Except EvalError Value
  | .null => .ok (.bool false)
  | .string s => .ok (.bool (occursIn (textOf needle).toList s.toList))
  | .array items => .ok (.bool (items.any fun item => valuesEqual item needle))
  | .object members => .ok (.bool (members.lookup (textOf needle)).isSome)
  | value => .error (.typeMismatch [.string, .array, .object] value.kind)

/-- The second value where the first is `null` or an empty text. -/
def orElse (value other : Value) : Value :=
  match value with
  | .null => other
  | .string s => if s = "" then other else value
  | value => value

def mapText (f : List Char → List Char) (value : Value) : Value :=
  .string (String.ofList (f (textOf value).toList))

/-- The result of a call, `none` when the function does not take that many arguments. -/
def Function.result? (f : Function) (arguments : List Value) : Option (Except EvalError Value) :=
  match f, arguments with
  | .len, [value] => some (lengthOf value)
  | .upper, [value] => some (.ok (mapText Text.upper value))
  | .lower, [value] => some (.ok (mapText Text.lower value))
  | .trim, [value] => some (.ok (mapText Text.trim value))
  | .join, [value] => some (joined "" value)
  | .join, [value, separator] => some (joined (textOf separator) value)
  | .contains, [value, needle] => some (holds needle value)
  | .default, [value, other] => some (.ok (orElse value other))
  | .string, [value] => some (.ok (.string (textOf value)))
  | _, _ => none

theorem Function.result?_isSome (f : Function) (arguments : List Value) :
    (f.result? arguments).isSome = f.accepts arguments.length := by
  match arguments with
  | [] => cases f <;> rfl
  | [_] => cases f <;> rfl
  | [_, _] => cases f <;> rfl
  | _ :: _ :: _ :: rest => cases f <;> simp [result?, accepts, most, least]

def Function.call (f : Function) (arguments : List Value) : Except EvalError Value :=
  match f.result? arguments with
  | some result => result
  | none => .error (.argumentCount f arguments.length)

/-- A member of an object; one that is missing is `null`, and so is any member of `null`. -/
def memberOf (target : Value) (property : String) : Except EvalError Value :=
  match target with
  | .object members => .ok ((members.lookup property).getD .null)
  | .null => .ok .null
  | target => .error (.typeMismatch [.object] target.kind)

/-- A number as a position: `none` for a number that is no integer of 64 signed bits. -/
def positionOf? (n : Number) : Option Int := n.asInt?

def itemAt? {α : Type} (items : List α) (position : Int) : Option α :=
  if 0 ≤ position then items[position.toNat]? else none

/-- An item of an array, a character of a text or a member of an object; a place without anything is `null`,
and so is any place of `null`. -/
def indexOf (target index : Value) : Except EvalError Value :=
  let invalid : Except EvalError Value := .error (.invalidIndex target.kind index.kind)
  match target, index with
  | .null, _ => .ok .null
  | .object members, .string key => memberOf (.object members) key
  | .array items, .number n =>
    match positionOf? n with
    | some position => .ok ((itemAt? items position).getD .null)
    | none => invalid
  | .string s, .number n =>
    match positionOf? n with
    | some position => .ok (((itemAt? s.toList position).map fun c => .string c.toString).getD .null)
    | none => invalid
  | _, _ => invalid

def expectBool : Value → Except EvalError Bool
  | .bool b => .ok b
  | value => .error (.typeMismatch [.bool] value.kind)

def applyUnary (op : UnaryOp) (value : Value) : Except EvalError Value :=
  match op with
  | .not => (expectBool value).map fun b => .bool !b
  | .negate => negate value

mutual

/-- The value of an expression for a model. The right operand of `&&` and `||` counts only where the left one
does not decide. -/
def evaluate (model : Value) : Expr → Except EvalError Value
  | .literal value => .ok value
  | .model => .ok model
  | .member object property => do
    let target ← evaluate model object
    memberOf target property
  | .index object index => do
    let target ← evaluate model object
    let index ← evaluate model index
    indexOf target index
  | .call f arguments => do
    let values ← evaluateAll model arguments
    f.call values
  | .unary op operand => do
    let value ← evaluate model operand
    applyUnary op value
  | .binary .both left right => do
    let a ← evaluate model left
    if ← expectBool a then
      let b ← evaluate model right
      return .bool (← expectBool b)
    else return .bool false
  | .binary .either left right => do
    let a ← evaluate model left
    if ← expectBool a then return .bool true
    else
      let b ← evaluate model right
      return .bool (← expectBool b)
  | .binary op left right => do
    let a ← evaluate model left
    let b ← evaluate model right
    applyBinary op a b

def evaluateAll (model : Value) : List Expr → Except EvalError (List Value)
  | [] => .ok []
  | e :: rest => do
    let value ← evaluate model e
    let values ← evaluateAll model rest
    return value :: values

end

theorem evaluate_binary {op : BinaryOp} (strict : op ≠ .both ∧ op ≠ .either) (model : Value) (left right : Expr) :
    evaluate model (.binary op left right) =
      evaluate model left >>= fun a => evaluate model right >>= fun b => applyBinary op a b := by
  rw [evaluate]
  · exact strict.1
  · exact strict.2

end Stencil.Program
