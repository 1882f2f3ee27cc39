import Stencil.Program.Evaluate

/-! Evaluation without copies.

A path of members and indexes is followed inside of the model as long as it can be, and a value that was computed is
taken apart where it is: its other members and items are given up.
-/

set_option autoImplicit false

namespace Stencil.Program

open Json (Value Number)

/-- A value on the way of an evaluation: a part of the model, or one that was made on the way. -/
inductive Held where
  | borrowed (value : Value)
  | owned (value : Value)
  deriving Repr

def Held.value : Held → Value
  | .borrowed value => value
  | .owned value => value

def removeMember (key : String) : List (String × Value) → Option Value × List (String × Value)
  | [] => (none, [])
  | (k, v) :: rest =>
    if key = k then (some v, rest)
    else
      let (found, left) := removeMember key rest
      (found, (k, v) :: left)

/-- The item at a position, taken out, and the items that are left; the last one fills its place. -/
def swapRemove (items : List Value) (position : Fin items.length) : Value × List Value :=
  let last := items.getLast (List.ne_nil_of_length_pos position.pos)
  (items.get position, (items.set position last).dropLast)

def Held.member (target : Held) (property : String) : Except EvalError Held :=
  match target with
  | .borrowed (.object members) =>
    match members.lookup property with
    | some value => .ok (.borrowed value)
    | none => .ok (.owned .null)
  | .owned (.object members) => .ok (.owned ((removeMember property members).1.getD .null))
  | .borrowed .null | .owned .null => .ok (.owned .null)
  | .borrowed other | .owned other => .error (.typeMismatch [.object] other.kind)

/-- The greatest length that a text can have. -/
def longest : Nat := Nat.pow 2 64 - 1

/-- A number as a position in so many items: `none` outside of them, and a failure for a number that is no integer
of 64 signed bits. -/
def positionIn (n : Number) (length : Nat) : Except Unit (Option (Fin length)) :=
  match n.asInt? with
  | some i => if h : 0 ≤ i ∧ i.toNat < length then .ok (some ⟨i.toNat, h.2⟩) else .ok none
  | none => .error ()

def Held.index (target : Held) (index : Value) : Except EvalError Held :=
  let invalid : Except EvalError Held := .error (.invalidIndex target.value.kind index.kind)
  match target, index with
  | .borrowed .null, _ | .owned .null, _ => .ok (.owned .null)
  | .borrowed (.object members), .string key => Held.member (.borrowed (.object members)) key
  | .owned (.object members), .string key => Held.member (.owned (.object members)) key
  | .borrowed (.array items), .number n =>
    match positionIn n items.length with
    | .ok (some i) => .ok (.borrowed (items.get i))
    | .ok none => .ok (.owned .null)
    | .error _ => invalid
  | .owned (.array items), .number n =>
    match positionIn n items.length with
    | .ok (some i) => .ok (.owned (swapRemove items i).1)
    | .ok none => .ok (.owned .null)
    | .error _ => invalid
  | .borrowed (.string s), .number n | .owned (.string s), .number n =>
    match positionIn n longest with
    | .ok (some i) => .ok (.owned ((s.toList[i.val]?.map fun c => .string c.toString).getD .null))
    | .ok none => .ok (.owned .null)
    | .error _ => invalid
  | _, _ => invalid

mutual

def resolve (model : Value) : Expr → Except EvalError Held
  | .literal value => .ok (.owned value)
  | .model => .ok (.borrowed model)
  | .member object property => do
    let target ← resolve model object
    target.member property
  | .index object index => do
    let target ← resolve model object
    let index ← resolve model index
    target.index index.value
  | .call f arguments => do
    let values ← resolveAll model arguments
    (f.call values).map .owned
  | .unary op operand => do
    let held ← resolve model operand
    (applyUnary op held.value).map .owned
  | .binary .both left right => do
    let a ← resolve model left
    if ← expectBool a.value then
      let b ← resolve model right
      return .owned (.bool (← expectBool b.value))
    else return .owned (.bool false)
  | .binary .either left right => do
    let a ← resolve model left
    if ← expectBool a.value then return .owned (.bool true)
    else
      let b ← resolve model right
      return .owned (.bool (← expectBool b.value))
  | .binary op left right => do
    let a ← resolve model left
    let b ← resolve model right
    (applyBinary op a.value b.value).map .owned

def resolveAll (model : Value) : List Expr → Except EvalError (List Value)
  | [] => .ok []
  | e :: rest => do
    let held ← resolve model e
    let values ← resolveAll model rest
    return held.value :: values

end

end Stencil.Program
