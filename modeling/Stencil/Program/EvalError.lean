import Stencil.Json.Value
import Stencil.Program.Expr

/-! Failures of an evaluation. -/

set_option autoImplicit false

namespace Stencil.Program

open Json (Kind)

inductive EvalError where
  | typeMismatch (expected : List Kind) (found : Kind)
  | invalidOperands (op : BinaryOp) (left right : Kind)
  | invalidIndex (target index : Kind)
  | divisionByZero
  /-- A call with a number of arguments that its function does not take. No expression that was read from a
  program has such a call. -/
  | argumentCount (function : Function) (given : Nat)
  deriving DecidableEq, Repr

def inWords : List String → String
  | [] => ""
  | [name] => name
  | [first, second] => first ++ " or " ++ second
  | first :: rest => first ++ ", " ++ inWords rest

def EvalError.message : EvalError → String
  | .typeMismatch expected found =>
    "Type mismatch: expected " ++ inWords (expected.map Kind.name) ++ ", found " ++ found.name
  | .invalidOperands op left right =>
    "Invalid operands for " ++ op.sign.text ++ ": " ++ left.name ++ " and " ++ right.name
  | .invalidIndex target index => "Cannot index " ++ target.name ++ " with " ++ index.name
  | .divisionByZero => "Division by zero"
  | .argumentCount f given => f.name ++ " does not take " ++ toString given ++ " argument(s)"

end Stencil.Program
