import Stencil.Program.Function
import Stencil.Program.Lexer

/-! What can be wrong with a program text. -/

set_option autoImplicit false

namespace Stencil.Program

inductive Expected where
  | keyword (word : Keyword)
  | symbol (sign : Symbol)
  | functionName
  | parameterName
  | returnType
  | memberName
  | expression
  deriving DecidableEq, Repr

def Expected.describe : Expected → String
  | .keyword word => (Token.keyword word).describe
  | .symbol sign => (Token.symbol sign).describe
  | .functionName => "a function name"
  | .parameterName => "a parameter name"
  | .returnType => "a return type"
  | .memberName => "a member name"
  | .expression => "an expression"

inductive Problem where
  /-- Something else than expected, or the end of the text. -/
  | unexpected (expected : Expected) (found : Option Token)
  | unknownReturnType (name : String)
  | unknownName (name : String)
  | unknownFunction (name : String)
  | argumentCount (function : Function) (given : Nat)
  | noToken (text : List Char)
  | duplicateFunction (name : String)
  deriving Repr

def Problem.message : Problem → String
  | .unexpected expected found =>
    let found := match found with
      | some token => token.describe
      | none => "end of input"
    "Expected " ++ expected.describe ++ ", found " ++ found
  | .unknownReturnType name => "Unknown return type `" ++ name ++ "`"
  | .unknownName name => "Unknown name `" ++ name ++ "`"
  | .unknownFunction name => "Unknown function `" ++ name ++ "`"
  | .argumentCount f given =>
    "`" ++ f.name ++ "` takes " ++ f.arity ++ " argument(s) but " ++ toString given ++ " were given"
  | .noToken text => "Unexpected character `" ++ String.ofList text ++ "`"
  | .duplicateFunction name => "Duplicate function `" ++ name ++ "`"

/-- A problem and its place; without a span it is at the end of the text. -/
structure Fault where
  span : Option Span
  problem : Problem
  deriving Repr

def Fault.unexpected (expected : Expected) : List Lexeme → Fault
  | [] => { span := none, problem := .unexpected expected none }
  | t :: _ => { span := some t.span, problem := .unexpected expected (some t.token) }

end Stencil.Program
