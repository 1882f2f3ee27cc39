import Stencil.Diagnostic
import Stencil.Path
import Stencil.Template.Error
import Stencil.Text.Duration

/-! What can keep a view from being compiled. -/

set_option autoImplicit false

namespace Stencil

inductive ConditionFault where
  | notParenthesized
  | unbalanced (text : String)
  | empty
  deriving DecidableEq, Repr

def ConditionFault.message : ConditionFault → String
  | .notParenthesized => "expected a parenthesized condition after `if`"
  | .unbalanced text => "unbalanced parentheses in condition `" ++ text ++ "`"
  | .empty => "empty condition"

/-- Why a compile ended without an answer of its own. -/
inductive Abort where
  | breakdown
  /-- An op refers to a unit that has no entry point of the kind that the op needs. -/
  | noEntryPoint (unit : String)
  deriving DecidableEq, Repr

def Abort.message : Abort → String
  | .breakdown => "the backend broke down"
  | .noEntryPoint unit => "unit " ++ unit ++ " has no entry point of the right kind"

inductive CompileError where
  | template (error : Template.ParseError)
  | malformedCode (line : Nat) (fault : ConditionFault)
  | unsupportedCode (line : Nat) (content : String)
  | elseWithoutIf (line : Nat)
  | stackMisaligned (depth : Nat)
  | recursivePartial (name : String)
  | compilationFailed (modelType : String) (diagnostics : List Diagnostic)
  | partialNotFound (path : Path)
  | templateLoad (path : Path) (cause : String)
  | timeout (milliseconds : Nat)
  | aborted (cause : Abort)
  deriving DecidableEq, Repr

def CompileError.message : CompileError → String
  | .template error => error.message
  | .malformedCode line fault =>
    "Malformed code on line " ++ toString line ++ " : " ++ fault.message
  | .unsupportedCode line content =>
    "Unsupported code on line " ++ toString line ++ " : \"" ++ content ++
      "\" (only `if (...)` and `else` are allowed)"
  | .elseWithoutIf line =>
    "`else` on line " ++ toString line ++ " does not follow an `if` at the same level"
  | .stackMisaligned depth =>
    "Node stack misaligned: expected 1 open sequence, found " ++ toString depth
  | .recursivePartial name => "Partial " ++ name ++ " includes itself"
  | .compilationFailed modelType diagnostics =>
    "Failed to compile inline code for template (model " ++ modelType ++ "): " ++
      String.intercalate "; " (diagnostics.map Diagnostic.display)
  | .partialNotFound path => "Unable to find partial : " ++ path.text
  | .templateLoad path cause => "Failed to load template " ++ path.text ++ ": " ++ cause
  | .timeout milliseconds => "Compilation timed out after " ++ Text.duration milliseconds
  | .aborted cause => "Compilation aborted: " ++ cause.message

end Stencil
