import Stencil.Json.Value
import Stencil.Program.EvalError
import Stencil.Units

/-! What turns a program text into callable code.

A backend takes the program text of a template and gives a library, in which the code of each unit is found
under the name of the unit, or the problems that it has with the text.
-/

set_option autoImplicit false

namespace Stencil

open Json (Value)

/-- A failure of a unit while a view is rendered. -/
inductive UnitError where
  | eval (error : Program.EvalError)
  | other (message : String)
  deriving DecidableEq, Repr

def UnitError.message : UnitError → String
  | .eval error => error.message
  | .other message => message

/-- The code of one unit, as a function of the model. -/
inductive EntryPoint where
  | text (call : Value → Except UnitError String)
  | boolean (call : Value → Except UnitError Bool)

def EntryPoint.kind : EntryPoint → ReturnKind
  | .text _ => .text
  | .boolean _ => .boolean

structure Request where
  modelType : String
  source : String
  /-- The libraries that the program may use. -/
  references : List String
  deriving Repr

structure Library where
  entryPoint? : String → Option EntryPoint

/-- A backend gives one answer to each request. -/
abbrev Backend := Request → Except (List Diagnostic) Library

end Stencil
