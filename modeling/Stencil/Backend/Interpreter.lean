import Stencil.Backend.Basic
import Stencil.Program.Declarations
import Stencil.Program.Evaluate

/-! The backend that evaluates expressions as they are.

It reads the program text and keeps the expression of every function. A program with any problem at all is
refused: with a library that is not known, with a fault in its text, or with two functions of one name.
-/

set_option autoImplicit false

namespace Stencil

open Json (Value)

namespace Program

def decideOn (model : Value) (e : Expr) : Except EvalError Bool := do
  let value ← evaluate model e
  expectBool value

def textFor (model : Value) (e : Expr) : Except EvalError String := do
  let value ← evaluate model e
  return textOf value

def Declaration.entryPoint (d : Declaration) : EntryPoint :=
  match d.kind with
  | .text => .text fun model => (textFor model d.body).mapError .eval
  | .boolean => .boolean fun model => (decideOn model d.body).mapError .eval

def Declaration.duplicate (source : String) (d : Declaration) : Diagnostic :=
  { unit := some d.name, line := lineOf source d.span.start, span := some d.span, templateLine := none
    message := (Problem.duplicateFunction d.name).message }

/-- The functions whose names have been given before, `seen` holding the names so far. -/
def repeated : (seen : List String) → List Declaration → List Declaration
  | _, [] => []
  | seen, d :: rest =>
    if d.name ∈ seen then d :: repeated seen rest else repeated (d.name :: seen) rest

def unknownLibrary (name : String) : Diagnostic :=
  .plain 0 ("Unknown library reference `" ++ name ++ "`")

end Program

open Program in
def interpreter : Backend := fun request =>
  let contents := Contents.ofText (functionsOf request.references) request.source
  let unknown := request.references.filter fun name => (library? name).isNone
  let problems := unknown.map unknownLibrary ++ contents.diagnostics ++
    (repeated [] contents.declarations).map (Declaration.duplicate request.source)
  if problems.isEmpty then
    .ok { entryPoint? := fun name =>
            (contents.declarations.find? fun d => d.name = name).map Declaration.entryPoint }
  else .error problems

end Stencil
