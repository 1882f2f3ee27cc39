import Stencil.Backend.Resolve
import Stencil.Ops.Basic
import Stencil.Text.Quoted

/-! Render routines.

A routine is a sequence of ops with the code of each unit in place of its handle. It can be run on any number
of models.
-/

set_option autoImplicit false

namespace Stencil

open Json (Value)

inductive Step where
  | write (text : String)
  | print (unit : String) (call : Value → Except UnitError String)
  | branch (unit : String) (condition : Value → Except UnitError Bool) (body otherwise : List Step)

structure Renderer where
  modelType : String
  steps : List Step
  /-- The number of units behind the routine. -/
  units : Nat

namespace Renderer

def noEntryPoint {α : Type} (resolved : ResolvedUnits) (handle : Nat) : Except CompileError α :=
  .error (.aborted (.noEntryPoint (resolved.name handle)))

mutual

def bindOp (resolved : ResolvedUnits) : Op → Except CompileError Step
  | .text content => .ok (.write content)
  | .expression unit =>
    match resolved.get? unit with
    | some (.text call) => .ok (.print (resolved.name unit) call)
    | _ => noEntryPoint resolved unit
  | .conditional condition body otherwise =>
    match resolved.get? condition with
    | some (.boolean call) => do
      let body ← bindOps resolved body
      let others ← bindOtherwise resolved otherwise
      return .branch (resolved.name condition) call body others
    | _ => noEntryPoint resolved condition

def bindOtherwise (resolved : ResolvedUnits) : Option (List Op) → Except CompileError (List Step)
  | some ops => bindOps resolved ops
  | none => .ok []

def bindOps (resolved : ResolvedUnits) : List Op → Except CompileError (List Step)
  | [] => .ok []
  | op :: rest => do
    let step ← bindOp resolved op
    let steps ← bindOps resolved rest
    return step :: steps

end

def assemble (modelType : String) (ops : List Op) (resolved : ResolvedUnits) :
    Except CompileError Renderer := do
  let steps ← bindOps resolved ops
  return { modelType, steps, units := resolved.size }

def describe (renderer : Renderer) : String :=
  "Renderer \x7b model_type: " ++ Text.quoted renderer.modelType ++
    ", steps: " ++ toString renderer.steps.length ++
    ", units: " ++ toString renderer.units ++ " \x7d"

end Renderer

end Stencil
