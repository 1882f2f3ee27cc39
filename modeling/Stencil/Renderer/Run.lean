import Stencil.Renderer.Basic

/-! Running a routine.

A run writes piece after piece into a sink, which may refuse any of them. It stops at the first piece that is
refused and at the first unit that fails; what has been written stays written.
-/

set_option autoImplicit false

namespace Stencil

open Json (Value)

inductive RenderError where
  /-- The model could not be turned into a value. -/
  | model (cause : String)
  | sink
  | expression (unit : String) (error : UnitError)
  deriving DecidableEq, Repr

def RenderError.message : RenderError → String
  | .model cause => "Failed to serialize model: " ++ cause
  | .sink => "Failed to write to output: an error occurred when formatting an argument"
  | .expression unit error => "Expression " ++ unit ++ " failed: " ++ error.message

/-- Whether a sink takes a text, after the texts that it has taken before. -/
abbrev Sink := (written : List String) → (text : String) → Bool

namespace Sink

def unlimited : Sink := fun _ _ => true

def byteCount (written : List String) : Nat := written.foldl (fun count text => count + text.utf8ByteSize) 0

def limited (limit : Nat) : Sink := fun written text => byteCount written + text.utf8ByteSize ≤ limit

end Sink

structure Rendering where
  writes : List String
  error : Option RenderError
  deriving DecidableEq, Repr

namespace Rendering

def empty : Rendering := { writes := [], error := none }

def text (r : Rendering) : String := String.join r.writes

/-- One more text, as far as the sink takes it. -/
def write (sink : Sink) (r : Rendering) (text : String) : Rendering :=
  if sink r.writes text then { r with writes := r.writes ++ [text] } else { r with error := some .sink }

def fail (r : Rendering) (unit : String) (error : UnitError) : Rendering :=
  { r with error := some (.expression unit error) }

end Rendering

namespace Renderer

mutual

def runStep (sink : Sink) (model : Value) : Step → Rendering → Rendering
  | .write text, r => r.write sink text
  | .print unit call, r =>
    match call model with
    | .ok text => r.write sink text
    | .error error => r.fail unit error
  | .branch unit condition body otherwise, r =>
    match condition model with
    | .ok true => runSteps sink model body r
    | .ok false => runSteps sink model otherwise r
    | .error error => r.fail unit error

def runSteps (sink : Sink) (model : Value) : List Step → Rendering → Rendering
  | [], r => r
  | step :: rest, r =>
    let r := runStep sink model step r
    if r.error.isSome then r else runSteps sink model rest r

end

def render (renderer : Renderer) (sink : Sink) (model : Value) : Rendering :=
  runSteps sink model renderer.steps .empty

end Renderer

end Stencil
