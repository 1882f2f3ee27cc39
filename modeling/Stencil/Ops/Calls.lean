import Stencil.CompileError
import Stencil.Ops.Builder

/-! Runs of calls to a builder.

A caller gets an answer to each of its calls, and the finished sequence at the end. A scope that is not open cannot be
closed, and a branch for which there is no conditional is handed back.
-/

set_option autoImplicit false

namespace Stencil.Builder

inductive Call where
  | write (text : String)
  | writeChar (c : Char)
  | expression (unit : Nat)
  | conditional (condition : Nat) (body : List Op)
  | pushScope
  | popScope
  | attachElse (branch : List Op)
  | canAttachElse
  | depth
  deriving Repr

inductive Answer where
  | done
  | closed (ops : List Op)
  | misaligned (error : CompileError)
  | attached
  | returned (branch : List Op)
  | attachable (can : Bool)
  | depth (scopes : Nat)
  deriving Repr

def perform (b : Builder) : Call → Builder × Answer
  | .write text => (b.write text, .done)
  | .writeChar c => (b.write (String.singleton c), .done)
  | .expression unit => (b.expression unit, .done)
  | .conditional condition body => (b.conditional condition body, .done)
  | .pushScope => (b.pushScope, .done)
  | .popScope =>
    match b.popScope with
    | (next, some ops) => (next, .closed ops)
    | (next, none) => (next, .misaligned (.stackMisaligned (next.depth - 1)))
  | .attachElse branch =>
    match b.attachElse? branch with
    | some next => (next, .attached)
    | none => (b, .returned branch)
  | .canAttachElse => (b, .attachable b.canAttachElse)
  | .depth => (b, .depth b.depth)

def performAll (b : Builder) : List Call → Builder × List Answer
  | [] => (b, [])
  | call :: rest =>
    let (next, answer) := b.perform call
    let (last, answers) := next.performAll rest
    (last, answer :: answers)

def finish (b : Builder) : Except CompileError (List Op) :=
  match b.finish? with
  | some ops => .ok ops
  | none => .error (.stackMisaligned b.depth)

end Stencil.Builder
