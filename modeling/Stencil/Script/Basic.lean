import Stencil.CompileError

/-! What a tree asks for, one instruction after the other.

The instructions of a tree say what is written, which pieces of code are evaluated and where other trees come
in. They depend on the tree alone; units, ops and other trees enter when they are carried out.
-/

set_option autoImplicit false

namespace Stencil

inductive Target where
  /-- The main template, inside its layout. -/
  | main
  | named (name : String)
  deriving DecidableEq, Repr

inductive Instruction where
  | write (text : String)
  /-- Write the text of a piece of code. -/
  | print (source : String) (line : Nat)
  /-- Go on with the body where a piece of code holds. -/
  | choose (condition : String) (line : Nat) (body : List Instruction)
  /-- Go on with the body where the choice right before does not hold. -/
  | otherwise (line : Nat) (body : List Instruction)
  | pull (target : Target)
  | fail (error : CompileError)
  deriving Repr, Inhabited

mutual

def Instruction.targets : Instruction → List Target
  | .write _ | .print _ _ | .fail _ => []
  | .choose _ _ body | .otherwise _ body => targetsOf body
  | .pull target => [target]

def targetsOf : List Instruction → List Target
  | [] => []
  | instruction :: rest => instruction.targets ++ targetsOf rest

end

end Stencil
