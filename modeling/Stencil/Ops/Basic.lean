/-! The operations that a template turns into.

A template becomes a sequence of three kinds of op: fixed text, the text of a unit, and a choice between two
sequences by the value of a unit. Units are referred to by their handles.
-/

set_option autoImplicit false

namespace Stencil

inductive Op where
  | text (content : String)
  | expression (unit : Nat)
  | conditional (condition : Nat) (body : List Op) (otherwise : Option (List Op))
  deriving Repr, Inhabited

def Op.isOpenConditional : Op → Bool
  | .conditional _ _ none => true
  | _ => false

end Stencil
