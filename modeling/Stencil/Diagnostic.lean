/-! Problems that a backend reports about a program text. -/

set_option autoImplicit false

namespace Stencil

/-- A stretch of a text in bytes of its UTF-8 form, from `start` up to but not including `stop`. -/
structure Span where
  start : Nat
  stop : Nat
  deriving DecidableEq, Repr

structure Diagnostic where
  unit : Option String
  /-- The line of the program text. -/
  line : Nat
  span : Option Span
  /-- The line of the template that the unit comes from. -/
  templateLine : Option Nat
  message : String
  deriving DecidableEq, Repr

namespace Diagnostic

def plain (line : Nat) (message : String) : Diagnostic :=
  { unit := none, line, span := none, templateLine := none, message }

/-- Where the problem begins; a problem without a place counts as one at the beginning. -/
def start (d : Diagnostic) : Nat :=
  match d.span with
  | some span => span.start
  | none => 0

/-- The last byte of the problem, or its beginning where it has no length. -/
def last (d : Diagnostic) : Nat :=
  match d.span with
  | some span => if span.start < span.stop then span.stop - 1 else span.start
  | none => 0

def display (d : Diagnostic) : String :=
  let place := match d.unit, d.templateLine with
    | some unit, some line => unit ++ " (template line " ++ toString line ++ "): "
    | some unit, none => unit ++ ": "
    | none, _ => "line " ++ toString d.line ++ ": "
  place ++ d.message

def label (d : Diagnostic) : String :=
  match d.unit, d.templateLine with
  | some unit, some line => "in " ++ unit ++ " (template line " ++ toString line ++ ")"
  | some unit, none => "in " ++ unit
  | none, _ => d.message

end Diagnostic

end Stencil
