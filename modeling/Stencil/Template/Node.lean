/-! The tree of a template.

Every node carries the number of the line it was written on, counted from one. A tag keeps its attributes
apart from its children; the shorthands and the bracketed collections wrap the attributes they stand for.
-/

set_option autoImplicit false

namespace Stencil.Template

structure TagHead where
  space : Option String
  name : String
  selfClosing : Bool
  line : Nat
  deriving DecidableEq, Repr

inductive Node where
  | tag (head : TagHead) (attributes children : List Node)
  /-- `#id`, around the attribute it stands for. -/
  | idShorthand (children : List Node) (line : Nat)
  /-- `.class`, around the attribute it stands for. -/
  | classShorthand (children : List Node) (line : Nat)
  /-- The attributes between a pair of brackets. -/
  | collection (children : List Node) (line : Nat)
  | htmlAttribute (name : String) (children : List Node) (line : Nat)
  /-- A line of text, in its literal and interpolated parts. -/
  | textLine (children : List Node) (line : Nat)
  | text (content : String) (line : Nat)
  /-- `#{…}` inside a text. -/
  | variable (source : String) (line : Nat)
  /-- `= …`, or an attribute value that is an expression. -/
  | eval (source : String) (line : Nat)
  /-- `- …` with the block below it. -/
  | code (content : String) (children : List Node) (line : Nat)
  | docType (line : Nat)
  /-- `_ …`, which pulls in another tree. -/
  | directive (content : String) (line : Nat)
  deriving Repr, Inhabited

structure Document where
  children : List Node
  deriving Repr, Inhabited

namespace Node

def line : Node → Nat
  | .tag head _ _ => head.line
  | .idShorthand _ line | .classShorthand _ line | .collection _ line | .htmlAttribute _ _ line
  | .textLine _ line | .text _ line | .variable _ line | .eval _ line | .code _ _ line
  | .docType line | .directive _ line => line

def withValue (name : String) (value : Node) : Node := .htmlAttribute name [value] value.line

end Node

def TagHead.qualifiedName (head : TagHead) : String :=
  match head.space with
  | some space => space ++ ":" ++ head.name
  | none => head.name

end Stencil.Template
