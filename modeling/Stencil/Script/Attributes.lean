import Stencil.Script.Basic
import Stencil.Template.Node

/-! The attributes of a tag.

Attributes of one name are merged, wherever they stand in the tag: the name is written once, at the place of
the first, with all literal values in order and all expressions behind them.
-/

set_option autoImplicit false

namespace Stencil.Script

open Template

inductive Fragment where
  | literal (text : String)
  | expression (source : String) (line : Nat)
  deriving DecidableEq, Repr

mutual

def fragments (name : String) : Node → Except ParseError (List Fragment)
  | .textLine children _ => fragmentsOf name children
  | .text content _ => .ok [.literal content]
  | .eval source line => .ok [.expression source line]
  | .variable source line => .ok [.expression source line]
  | other => .error (.tag other.line (.unsupportedValue name))

def fragmentsOf (name : String) : List Node → Except ParseError (List Fragment)
  | [] => .ok []
  | node :: rest => do
    let first ← fragments name node
    let others ← fragmentsOf name rest
    return first ++ others

end

structure Attribute where
  name : String
  values : List Fragment
  deriving DecidableEq, Repr

mutual

def attributes : Node → Except ParseError (List Attribute)
  | .idShorthand children _ => attributesOf children
  | .classShorthand children _ => attributesOf children
  | .collection children _ => attributesOf children
  | .htmlAttribute name children _ => do
    let values ← fragmentsOf name children
    return [{ name, values }]
  | other => .error (.tag other.line .strayInAttributes)

def attributesOf : List Node → Except ParseError (List Attribute)
  | [] => .ok []
  | node :: rest => do
    let first ← attributes node
    let others ← attributesOf rest
    return first ++ others

end

def valuesOf (name : String) (found : List Attribute) : List Fragment :=
  (found.filter fun a => a.name = name).flatMap Attribute.values

/-- The attributes with those of one name merged, in the order in which the names first appear. -/
def merged (found : List Attribute) : List Attribute :=
  (found.map Attribute.name).eraseDups.map fun name => { name, values := valuesOf name found }

def Fragment.literal? : Fragment → Option String
  | .literal text => some text
  | .expression _ _ => none

def Fragment.expression? : Fragment → Option (String × Nat)
  | .literal _ => none
  | .expression source line => some (source, line)

def Attribute.literals (a : Attribute) : List String :=
  (a.values.filterMap Fragment.literal?).mergeSort fun s t => !decide (t < s)

def Attribute.expressions (a : Attribute) : List (String × Nat) := a.values.filterMap Fragment.expression?

def escapeQuote (c : Char) : List Char := if c = '"' then "&quot;".toList else [c]

def escapeQuotes (text : String) : String := String.ofList (text.toList.flatMap escapeQuote)

/-- Expressions, each with a space in front; only where nothing stands before it the first has none. -/
def printAll : (spaced : Bool) → List (String × Nat) → List Instruction
  | _, [] => []
  | true, (source, line) :: rest => .write " " :: .print source line :: printAll true rest
  | false, (source, line) :: rest => .print source line :: printAll true rest

def Attribute.script (a : Attribute) : List Instruction :=
  .write (" " ++ a.name ++ "=\"" ++ escapeQuotes (String.intercalate " " a.literals)) ::
    (printAll (!a.literals.isEmpty) a.expressions ++ [.write "\""])

def attributeScript (nodes : List Node) : List Instruction :=
  match attributesOf nodes with
  | .ok found => (merged found).flatMap Attribute.script
  | .error error => [.fail (.template error)]

end Stencil.Script
