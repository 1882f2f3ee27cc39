import Stencil.Json.Record
import Stencil.Template.Node

/-! The JSON form of a template tree.

A node is an object whose member `type` names the kind of node and whose other members are the node's parts.
A reader also takes a node as an array that holds the kind and then the parts in their order, and passes over
members it does not know. For a node inside another node it takes the number of the kind in place of its name.
-/

set_option autoImplicit false

namespace Stencil.Template

open Stencil.Json (Value)

inductive NodeKind where
  | tag
  | idShorthand
  | classShorthand
  | collection
  | htmlAttribute
  | textLine
  | text
  | variable
  | eval
  | code
  | docType
  | directive
  deriving DecidableEq, Repr

namespace NodeKind

def name : NodeKind → String
  | .tag => "Tag"
  | .idShorthand => "TagId"
  | .classShorthand => "TagClass"
  | .collection => "AttributeCollection"
  | .htmlAttribute => "HtmlAttribute"
  | .textLine => "TextContainer"
  | .text => "TextLiteral"
  | .variable => "TextVariable"
  | .eval => "Eval"
  | .code => "Code"
  | .docType => "DocType"
  | .directive => "Partial"

def all : List NodeKind :=
  [.tag, .idShorthand, .classShorthand, .collection, .htmlAttribute, .textLine, .text, .variable, .eval, .code,
    .docType, .directive]

def ofName? (name : String) : Option NodeKind := all.find? fun kind => kind.name = name

theorem ofName?_name (kind : NodeKind) : ofName? kind.name = some kind := by
  cases kind <;> decide +kernel

def ofNumber? (number : Nat) : Option NodeKind := all[number]?

/-- The kind that a value stands for: by its name, or by its number inside another node. -/
def ofValue? (inner : Bool) : Value → Option NodeKind
  | .string name => ofName? name
  | value => if inner then value.count?.bind ofNumber? else none

def parts : NodeKind → List String
  | .tag => ["namespace", "name", "attributes", "children", "self_closing", "line"]
  | .idShorthand | .classShorthand | .collection | .textLine => ["children", "line"]
  | .htmlAttribute => ["name", "children", "line"]
  | .text => ["content", "line"]
  | .variable => ["path", "line"]
  | .eval => ["expr", "line"]
  | .code => ["content", "children", "line"]
  | .docType => ["line"]
  | .directive => ["directive", "line"]

end NodeKind

def lineValue (line : Nat) : Value := .ofInt line

def kindValue (kind : NodeKind) : Value := .string kind.name

def spaceValue : Option String → Value
  | some space => .string space
  | none => .null

mutual

def Node.toValue : Node → Value
  | .tag head attributes children =>
    .object [("attributes", .array (nodeValues attributes)), ("children", .array (nodeValues children)),
      ("line", lineValue head.line), ("name", .string head.name), ("namespace", spaceValue head.space),
      ("self_closing", .bool head.selfClosing), ("type", kindValue .tag)]
  | .idShorthand children line => wrapped .idShorthand children line
  | .classShorthand children line => wrapped .classShorthand children line
  | .collection children line => wrapped .collection children line
  | .htmlAttribute name children line =>
    .object [("children", .array (nodeValues children)), ("line", lineValue line), ("name", .string name),
      ("type", kindValue .htmlAttribute)]
  | .textLine children line => wrapped .textLine children line
  | .text content line =>
    .object [("content", .string content), ("line", lineValue line), ("type", kindValue .text)]
  | .variable source line =>
    .object [("line", lineValue line), ("path", .string source), ("type", kindValue .variable)]
  | .eval source line =>
    .object [("expr", .string source), ("line", lineValue line), ("type", kindValue .eval)]
  | .code content children line =>
    .object [("children", .array (nodeValues children)), ("content", .string content),
      ("line", lineValue line), ("type", kindValue .code)]
  | .docType line => .object [("line", lineValue line), ("type", kindValue .docType)]
  | .directive content line =>
    .object [("directive", .string content), ("line", lineValue line), ("type", kindValue .directive)]

def wrapped (kind : NodeKind) (children : List Node) (line : Nat) : Value :=
  .object [("children", .array (nodeValues children)), ("line", lineValue line), ("type", kindValue kind)]

def nodeValues : List Node → List Value
  | [] => []
  | node :: rest => node.toValue :: nodeValues rest

end

def Document.toValue (document : Document) : Value :=
  .object [("children", .array (nodeValues document.children))]

/-- A part of a node: its value, and the nodes it holds when it is an array of nodes. -/
structure Part where
  value : Value
  nodes : Option (List Node)

/-- A namespace is a text, or `null`, or missing. -/
def Part.space? : Option Part → Option (Option String)
  | none => some none
  | some part =>
    match part.value with
    | .null => some none
    | .string space => some (some space)
    | _ => none

def NodeKind.build? : NodeKind → List (Option Part) → Option Node
  | .tag, [space, some name, some attributes, some children, some selfClosing, some line] => do
    let head : TagHead :=
      { space := ← Part.space? space, name := ← name.value.string?
        selfClosing := ← selfClosing.value.bool?, line := ← line.value.count? }
    return .tag head (← attributes.nodes) (← children.nodes)
  | .idShorthand, [some children, some line] =>
    return .idShorthand (← children.nodes) (← line.value.count?)
  | .classShorthand, [some children, some line] =>
    return .classShorthand (← children.nodes) (← line.value.count?)
  | .collection, [some children, some line] =>
    return .collection (← children.nodes) (← line.value.count?)
  | .textLine, [some children, some line] =>
    return .textLine (← children.nodes) (← line.value.count?)
  | .htmlAttribute, [some name, some children, some line] =>
    return .htmlAttribute (← name.value.string?) (← children.nodes) (← line.value.count?)
  | .text, [some content, some line] => return .text (← content.value.string?) (← line.value.count?)
  | .variable, [some source, some line] => return .variable (← source.value.string?) (← line.value.count?)
  | .eval, [some source, some line] => return .eval (← source.value.string?) (← line.value.count?)
  | .code, [some content, some children, some line] =>
    return .code (← content.value.string?) (← children.nodes) (← line.value.count?)
  | .docType, [some line] => return .docType (← line.value.count?)
  | .directive, [some content, some line] =>
    return .directive (← content.value.string?) (← line.value.count?)
  | _, _ => none

mutual

/-- The node that a value is the JSON form of, `inner` for a node inside another node. -/
def Node.ofValue? (inner : Bool) : Value → Option Node
  | .object members => do
    let parts := memberParts members
    let kind ← NodeKind.ofValue? inner (← parts.lookup "type").value
    kind.build? (Json.fieldsByName kind.parts parts)
  | .array (kind :: items) => do
    let kind ← NodeKind.ofValue? inner kind
    kind.build? (← Json.fieldsByPosition? kind.parts (itemParts items))
  | _ => none

def nodesOf? (inner : Bool) : Value → Option (List Node)
  | .array items => itemNodes? inner items
  | _ => none

def itemNodes? (inner : Bool) : List Value → Option (List Node)
  | [] => some []
  | item :: items => do
    let node ← Node.ofValue? inner item
    let nodes ← itemNodes? inner items
    return node :: nodes

def memberParts : List (String × Value) → List (String × Part)
  | [] => []
  | (key, value) :: rest => (key, ⟨value, nodesOf? true value⟩) :: memberParts rest

def itemParts : List Value → List Part
  | [] => []
  | value :: rest => ⟨value, nodesOf? true value⟩ :: itemParts rest

end

def Document.ofValue? : Value → Option Document
  | .object members => do
    let children ← (← members.lookup "children") |> nodesOf? false
    return { children }
  | .array [children] => do
    let children ← nodesOf? false children
    return { children }
  | _ => none

end Stencil.Template
