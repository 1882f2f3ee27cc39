import Stencil.Template.Outline
import Stencil.Template.Tag

/-! Reading a template.

The first characters of a line decide what it is. Tags and code lines take the lines nested under them as
their content; comments drop them; nothing may be nested under any other line. All lines of one block have
the same indentation.
-/

set_option autoImplicit false

namespace Stencil.Template

/-- What a line is, with the text that matters. -/
inductive LineKind where
  | docType
  | comment
  | code (text : List Char)
  | evaluated (source : List Char)
  | directive (text : List Char)
  | tag
  | text (text : List Char)
  deriving DecidableEq, Repr

def lineKind : List Char → LineKind
  | '!' :: '!' :: '!' :: _ => .docType
  | '-' :: '#' :: _ => .comment
  | '/' :: _ => .comment
  | '-' :: rest => .code rest
  | '=' :: rest => .evaluated rest
  | ['_'] => .directive []
  | '_' :: ' ' :: rest => .directive rest
  | '_' :: '\t' :: rest => .directive rest
  | '\\' :: rest => .text rest
  | content => if startsTag content then .tag else .text content

def leaf (kind : LeafLine) (line : Line) (nested : List Outline) (node : Except ParseError Node) :
    Except ParseError (Option Node) :=
  match nested with
  | item :: _ => .error (.tag item.line.number (.nestedContent kind line.number))
  | [] => node.map some

mutual

/-- The node of a line with everything nested under it; a comment has none. -/
def Outline.node? : Outline → Except ParseError (Option Node)
  | .item line nested =>
    match lineKind line.content with
    | .docType => leaf .docType line nested (.ok (.docType line.number))
    | .comment => .ok none
    | .code text => do
      let children ← block none nested
      return some (.code (String.ofList (Text.trim text)) children line.number)
    | .evaluated source => leaf .evaluated line nested (evalNode line.number source)
    | .directive text =>
      leaf .directive line nested (.ok (.directive (String.ofList (Text.trim text)) line.number))
    | .text text => leaf .text line nested (textNode line.number text)
    | .tag => do
      let tag ← readTag line.number line.content
      let children ← block none nested
      if tag.head.selfClosing && !children.isEmpty then .error (.tag line.number .selfClosingNested)
      else return some (.tag tag.head tag.attributes (tag.inline ++ children))

/-- The nodes of a block. `indent` is the indentation of its first line, once that is known. -/
def block (indent : Option Nat) : List Outline → Except ParseError (List Node)
  | [] => .ok []
  | item :: rest => do
    match indent with
    | some expected =>
      if item.line.indent ≠ expected then
        .error (.tag item.line.number (.inconsistentIndentation expected item.line.indent))
    | none => pure ()
    let node ← item.node?
    let nodes ← block (some (indent.getD item.line.indent)) rest
    return node.toList ++ nodes

end

def Document.ofText (source : String) : Except ParseError Document := do
  let lines ← linesOf source
  let children ← block none (outline lines)
  return { children }

end Stencil.Template
