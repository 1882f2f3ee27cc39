import Stencil.Template.Error
import Stencil.Template.Node
import Stencil.Template.Scan

/-! Text with interpolated expressions.

A text is split into literal parts and the expressions between `#{` and the brace that closes it. A backslash
in front of `#{` makes it literal. Literal parts are never empty and never stand side by side.
-/

set_option autoImplicit false

namespace Stencil.Template

inductive Segment where
  | literal (content : List Char)
  | variable (path : List Char)
  deriving DecidableEq, Repr

def consChar (c : Char) : List Segment → List Segment
  | .literal content :: rest => .literal (c :: content) :: rest
  | segments => .literal [c] :: segments

def splitSegments (line : Nat) : List Char → Except ParseError (List Segment)
  | [] => .ok []
  | '\\' :: '#' :: '{' :: rest =>
    (splitSegments line rest).map fun segments => consChar '#' (consChar '{' segments)
  | '#' :: '{' :: body =>
    match _h : closeBracket '{' '}' body with
    | none => .error (.variable line (.malformed (String.ofList ('#' :: '{' :: body))))
    | some (inner, rest) =>
      let path := Text.trim inner
      if path.isEmpty then
        .error (.variable line (.malformed (String.ofList ('#' :: '{' :: inner ++ ['}']))))
      else (splitSegments line rest).map (.variable path :: ·)
  | c :: rest => (splitSegments line rest).map (consChar c)
termination_by text => text.length
decreasing_by
  · simp +arith
  · have := closeBracket_length _h
    simp
    omega
  · simp

def evalNode (line : Nat) (source : List Char) : Except ParseError Node :=
  let source := Text.trim source
  if source.isEmpty then .error (.variable line .emptyExpression)
  else .ok (.eval (String.ofList source) line)

def Segment.node (line : Nat) : Segment → Node
  | .literal content => .text (String.ofList content) line
  | .variable path => .variable (String.ofList path) line

def textNode (line : Nat) (text : List Char) : Except ParseError Node :=
  (splitSegments line text).map fun segments => .textLine (segments.map (Segment.node line)) line

def literalChar (c : Char) : List Char :=
  if c = '"' then ['\\', '"']
  else if c = '\\' then ['\\', '\\']
  else if c = '\n' then ['\\', 'n']
  else if c = '\t' then ['\\', 't']
  else [c]

def stringLiteral (content : List Char) : List Char := '"' :: content.flatMap literalChar ++ ['"']

/-- A text without its escaping backslashes; a backslash at the end goes too. -/
def unescape : List Char → List Char
  | '\\' :: c :: rest => c :: unescape rest
  | ['\\'] => []
  | c :: rest => c :: unescape rest
  | [] => []

def Segment.operand : Segment → List Char
  | .literal content => stringLiteral content
  | .variable path => '(' :: path ++ [')']

def Segment.isLiteral : Segment → Bool
  | .literal _ => true
  | .variable _ => false

/-- The expression that concatenates segments. The empty string in front makes every `+` join texts. -/
def concatenation (segments : List Segment) : List Char :=
  "\"\" + ".toList ++ List.intercalate " + ".toList (segments.map Segment.operand)

def quotedValue (line : Nat) (raw : List Char) : Except ParseError Node := do
  match ← splitSegments line raw with
  | [.variable path] => return .eval (String.ofList path) line
  | segments =>
    if segments.all Segment.isLiteral then return .text (String.ofList (unescape raw)) line
    else return .eval (String.ofList (concatenation segments)) line

end Stencil.Template
