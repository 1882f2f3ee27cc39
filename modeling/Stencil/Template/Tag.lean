import Stencil.Template.Attribute

/-! The line of a tag.

A tag has a name behind `%`, or is a `div`; then come shorthands for classes and ids, then bracketed
collections of attributes, then a slash for a tag without content, or an expression or text on the same
line.
-/

set_option autoImplicit false

namespace Stencil.Template

/-- The brackets open around a place, as the closing ones still expected, and the string around it. -/
structure Brackets where
  expected : List Char
  quoting : Quoting

def closingOf? (c : Char) : Option Char :=
  if c = '(' then some ')' else if c = '{' then some '}' else if c = '[' then some ']' else none

def isClosing (c : Char) : Bool := c = ')' || c = '}' || c = ']'

def Brackets.step (b : Brackets) (c : Char) : Brackets :=
  { expected :=
      if b.quoting = .outside then
        match closingOf? c with
        | some closing => closing :: b.expected
        | none => if isClosing c then b.expected.tail else b.expected
      else b.expected
    quoting := b.quoting.step c }

/-- A closing bracket ends the scan when it is not the expected one, or when it is the last expected one. -/
def Brackets.stops (b : Brackets) (c : Char) : Bool :=
  b.quoting = .outside && isClosing c && (b.expected.head? ≠ some c || b.expected.length ≤ 1)

def closeCollection (line : Nat) (closing : Char) (text : List Char) :
    Except ParseError (List Char × List Char) :=
  match cutAt Brackets.stops Brackets.step ⟨[closing], .outside⟩ text with
  | (inner, state, c :: rest) =>
    if state.expected.head? = some c then .ok (inner, rest)
    else .error (.tag line (.mismatchedBracket c))
  | (_, state, []) =>
    .error (.tag line (if state.quoting = .outside then .unclosedCollection else .unterminatedInCollection))

theorem append_of_closeCollection {line : Nat} {closing : Char} {text inner rest : List Char}
    (closed : closeCollection line closing text = .ok (inner, rest)) :
    ∃ c, isClosing c ∧ inner ++ c :: rest = text := by
  unfold closeCollection at closed
  have whole := cutAt_append Brackets.stops Brackets.step ⟨[closing], .outside⟩ text
  split at closed
  · next front state c after same =>
    have stops := stops_of_cutAt same
    simp only [Brackets.stops, Bool.and_eq_true] at stops
    split at closed
    · cases closed
      rw [same] at whole
      exact ⟨c, stops.1.2, whole⟩
    · cases closed
  · cases closed

theorem closeCollection_length {line : Nat} {closing : Char} {text inner rest : List Char}
    (h : closeCollection line closing text = .ok (inner, rest)) :
    inner.length + rest.length + 1 = text.length := by
  obtain ⟨c, _, whole⟩ := append_of_closeCollection h
  rw [← whole, List.length_append, List.length_cons, Nat.add_assoc]

def Shorthand.ofChar? (c : Char) : Option Shorthand :=
  if c = '.' then some .dot else if c = '#' then some .hash else none

def Shorthand.node (kind : Shorthand) (name : List Char) (line : Nat) : Node :=
  let value := Node.withValue kind.name (.text (String.ofList name) line)
  match kind with
  | .dot => .classShorthand [value] line
  | .hash => .idShorthand [value] line

def readShorthands (line : Nat) (text : List Char) : Except ParseError (List Node × List Char) :=
  match text with
  | [] => .ok ([], [])
  | c :: rest =>
    match Shorthand.ofChar? c with
    | none => .ok ([], c :: rest)
    | some kind =>
      let name := rest.takeWhile isNameChar
      if name.isEmpty then .error (.tag line (.emptyShorthand kind))
      else (readShorthands line (rest.dropWhile isNameChar)).map fun (nodes, after) =>
        (kind.node name line :: nodes, after)
termination_by text.length
decreasing_by exact Nat.lt_succ_of_le (List.dropWhile_suffix _).length_le

def AttributeStyle.ofChar? (c : Char) : Option (AttributeStyle × Char) :=
  if c = '(' then some (.markup, ')') else if c = '{' then some (.table, '}') else none

def readCollections (line : Nat) (text : List Char) : Except ParseError (List Node × List Char) :=
  match text with
  | [] => .ok ([], [])
  | c :: rest =>
    match AttributeStyle.ofChar? c with
    | none => .ok ([], c :: rest)
    | some (style, closing) =>
      match _h : closeCollection line closing rest with
      | .error e => .error e
      | .ok (inner, after) =>
        match readAttributes style line inner with
        | .error e => .error e
        | .ok attributes => (readCollections line after).map fun (nodes, after) =>
          (.collection attributes line :: nodes, after)
termination_by text.length
decreasing_by
  have total := closeCollection_length _h
  simp only [List.length_cons]
  omega

def startsTag : List Char → Bool
  | '%' :: _ => true
  | '.' :: c :: _ => isNameChar c
  | '#' :: c :: _ => isNameChar c
  | _ => false

/-- The head of a tag with the given name. A colon with something on either side divides off a namespace. -/
def headOfName (line : Nat) (name : List Char) : Except ParseError TagHead :=
  let space := name.takeWhile (· ≠ ':')
  match name.dropWhile (· ≠ ':') with
  | [] => .ok { space := none, name := String.ofList name, selfClosing := false, line }
  | _ :: localName =>
    if space.isEmpty || localName.isEmpty then
      .error (.tag line (.malformedNamespace (String.ofList name)))
    else .ok { space := some (String.ofList space), name := String.ofList localName, selfClosing := false, line }

def readHead (line : Nat) (text : List Char) : Except ParseError (TagHead × List Char) :=
  match text with
  | '%' :: rest =>
    let isPart (c : Char) : Bool := isNameChar c || c = ':'
    let name := rest.takeWhile isPart
    if name.isEmpty then .error (.tag line .nameExpected)
    else (headOfName line name).map (·, rest.dropWhile isPart)
  | _ => .ok ({ space := none, name := "div", selfClosing := false, line }, text)

def readInline (head : TagHead) (rest : List Char) : Except ParseError (TagHead × List Node) :=
  let inline : Except ParseError (TagHead × List Node) :=
    match Text.trim rest with
    | [] => .ok (head, [])
    | '=' :: source => (evalNode head.line source).map fun node => (head, [node])
    | text => (textNode head.line text).map fun node => (head, [node])
  match rest with
  | [] => .ok (head, [])
  | '/' :: after =>
    if (Text.trim after).isEmpty then .ok ({ head with selfClosing := true }, [])
    else .error (.tag head.line .selfClosingContent)
  | c :: _ =>
    if Text.isBlank c || c = '=' then inline
    else .error (.tag head.line (.unexpectedAfter (String.ofList rest) head.qualifiedName))

structure TagLine where
  head : TagHead
  attributes : List Node
  inline : List Node

def readTag (line : Nat) (text : List Char) : Except ParseError TagLine := do
  let (head, rest) ← readHead line text
  let (shorthands, rest) ← readShorthands line rest
  let (collections, rest) ← readCollections line rest
  let (head, inline) ← readInline head rest
  return { head, attributes := shorthands ++ collections, inline }

end Stencil.Template
