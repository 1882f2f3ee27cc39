import Stencil.Template.Reader
import Stencil.Text.Slice

/-! Reading a template by offsets.

What a line holds is found as offsets into the text of the line, counted in bytes from where the reading is, and the
text is cut there. A cut that is not there ends the reading without any answer, and so would an offset in front of the
beginning. A loop over the parts of a line goes on with what one of them leaves, and lines are taken one after the
other, with no look at where the lines nested under one end.
-/

set_option autoImplicit false

namespace Stencil.Template.ByOffset

open Text (Cut cut? slice? backFrom?)
open Program (byteLength)

/-- A reading that comes to a result or to an error, unless a cut is not there. -/
abbrev Sliced (α : Type) := ExceptT ParseError Option α

def settled {α : Type} (result : Except ParseError α) : Sliced α := ExceptT.mk (some result)

def cutting {α : Type} (x : Option α) : Sliced α := ExceptT.lift x

structure Found (α : Type) (bound : Nat) where
  value : α
  rest : List Char
  short : rest.length < bound

/-! ### Offsets -/

section
variable {σ : Type}

/-- Goes through a text up to the first character where `stop` holds: the offset of that one, and the state there. -/
def seek (stop : σ → Char → Bool) (step : σ → Char → σ) (s : σ) (offset : Nat) : List Char → σ × Option (Nat × Char)
  | [] => (s, none)
  | c :: rest => if stop s c then (s, some (offset, c)) else seek stop step (step s c) (offset + c.utf8Size) rest

end

def nameEnd (isPart : Char → Bool) (text : List Char) : Nat :=
  match (seek (fun _ c => !isPart c) (fun _ _ => ()) () 0 text).2 with
  | some (offset, _) => offset
  | none => byteLength text

def openingAt (offset : Nat) : List Char → Option Nat
  | [] => none
  | '#' :: '{' :: _ => some offset
  | c :: rest => openingAt (offset + c.utf8Size) rest

def interpolationEnd (body : List Char) : Option Nat :=
  (seek (fun n c => n.isBare && c = '}') (Nesting.step (· = '{') (· = '}')) Nesting.start 0 body).2.map Prod.fst

def quoteEnd (line : Nat) (quote : Char) (text : List Char) : Except ParseError Nat :=
  let found :=
    match text with
    | [] => none
    | c :: rest =>
      (seek (fun q c => q = Quoting.inside quote && c = quote) Quoting.step (.inside quote) c.utf8Size rest).2
  match found with
  | some (offset, _) => .ok offset
  | none => .error (.tag line (.unterminatedString (String.ofList text)))

def valueEnd (style : AttributeStyle) (text : List Char) : Nat :=
  let ends (c : Char) : Bool :=
    match style with
    | .markup => Text.isBlank c
    | .table => c = ','
  let found := seek (fun n c => n.isBare && ends c)
    (Nesting.step (fun c => c = '(' || c = '[' || c = '{') (fun c => c = ')' || c = ']' || c = '}'))
    Nesting.start 0 text
  match found.2 with
  | some (offset, _) => offset
  | none => byteLength text

def collectionEnd (line : Nat) (text : List Char) : Except ParseError Nat :=
  match seek Brackets.stops Brackets.step ⟨[], .outside⟩ 0 text with
  | (state, some (offset, c)) =>
    if state.expected.head? = some c then .ok offset else .error (.tag line (.mismatchedBracket c))
  | (state, none) =>
    .error (.tag line (if state.quoting = .outside then .unclosedCollection else .unterminatedInCollection))

/-! ### Text -/

def ofLiteral (content : List Char) : List Segment := if content.isEmpty then [] else [.literal content]

/-- What comes up to the next interpolation of a text and with it, behind literal text read before; and the rest, if
an interpolation opens, with the literal text in front of it. -/
def readSegments (line : Nat) (literal text : List Char) :
    Sliced (List Segment × Option (Found (List Char) text.length)) :=
  match openingAt 0 text with
  | none => return (ofLiteral (literal ++ text), none)
  | some start => do
    let before ← cutting (cut? start text)
    if before.front.getLast? = some '\\' then
      let last ← cutting (backFrom? start 1)
      let before ← cutting (cut? last text)
      let behind ← cutting (cut? (start + 2) text)
      return ([], some ⟨literal ++ before.front ++ ['#', '{'], behind.back,
        behind.length_back_lt (behind.begun (Nat.succ_ne_zero _))⟩)
    else
      let body ← cutting (cut? (start + 2) text)
      match interpolationEnd body.back with
      | none => settled (.error (.variable line (.malformed (String.ofList before.back))))
      | some stop =>
        let inner ← cutting (cut? stop body.back)
        let path := Text.trim inner.front
        if path.isEmpty then
          let written ← cutting (slice? start (start + stop + 3) text)
          settled (.error (.variable line (.malformed (String.ofList written))))
        else
          let behind ← cutting (cut? (stop + 1) body.back)
          return (ofLiteral (literal ++ before.front) ++ [.variable path], some ⟨[], behind.back,
            Nat.lt_of_le_of_lt behind.length_back_le (body.length_back_lt (body.begun (Nat.succ_ne_zero _)))⟩)

def splitSegments (line : Nat) (literal text : List Char) : Sliced (List Segment) := do
  let (found, next) ← readSegments line literal text
  match next with
  | none => return found
  | some next => return found ++ (← splitSegments line next.value next.rest)
termination_by text.length
decreasing_by exact next.short

def textNode (line : Nat) (text : List Char) : Sliced Node := do
  let segments ← splitSegments line [] text
  return .textLine (segments.map (Segment.node line)) line

def quotedValue (line : Nat) (raw : List Char) : Sliced Node := do
  match ← splitSegments line [] raw with
  | [.variable path] => return .eval (String.ofList path) line
  | segments =>
    if segments.all Segment.isLiteral then return .text (String.ofList (unescape raw)) line
    else return .eval (String.ofList (concatenation segments)) line

/-! ### Attributes -/

/-- A name and what is left behind it, which is shorter than the text unless the name is empty. -/
structure Named (text : List Char) where
  name : List Char
  rest : List Char
  short : name ≠ [] → rest.length < text.length

def takeName (isPart : Char → Bool) (text : List Char) : Sliced (Named text) := do
  let cut ← cutting (cut? (nameEnd isPart text) text)
  return ⟨cut.front, cut.back, cut.length_back_lt⟩

def symbolName (line : Nat) (symbol : List Char) : Sliced (Named symbol) :=
  match symbol.head?.filter isQuote with
  | some quote => do
    let stop ← settled (quoteEnd line quote symbol)
    let name ← cutting (slice? 1 stop symbol)
    let behind ← cutting (cut? (stop + 1) symbol)
    return ⟨name, behind.back, fun _ => behind.length_back_lt (behind.begun (Nat.succ_ne_zero _))⟩
  | none => takeName (isAttributeChar .table) symbol

def attributeName (style : AttributeStyle) (line : Nat) (text : List Char) : Sliced (Named text) :=
  match style with
  | .markup => takeName (isAttributeChar .markup) text
  | .table => do
    let named ← symbolName line (dropColon text)
    return ⟨named.name, named.rest, fun some => Nat.lt_of_lt_of_le (named.short some) (length_dropColon_le text)⟩

def attributeValue (style : AttributeStyle) (line : Nat) (name text : List Char) :
    Sliced (Found Node (text.length + 1)) :=
  match text with
  | [] => settled (.error (.tag line (.attributeWithoutValue (String.ofList name))))
  | c :: rest =>
    if isQuote c then do
      let stop ← settled (quoteEnd line c (c :: rest))
      let inner ← cutting (slice? 1 stop (c :: rest))
      let node ← quotedValue line inner
      let behind ← cutting (cut? (stop + 1) (c :: rest))
      return ⟨node, behind.back, Nat.lt_succ_of_le behind.length_back_le⟩
    else do
      let cut ← cutting (cut? (valueEnd style (c :: rest)) (c :: rest))
      let node ← settled (evalNode line cut.front)
      return ⟨node, cut.back, Nat.lt_succ_of_le cut.length_back_le⟩

def readAttribute (style : AttributeStyle) (line : Nat) (text : List Char) : Sliced (Found Node text.length) := do
  let named ← attributeName style line text
  if empty : named.name = [] then settled (.error (.tag line (.malformedAttribute (String.ofList text))))
  else
    let name := String.ofList named.name
    let after := Text.trimStart named.rest
    have short : after.length < text.length := Nat.lt_of_le_of_lt (Text.length_trimStart_le _) (named.short empty)
    match separated : afterSeparator? style after with
    | some value =>
      have le : (Text.trimStart value).length ≤ after.length :=
        Nat.le_trans (Text.length_trimStart_le value) (afterSeparator?_length separated)
      let found ← attributeValue style line named.name (Text.trimStart value)
      return ⟨Node.withValue name found.value, found.rest,
        Nat.lt_of_le_of_lt (Nat.le_trans (Nat.le_of_lt_succ found.short) le) short⟩
    | none =>
      match style with
      | .table => settled (.error (.tag line (.attributeWithoutValue name)))
      | .markup => return ⟨Node.withValue name (.text name line), after, short⟩

def readAttributes (style : AttributeStyle) (line : Nat) (text : List Char) : Sliced (List Node) :=
  let rest := text.dropWhile isAttributeSeparator
  if rest.isEmpty then return []
  else do
    let found ← readAttribute style line rest
    return found.value :: (← readAttributes style line found.rest)
termination_by text.length
decreasing_by exact Nat.lt_of_lt_of_le found.short (List.dropWhile_suffix _).length_le

/-! ### Tags -/

def readShorthand (line : Nat) (text : List Char) : Sliced (Option (Found Node text.length)) :=
  match text.head?.bind Shorthand.ofChar? with
  | none => return none
  | some kind => do
    let behind ← cutting (cut? 1 text)
    let named ← takeName isNameChar behind.back
    if empty : named.name = [] then settled (.error (.tag line (.emptyShorthand kind)))
    else return some ⟨kind.node named.name line, named.rest,
      Nat.lt_of_lt_of_le (named.short empty) behind.length_back_le⟩

def readShorthands (line : Nat) (text : List Char) : Sliced (List Node × List Char) := do
  match ← readShorthand line text with
  | none => return ([], text)
  | some found =>
    let (nodes, after) ← readShorthands line found.rest
    return (found.value :: nodes, after)
termination_by text.length
decreasing_by exact found.short

def readCollection (line : Nat) (text : List Char) : Sliced (Option (Found Node text.length)) :=
  match text.head?.bind AttributeStyle.ofChar? with
  | none => return none
  | some (style, _) => do
    let stop ← settled (collectionEnd line text)
    let inner ← cutting (slice? 1 stop text)
    let attributes ← readAttributes style line inner
    let behind ← cutting (cut? (stop + 1) text)
    return some ⟨.collection attributes line, behind.back,
      behind.length_back_lt (behind.begun (Nat.succ_ne_zero _))⟩

def readCollections (line : Nat) (text : List Char) : Sliced (List Node × List Char) := do
  match ← readCollection line text with
  | none => return ([], text)
  | some found =>
    let (nodes, after) ← readCollections line found.rest
    return (found.value :: nodes, after)
termination_by text.length
decreasing_by exact found.short

def readHead (line : Nat) (text : List Char) : Sliced (TagHead × List Char) :=
  match text with
  | '%' :: rest => do
    let named ← takeName (fun c => isNameChar c || c = ':') rest
    if named.name.isEmpty then settled (.error (.tag line .nameExpected))
    else
      let head ← settled (headOfName line named.name)
      return (head, named.rest)
  | _ => return ({ space := none, name := "div", selfClosing := false, line }, text)

def readInline (head : TagHead) (rest : List Char) : Sliced (TagHead × List Node) :=
  let inline : Sliced (TagHead × List Node) :=
    match Text.trim rest with
    | [] => return (head, [])
    | '=' :: source => return (head, [← settled (evalNode head.line source)])
    | text => return (head, [← textNode head.line text])
  match rest with
  | [] => return (head, [])
  | '/' :: after =>
    if (Text.trim after).isEmpty then return ({ head with selfClosing := true }, [])
    else settled (.error (.tag head.line .selfClosingContent))
  | c :: _ =>
    if Text.isBlank c || c = '=' then inline
    else settled (.error (.tag head.line (.unexpectedAfter (String.ofList rest) head.qualifiedName)))

def readTag (line : Nat) (text : List Char) : Sliced TagLine := do
  let (head, rest) ← readHead line text
  let (shorthands, rest) ← readShorthands line rest
  let (collections, rest) ← readCollections line rest
  let (head, inline) ← readInline head rest
  return { head, attributes := shorthands ++ collections, inline }

/-! ### Lines -/

def lineOfText? (number : Nat) (raw : List Char) : Sliced (Option Line) :=
  let text := Text.trimEnd raw
  let content := Text.trimStart text
  if content.isEmpty then return none
  else do
    let indent ← cutting (backFrom? (byteLength text) (byteLength content))
    let indentation ← cutting (cut? indent text)
    if indentation.front.contains ' ' && indentation.front.contains '\t' then
      settled (.error (.tag number .mixedIndentation))
    else return some { number, indent := indentation.front.length, content }

def linesFrom (number : Nat) : List (List Char) → Sliced (List Line)
  | [] => return []
  | raw :: rest => do
    let line ← lineOfText? number raw
    let lines ← linesFrom (number + 1) rest
    return line.toList ++ lines

structure Taken (α : Type) (lines : List Line) where
  value : α
  rest : List Line
  le : rest.length ≤ lines.length

def leaf (kind : LeafLine) (line : Line) (rest : List Line) (node : Sliced Node) : Sliced (Taken (Option Node) rest) :=
  let bare : Sliced (Taken (Option Node) rest) := return ⟨some (← node), rest, Nat.le_refl _⟩
  match rest.head? with
  | some next =>
    if line.indent < next.indent then settled (.error (.tag next.number (.nestedContent kind line.number))) else bare
  | none => bare

mutual

def readLine (line : Line) (rest : List Line) : Sliced (Taken (Option Node) rest) :=
  match lineKind line.content with
  | .docType => leaf .docType line rest (return .docType line.number)
  | .comment => return ⟨none, rest.dropWhile (line.indent < ·.indent), (List.dropWhile_suffix _).length_le⟩
  | .code text => do
    let nested ← readBlock (some line.indent) none rest
    return ⟨some (.code (String.ofList (Text.trim text)) nested.value line.number), nested.rest, nested.le⟩
  | .evaluated source => leaf .evaluated line rest (settled (evalNode line.number source))
  | .directive _ => leaf .directive line rest do
    let behind ← cutting (cut? 1 line.content)
    return .directive (String.ofList (Text.trim behind.back)) line.number
  | .text text => leaf .text line rest (textNode line.number text)
  | .tag => do
    let tag ← readTag line.number line.content
    let nested ← readBlock (some line.indent) none rest
    if tag.head.selfClosing && !nested.value.isEmpty then settled (.error (.tag line.number .selfClosingNested))
    else return ⟨some (.tag tag.head tag.attributes (tag.inline ++ nested.value)), nested.rest, nested.le⟩
termination_by (rest.length, 1)

/-- The nodes of the lines that are deeper than `parent`. `indent` is the indentation of the first of them, once that
is known. -/
def readBlock (parent indent : Option Nat) (lines : List Line) : Sliced (Taken (List Node) lines) :=
  match lines with
  | [] => return ⟨[], [], Nat.le_refl _⟩
  | line :: rest =>
    if parent.any (line.indent ≤ ·) then return ⟨[], line :: rest, Nat.le_refl _⟩
    else
      match indent.filter (line.indent ≠ ·) with
      | some expected => settled (.error (.tag line.number (.inconsistentIndentation expected line.indent)))
      | none => do
        let first ← readLine line rest
        let others ← readBlock parent (some (indent.getD line.indent)) first.rest
        return ⟨first.value.toList ++ others.value, others.rest,
          Nat.le_trans others.le (Nat.le_trans first.le (Nat.le_succ _))⟩
termination_by (lines.length, 0)
decreasing_by
  · exact Prod.Lex.left _ _ (Nat.lt_succ_self _)
  · exact Prod.Lex.left _ _ (Nat.lt_succ_of_le first.le)

end

def documentOfText (source : String) : Sliced Document := do
  let lines ← linesFrom 1 (source.toList.splitOn '\n')
  let block ← readBlock none none lines
  return { children := block.value }

end Stencil.Template.ByOffset
