import Stencil.Template.Segment

/-! The attributes between the brackets of a tag.

Round brackets hold attributes the way markup writes them, `name="value"` or a bare `name`, separated by
blanks. Curly brackets hold them the way a table is written, `name: value` or `:name => value`, separated by
commas. A value is a quoted text or an expression.
-/

set_option autoImplicit false

namespace Stencil.Template

inductive AttributeStyle where
  | markup
  | table
  deriving DecidableEq, Repr

def isNameChar (c : Char) : Bool := c.isAlphanum || c = '-' || c = '_'

def takeName (isPart : Char → Bool) (text : List Char) : List Char × List Char :=
  (text.takeWhile isPart, text.dropWhile isPart)

def isAttributeChar (style : AttributeStyle) (c : Char) : Bool :=
  isNameChar c || c = '@' || c = '.' || (style = .markup && c = ':')

/-- A name in a table may have a colon in front. -/
def dropColon : List Char → List Char
  | ':' :: rest => rest
  | text => text

theorem length_dropColon_le (text : List Char) : (dropColon text).length ≤ text.length := by
  unfold dropColon
  split <;> simp

/-- The name of an attribute and the text behind it. In a table the name may be quoted. -/
def attributeName (style : AttributeStyle) (line : Nat) (text : List Char) :
    Except ParseError (List Char × List Char) :=
  match style with
  | .markup => .ok (takeName (isAttributeChar .markup) text)
  | .table =>
    match dropColon text with
    | c :: rest =>
      if isQuote c then
        match closeQuote c rest with
        | some (name, after) => .ok (name, after)
        | none => .error (.tag line (.unterminatedString (String.ofList (c :: rest))))
      else .ok (takeName (isAttributeChar .table) (c :: rest))
    | [] => .ok ([], [])

def afterSeparator? (style : AttributeStyle) (text : List Char) : Option (List Char) :=
  match style, text with
  | .markup, '=' :: rest => some rest
  | .table, '=' :: '>' :: rest => some rest
  | .table, ':' :: rest => some rest
  | _, _ => none

/-- An expression at the front of a text, up to the first blank or comma outside brackets and strings. -/
def cutValue (style : AttributeStyle) (text : List Char) : List Char × List Char :=
  let ends (c : Char) : Bool :=
    match style with
    | .markup => Text.isBlank c
    | .table => c = ','
  let cut := cutAt (fun n c => n.isBare && ends c)
    (Nesting.step (fun c => c = '(' || c = '[' || c = '{') (fun c => c = ')' || c = ']' || c = '}'))
    Nesting.start text
  (cut.1, cut.2.2)

def attributeValue (style : AttributeStyle) (line : Nat) (name text : List Char) :
    Except ParseError (Node × List Char) :=
  match text with
  | [] => .error (.tag line (.attributeWithoutValue (String.ofList name)))
  | c :: rest =>
    if isQuote c then
      match closeQuote c rest with
      | some (inner, after) => (quotedValue line inner).map (·, after)
      | none => .error (.tag line (.unterminatedString (String.ofList (c :: rest))))
    else
      let (source, after) := cutValue style (c :: rest)
      (evalNode line source).map (·, after)

/-- One attribute at the front of a text that starts with neither a blank nor a comma. -/
def readAttribute (style : AttributeStyle) (line : Nat) (text : List Char) :
    Except ParseError (Node × List Char) :=
  match attributeName style line text with
  | .error e => .error e
  | .ok (name, after) =>
    if name.isEmpty then .error (.tag line (.malformedAttribute (String.ofList text)))
    else
      let after := Text.trimStart after
      match afterSeparator? style after with
      | some value =>
        match attributeValue style line name (Text.trimStart value) with
        | .error e => .error e
        | .ok (value, rest) => .ok (Node.withValue (String.ofList name) value, rest)
      | none =>
        match style with
        | .table => .error (.tag line (.attributeWithoutValue (String.ofList name)))
        | .markup =>
          .ok (Node.withValue (String.ofList name) (.text (String.ofList name) line), after)

theorem takeName_length (isPart : Char → Bool) (text : List Char) :
    (takeName isPart text).1.length + (takeName isPart text).2.length = text.length := by
  rw [← List.length_append]
  simp [takeName]

theorem attributeName_length {style : AttributeStyle} {line : Nat} {text name after : List Char}
    (h : attributeName style line text = .ok (name, after)) :
    name.length + after.length ≤ text.length := by
  cases style with
  | markup =>
    simp only [attributeName, Except.ok.injEq] at h
    have total := takeName_length (isAttributeChar .markup) text
    simp only [h] at total
    omega
  | table =>
    have bound := length_dropColon_le text
    simp only [attributeName] at h
    split at h
    · rename_i c rest same
      simp only [same, List.length_cons] at bound
      split at h
      · split at h
        · rename_i inner behind closed
          have total := closeQuote_length closed
          simp only [Except.ok.injEq, Prod.mk.injEq] at h
          obtain ⟨rfl, rfl⟩ := h
          omega
        · simp at h
      · have total := takeName_length (isAttributeChar .table) (c :: rest)
        simp only [Except.ok.injEq] at h
        simp only [h, List.length_cons] at total
        omega
    · simp only [Except.ok.injEq, Prod.mk.injEq] at h
      obtain ⟨rfl, rfl⟩ := h
      simp

theorem cutValue_length (style : AttributeStyle) (text : List Char) :
    (cutValue style text).2.length ≤ text.length := by
  simp only [cutValue]
  have total := cutAt_length (σ := Nesting) (fun n c => n.isBare && (match style with
      | .markup => Text.isBlank c
      | .table => decide (c = ',')))
    (Nesting.step (fun c => c = '(' || c = '[' || c = '{') (fun c => c = ')' || c = ']' || c = '}'))
    Nesting.start text
  omega

theorem attributeValue_length {style : AttributeStyle} {line : Nat} {name text rest : List Char}
    {value : Node} (h : attributeValue style line name text = .ok (value, rest)) :
    rest.length ≤ text.length := by
  unfold attributeValue at h
  split at h
  · simp at h
  · rename_i c tail
    split at h
    · split at h
      · rename_i inner after closed
        have total := closeQuote_length closed
        cases read : quotedValue line inner with
        | error e => simp [read, Except.map] at h
        | ok node =>
          simp only [read, Except.map, Except.ok.injEq, Prod.mk.injEq] at h
          obtain ⟨-, rfl⟩ := h
          simp only [List.length_cons]
          omega
      · simp at h
    · have bound := cutValue_length style (c :: tail)
      cases read : evalNode line (cutValue style (c :: tail)).1 with
      | error e => simp [read, Except.map] at h
      | ok node =>
        simp only [read, Except.map, Except.ok.injEq, Prod.mk.injEq] at h
        obtain ⟨-, rfl⟩ := h
        exact bound

theorem afterSeparator?_length {style : AttributeStyle} {text rest : List Char}
    (h : afterSeparator? style text = some rest) : rest.length ≤ text.length := by
  unfold afterSeparator? at h
  split at h <;> simp_all
  omega

theorem readAttribute_length {style : AttributeStyle} {line : Nat} {text rest : List Char} {node : Node}
    (h : readAttribute style line text = .ok (node, rest)) : rest.length < text.length := by
  unfold readAttribute at h
  split at h
  · simp at h
  · rename_i name after named
    have bound := attributeName_length named
    split at h
    · simp at h
    · rename_i nonempty
      have positive : 0 < name.length := by
        rw [List.length_pos_iff]
        simpa using nonempty
      have blanks := Text.length_trimStart_le after
      simp only at h
      split at h
      · rename_i value separated
        have step := afterSeparator?_length separated
        have more := Text.length_trimStart_le value
        split at h
        · simp at h
        · rename_i v r read
          have last := attributeValue_length read
          simp only [Except.ok.injEq, Prod.mk.injEq] at h
          obtain ⟨-, rfl⟩ := h
          omega
      · split at h
        · simp at h
        · simp only [Except.ok.injEq, Prod.mk.injEq] at h
          obtain ⟨-, rfl⟩ := h
          omega

def isAttributeSeparator (c : Char) : Bool := Text.isBlank c || c = ','

def readAttributes (style : AttributeStyle) (line : Nat) (text : List Char) :
    Except ParseError (List Node) :=
  let rest := text.dropWhile isAttributeSeparator
  if rest.isEmpty then .ok []
  else
    match _h : readAttribute style line rest with
    | .error e => .error e
    | .ok (node, after) => (readAttributes style line after).map (node :: ·)
termination_by text.length
decreasing_by
  have shorter := readAttribute_length _h
  have bound := (List.dropWhile_suffix isAttributeSeparator (l := text)).length_le
  exact Nat.lt_of_lt_of_le shorter bound

end Stencil.Template
