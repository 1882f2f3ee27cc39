import Stencil.Proofs.Template.Quotation
import Stencil.Proofs.Template.Splitting
import Stencil.Proofs.Template.Values

/-! Collections of attributes are read as they were written.

A list of attributes is written in one of the two styles: names by themselves or with a value behind them, a value as a
literal in quotes or as an expression, and something that ends a value between any two of them. Whatever the literals
and the expressions hold, the collection comes to these attributes, and what follows it on the line comes to the same
as without it.
-/

set_option autoImplicit false

namespace Stencil.Template

open Program (isBlank_of_isVisible)

/-! ### Literals in quotes -/

/-- A literal between quotes. The quote, a backslash and the opening of an interpolation have a backslash in front. -/
def escapedLiteral (quote : Char) : List Char → List Char
  | '#' :: '{' :: rest => '\\' :: '#' :: '{' :: escapedLiteral quote rest
  | c :: rest =>
    if c = '\\' ∨ c = quote then '\\' :: c :: escapedLiteral quote rest else c :: escapedLiteral quote rest
  | [] => []

theorem unescape_escapedLiteral (quote : Char) (content : List Char) :
    unescape (escapedLiteral quote content) = content := by
  fun_induction escapedLiteral quote content with
  | case1 rest ih => rw [unescape, unescape_cons (by decide), ih]
  | case2 c rest _ _ ih => rw [unescape, ih]
  | case3 c rest _ plain ih =>
    rw [not_or] at plain
    rw [unescape_cons plain.1, ih]
  | case4 => rfl

section
variable {quote : Char} (quotes : isQuote quote)

include quotes

theorem quoted_escapedLiteral (content : List Char) : Quoted quote (escapedLiteral quote content) := by
  have other : '{' ≠ quote := by
    rintro rfl
    cases quotes
  fun_induction escapedLiteral quote content with
  | case1 rest ih => exact .escape '#' (.plain (by decide) other ih)
  | case2 c rest _ _ ih => exact .escape c ih
  | case3 c rest _ plain ih =>
    rw [not_or] at plain
    exact .plain plain.1 plain.2 ih
  | case4 => exact .nil

/-- The backslashes in front of openings come last. -/
theorem escapedLiteral_eq (content : List Char) :
    escapedLiteral quote content =
      protect (content.flatMap fun c => if c = '\\' ∨ c = quote then ['\\', c] else [c]) := by
  have others : '#' ≠ quote ∧ '{' ≠ quote := by
    constructor <;> rintro rfl <;> cases quotes
  fun_induction escapedLiteral quote content with
  | case1 rest ih => simp [others, protect, ih]
  | case2 c rest _ special ih =>
    have sign : c ≠ '#' := by
      rintro rfl
      simp [others] at special
    rw [List.flatMap_cons, if_pos special, ih, List.cons_append, List.singleton_append,
      protect_cons fun _ same => absurd same (by decide), protect_cons fun _ same => absurd same sign]
  | case3 c rest unopened plain ih =>
    rw [List.flatMap_cons, if_neg plain, List.singleton_append, ih, protect_cons]
    -- A brace is not escaped, so that one behind `#` stood there before.
    rintro more rfl same
    cases rest with
    | nil => cases same
    | cons d rest =>
      rw [List.flatMap_cons] at same
      split at same <;> cases same
      exact unopened rest rfl rfl
  | case4 => rfl

theorem isProtected_escapedLiteral (content : List Char) : isProtected (escapedLiteral quote content) := by
  rw [escapedLiteral_eq quotes]
  exact isProtected_protect _

end

/-! ### Written attributes -/

inductive WrittenValue where
  | literal (quote : Char) (content : List Char)
  | expression (source : List Char)

structure IsBareValue (style : AttributeStyle) (source : List Char) : Prop where
  some_ : source ≠ []
  trimmed : Text.trim source = source
  unquoted : ∀ c ∈ source.head?, isQuote c = false
  paired : Paired style.ends false source

namespace WrittenValue

def text : WrittenValue → List Char
  | .literal quote content => quote :: (escapedLiteral quote content ++ [quote])
  | .expression source => source

def node (line : Nat) : WrittenValue → Node
  | .literal _ content => .text (String.ofList content) line
  | .expression source => .eval (String.ofList source) line

def Fits (style : AttributeStyle) : WrittenValue → Prop
  | .literal quote _ => isQuote quote
  | .expression source => IsBareValue style source

end WrittenValue

inductive WrittenAttribute where
  /-- A name by itself, which is its own value. -/
  | bare (name : List Char)
  | valued (form : AttributeForm) (name : List Char) (value : WrittenValue)

namespace WrittenAttribute

def text : WrittenAttribute → List Char
  | .bare name => name
  | .valued form name value => form.written name value.text

def node (line : Nat) : WrittenAttribute → Node
  | .bare name => .htmlAttribute (String.ofList name) [.text (String.ofList name) line] line
  | .valued _ name value => .htmlAttribute (String.ofList name) [value.node line] line

def Fits (style : AttributeStyle) : WrittenAttribute → Prop
  | .bare name => style = .markup ∧ IsNameIn style name
  | .valued form name value => form.style = style ∧ IsNameIn style name ∧ value.Fits style

end WrittenAttribute

/-- What may stand between two attributes: a blank in markup and a comma in a table, and then any of both. -/
def IsGap (style : AttributeStyle) (gap : List Char) : Prop :=
  ∃ c more, gap = c :: more ∧ style.ends c ∧ ∀ d ∈ more, isAttributeSeparator d

/-- A text has some attributes in it and nothing else. -/
inductive Lists (style : AttributeStyle) : List WrittenAttribute → List Char → Prop
  | nil : Lists style [] []
  | single {item : WrittenAttribute} (fits : item.Fits style) : Lists style [item] item.text
  | cons {item next : WrittenAttribute} {others : List WrittenAttribute} {gap text : List Char}
    (fits : item.Fits style) (apart : IsGap style gap) (after : Lists style (next :: others) text) :
    Lists style (item :: next :: others) (item.text ++ (gap ++ text))

/-! ### Reading them -/

theorem isAttributeSeparator_of_ends {style : AttributeStyle} {c : Char} (ends : style.ends c) :
    isAttributeSeparator c := by
  cases style <;> simp_all [AttributeStyle.ends, isAttributeSeparator]

theorem isSolid_of_isAttributeSeparator {c : Char} (separates : isAttributeSeparator c) : isSolid c := by
  simp only [isAttributeSeparator, Bool.or_eq_true, decide_eq_true_eq] at separates
  rcases separates with blank | rfl
  · exact isSolid_of_isBlank blank
  · decide

theorem dropWhile_trimStart (text : List Char) :
    (Text.trimStart text).dropWhile isAttributeSeparator = text.dropWhile isAttributeSeparator := by
  induction text with
  | nil => rfl
  | cons c rest ih =>
    cases blank : Text.isBlank c with
    | false => rw [Text.trimStart_cons blank]
    | true => rw [Text.trimStart_cons_blank blank, ih, List.dropWhile_cons_of_pos (by simp [isAttributeSeparator, blank])]

theorem readAttributes_congr {style : AttributeStyle} {first second : List Char}
    (same : first.dropWhile isAttributeSeparator = second.dropWhile isAttributeSeparator) (line : Nat) :
    readAttributes style line first = readAttributes style line second := by
  rw [readAttributes, same, ← readAttributes]

theorem WrittenAttribute.exists_cons {style : AttributeStyle} {item : WrittenAttribute} (fits : item.Fits style) :
    ∃ c rest, item.text = c :: rest ∧ isAttributeSeparator c = false ∧ c ≠ '=' := by
  have first {style : AttributeStyle} {c : Char} (part : isAttributeChar style c) :
      isAttributeSeparator c = false ∧ c ≠ '=' := by
    obtain ⟨-, visible, comma⟩ := plain_of_isAttributeChar part
    refine ⟨by simp [isAttributeSeparator, isBlank_of_isVisible visible, comma], ?_⟩
    rintro rfl
    cases style <;> cases part
  cases item with
  | bare name =>
    obtain ⟨c, rest, rfl, part⟩ := fits.2.exists_cons
    exact ⟨c, rest, rfl, first part⟩
  | valued form name value =>
    obtain ⟨c, rest, rfl, part⟩ := fits.2.1.exists_cons
    cases form with
    | arrow => exact ⟨':', _, rfl, by decide, by decide⟩
    | colon | equals => exact ⟨c, _, rfl, first part⟩

section
variable {style : AttributeStyle} {rest : List Char} (ends : ∀ c ∈ rest.head?, style.ends c)

include ends

theorem attributeValue_written {value : WrittenValue} (fits : value.Fits style) (line : Nat) (name : List Char) :
    attributeValue style line name (Text.trimStart (value.text ++ rest)) = .ok (value.node line, rest) := by
  cases value with
  | literal quote content =>
    have read : quotedValue line (escapedLiteral quote content) = .ok (.text (String.ofList content) line) := by
      rw [quotedValue_literal (isProtected_escapedLiteral fits content), unescape_escapedLiteral]
    have whole : WrittenValue.text (.literal quote content) ++ rest =
        quote :: (escapedLiteral quote content ++ quote :: rest) := by
      simp [WrittenValue.text]
    rw [whole, Text.trimStart_cons (isBlank_of_isQuote fits)]
    exact attributeValue_of_quoted fits (quoted_escapedLiteral fits content) style line name read rest
  | expression source =>
    obtain ⟨some_, trimmed, unquoted, paired⟩ := fits
    have cut := cutValue_paired paired ends
    have read : evalNode line source = .ok (.eval (String.ofList source) line) := by
      rw [evalNode, trimmed, if_neg (by simpa using some_)]
    obtain ⟨c, tail, rfl⟩ := List.exists_cons_of_ne_nil some_
    rw [List.cons_append] at cut
    rw [WrittenValue.text, List.cons_append, Text.trimStart_cons (Text.isBlank_of_trim_cons trimmed)]
    simp only [attributeValue, unquoted c rfl, Bool.false_eq_true, if_false, cut, read]
    rfl

theorem readAttribute_text (other : (rest.dropWhile isAttributeSeparator).head? ≠ some '=') {item : WrittenAttribute}
    (fits : item.Fits style) (line : Nat) :
    ∃ after, readAttribute style line (item.text ++ rest) = .ok (item.node line, after) ∧
      after.dropWhile isAttributeSeparator = rest.dropWhile isAttributeSeparator := by
  cases item with
  | bare name =>
    obtain ⟨rfl, named⟩ := fits
    have stops : ∀ c ∈ rest.head?, isAttributeChar .markup c = false := by
      intro c first
      cases part : isAttributeChar .markup c with
      | false => rfl
      | true =>
        have blank : Text.isBlank c := ends c first
        rw [isBlank_of_isVisible (plain_of_isAttributeChar part).2.1] at blank
        cases blank
    -- A name by itself takes the blanks behind it, in search of the sign of a value.
    have valueless : afterSeparator? .markup (Text.trimStart rest) = none := by
      cases front : Text.trimStart rest with
      | nil => rfl
      | cons c more =>
        have sign : c ≠ '=' := by
          rintro rfl
          rw [← dropWhile_trimStart, front] at other
          exact other rfl
        simp [afterSeparator?, sign]
    refine ⟨Text.trimStart rest, ?_, dropWhile_trimStart rest⟩
    have some_ : ¬ name.isEmpty := by simpa using named.some_
    simp only [readAttribute, WrittenAttribute.text, attributeName_markup named line stops, some_, Bool.false_eq_true,
      if_false, valueless]
    rfl
  | valued form name value =>
    obtain ⟨rfl, named, fits⟩ := fits
    have whole : form.written name value.text ++ rest = form.written name (value.text ++ rest) := by
      cases form <;> simp [AttributeForm.written]
    have read := readAttribute_written form named line (attributeValue_written ends fits line name)
    refine ⟨rest, ?_, rfl⟩
    rw [WrittenAttribute.text, whole, read]
    cases value <;> rfl

end

section
variable {style : AttributeStyle} {items : List WrittenAttribute} {text : List Char}

theorem Lists.front (lists : Lists style items text) :
    text.dropWhile isAttributeSeparator = text ∧ text.head? ≠ some '=' := by
  have begins {item : WrittenAttribute} (fits : item.Fits style) (rest : List Char) :
      (item.text ++ rest).dropWhile isAttributeSeparator = item.text ++ rest ∧
        (item.text ++ rest).head? ≠ some '=' := by
    obtain ⟨c, more, same, front, sign⟩ := WrittenAttribute.exists_cons fits
    rw [same, List.cons_append, List.dropWhile_cons_of_neg (by simp [front])]
    exact ⟨rfl, by simpa using sign⟩
  cases lists with
  | nil => exact ⟨rfl, nofun⟩
  | @single item fits => simpa using begins fits []
  | cons fits apart after => exact begins fits _

/-- The attributes of a list are read in their order, each as it was written. -/
theorem Lists.read (lists : Lists style items text) (line : Nat) :
    readAttributes style line text = .ok (items.map (WrittenAttribute.node line)) := by
  -- Reading goes on behind the separators, whether the attribute has taken some of them or not.
  have one {item : WrittenAttribute} (fits : item.Fits style) {rest : List Char} {nodes : List Node}
      (ends : ∀ c ∈ rest.head?, style.ends c)
      (other : (rest.dropWhile isAttributeSeparator).head? ≠ some '=')
      (others : readAttributes style line (rest.dropWhile isAttributeSeparator) = .ok nodes) :
      readAttributes style line (item.text ++ rest) = .ok (item.node line :: nodes) := by
    obtain ⟨after, read, same⟩ := readAttribute_text ends other fits line
    obtain ⟨c, more, text, front, -⟩ := WrittenAttribute.exists_cons fits
    rw [text, List.cons_append] at read ⊢
    have idle : after.dropWhile isAttributeSeparator =
        (rest.dropWhile isAttributeSeparator).dropWhile isAttributeSeparator := by
      rw [same, List.dropWhile_idempotent]
    rw [readAttributes_cons front read, readAttributes_congr idle, others]
    rfl
  induction lists with
  | nil => exact readAttributes_nil style line
  | @single item fits =>
    have alone : readAttributes style line (item.text ++ []) = .ok [item.node line] :=
      one fits nofun nofun (readAttributes_nil style line)
    simpa using alone
  | @cons item next others gap text fits apart after ih =>
    obtain ⟨c, more, rfl, ends, separators⟩ := apart
    have behind : ((c :: more) ++ text).dropWhile isAttributeSeparator = text := by
      rw [List.dropWhile_append_of_pos (List.forall_mem_cons.mpr ⟨isAttributeSeparator_of_ends ends, separators⟩),
        after.front.1]
    refine one fits ?_ (behind.symm ▸ after.front.2) (behind.symm ▸ ih)
    rintro _ ⟨⟩
    exact ends

theorem Lists.paired (lists : Lists style items text) : Paired (fun _ => false) false text := by
  have one {item : WrittenAttribute} (fits : item.Fits style) : Paired (fun _ => false) false item.text := by
    cases item with
    | bare name => exact paired_name fits.2
    | valued form name value =>
      obtain ⟨rfl, named, fits⟩ := fits
      have named' : Paired (fun _ => false) false value.text → Paired (fun _ => false) false (form.written name value.text) :=
        paired_written form named
      refine named' ?_
      cases value with
      | literal quote content => exact .string fits (quoted_escapedLiteral fits content) .nil
      | expression source => exact fits.paired.loosen
  induction lists with
  | nil => exact .nil
  | single fits => exact one fits
  | cons fits apart _ ih =>
    obtain ⟨c, more, rfl, ends, separators⟩ := apart
    have gap : ∀ d ∈ c :: more, isAttributeSeparator d :=
      List.forall_mem_cons.mpr ⟨isAttributeSeparator_of_ends ends, separators⟩
    have solid : ∀ d ∈ c :: more, isSolid d := fun d member => isSolid_of_isAttributeSeparator (gap d member)
    exact (one fits).append ((Paired.of_solid solid fun _ _ => .inr rfl).append ih)

end

/-! ### The line of a tag -/

/-- What follows the attributes of a tag: nothing, blanks and text, an expression or the slash at the end. -/
def GoesOn (rest : List Char) : Prop := ∀ c ∈ rest.head?, Text.isBlank c ∨ c = '=' ∨ c = '/'

def tagNode (attributes : List Node) (found : TagHead × List Node) : Node := .tag found.1 attributes found.2

theorem GoesOn.trimEnd {rest : List Char} (goes : GoesOn rest) : GoesOn (Text.trimEnd rest) := by
  obtain ⟨blanks, same⟩ := List.rdropWhile_prefix Text.isBlank rest
  change Text.trimEnd rest ++ blanks = rest at same
  cases front : Text.trimEnd rest with
  | nil => exact nofun
  | cons c more =>
    rw [front] at same
    rintro _ ⟨⟩
    exact goes c (by rw [← same]; rfl)

theorem GoesOn.cases {c : Char} {rest : List Char} (goes : GoesOn (c :: rest)) :
    (isNameChar c || c = ':') = false ∧ Shorthand.ofChar? c = none ∧ AttributeStyle.ofChar? c = none := by
  rcases goes c rfl with blank | rfl | rfl
  · have apart : ∀ d, ¬ Text.isBlank d → c ≠ d := by
      rintro d visible rfl
      exact visible blank
    have word : ¬ isNameChar c := fun part =>
      absurd blank (by simp [isBlank_of_isVisible (Program.plain_of_isWordChar (isWordChar_of_isNameChar part)).2.1])
    simp [word, Shorthand.ofChar?, AttributeStyle.ofChar?, apart ':' (by decide), apart '.' (by decide),
      apart '#' (by decide), apart '(' (by decide), apart '{' (by decide)]
  · decide
  · decide

theorem GoesOn.plain {rest : List Char} (goes : GoesOn rest) (number : Nat) :
    (∀ c ∈ rest.head?, (isNameChar c || c = ':') = false) ∧ readShorthands number rest = .ok ([], rest) ∧
      readCollections number rest = .ok ([], rest) := by
  cases rest with
  | nil => exact ⟨nofun, by rw [readShorthands], readCollections_nil number⟩
  | cons c rest =>
    obtain ⟨name, shorthand, collection⟩ := goes.cases
    refine ⟨?_, readShorthands_other number shorthand rest, readCollections_other number collection rest⟩
    rintro _ ⟨⟩
    exact name

section
variable {tag : List Char} (tagged : IsTagName tag)

include tagged

theorem trimEnd_tag (rest : List Char) : Text.trimEnd (tag ++ rest) = tag ++ Text.trimEnd rest := by
  have whole := List.dropLast_append_getLast tagged.some_
  have part := tagged.parts _ (List.getLast_mem tagged.some_)
  have visible : Text.isBlank (tag.getLast tagged.some_) = false :=
    isBlank_of_isVisible (Program.plain_of_isWordChar (isWordChar_of_isNameChar part)).2.1
  rw [← whole, List.append_assoc, List.singleton_append, Text.trimEnd_append_cons visible, List.append_assoc,
    List.singleton_append]

variable {rest : List Char} (goes : GoesOn rest) (number : Nat)

include goes

theorem readTag_bare : readTag number ('%' :: (tag ++ rest)) =
    (readInline (.named tag number) rest).map fun found =>
      { head := found.1, attributes := [], inline := found.2 } := by
  obtain ⟨stops, shorthands, collections⟩ := goes.plain number
  rw [readTag, readHead_named tagged number stops]
  simp only [bind, Except.bind, shorthands, collections]
  cases readInline (.named tag number) rest <;> rfl

theorem readTag_collection {style : AttributeStyle} {items : List WrittenAttribute} {text : List Char}
    (lists : Lists style items text) :
    readTag number ('%' :: (tag ++ style.opening :: (text ++ style.closing :: rest))) =
      (readInline (.named tag number) rest).map fun found =>
        { head := found.1, attributes := [.collection (items.map (WrittenAttribute.node number)) number],
          inline := found.2 } := by
  have stops : ∀ c ∈ (style.opening :: (text ++ style.closing :: rest)).head?, (isNameChar c || c = ':') = false := by
    rintro _ ⟨⟩
    cases style <;> decide
  have plain : Shorthand.ofChar? style.opening = none := by cases style <;> decide
  have collections := readCollections_collection lists.paired (lists.read number) rest
  rw [(goes.plain number).2.2] at collections
  rw [readTag, readHead_named tagged number stops]
  simp only [bind, Except.bind, readShorthands_other number plain, collections, Except.map]
  cases readInline (.named tag number) rest <;> rfl

end

theorem not_newline_of_isTagName {tag : List Char} (tagged : IsTagName tag) : '\n' ∉ tag :=
  not_newline_of_isWordChar fun c member => isWordChar_of_isNameChar (tagged.parts c member)

section
variable {tag rest : List Char} (tagged : IsTagName tag) (goes : GoesOn rest) (single : '\n' ∉ rest)

include tagged goes single

theorem comesToLine_bare : ComesToLine ('%' :: (tag ++ rest)) fun number =>
    (readInline (.named tag number) (Text.trimEnd rest)).map (tagNode []) := by
  refine .of_line ?_ fun number => ?_
  · simp [not_newline_of_isTagName tagged, single]
  · rw [lineNode?_percent, trimEnd_tag tagged, readTag_bare tagged goes.trimEnd]
    cases readInline (.named tag number) (Text.trimEnd rest) <;> rfl

theorem comesToLine_collection {style : AttributeStyle} {items : List WrittenAttribute} {text : List Char}
    (lists : Lists style items text) (single' : '\n' ∉ text) :
    ComesToLine ('%' :: (tag ++ style.opening :: (text ++ style.closing :: rest))) fun number =>
      (readInline (.named tag number) (Text.trimEnd rest)).map
        (tagNode [.collection (items.map (WrittenAttribute.node number)) number]) := by
  refine .of_line ?_ fun number => ?_
  · cases style <;>
      simp [AttributeStyle.opening, AttributeStyle.closing, not_newline_of_isTagName tagged, single, single']
  · have visible : Text.isBlank style.closing = false := by cases style <;> decide
    have whole : tag ++ style.opening :: (text ++ style.closing :: rest) =
        (tag ++ style.opening :: text) ++ style.closing :: rest := by simp
    have trimmed : Text.trimEnd (tag ++ style.opening :: (text ++ style.closing :: rest)) =
        tag ++ style.opening :: (text ++ style.closing :: Text.trimEnd rest) := by
      rw [whole, Text.trimEnd_append_cons visible]
      simp
    rw [lineNode?_percent, trimmed, readTag_collection tagged goes.trimEnd number lists]
    cases readInline (.named tag number) (Text.trimEnd rest) <;> rfl

end

/-- A collection is read as the attributes that it was written from, with the texts of their literals and the sources
of their expressions, and hides nothing of what follows it on the line. -/
theorem collection_decodes {style : AttributeStyle} {items : List WrittenAttribute} {text tag : List Char}
    (tagged : IsTagName tag) (lists : Lists style items text) (single : '\n' ∉ text) :
    (StandsFor ('%' :: (tag ++ style.opening :: (text ++ [style.closing]))) fun number =>
      .tag (.named tag number) [.collection (items.map (WrittenAttribute.node number)) number] []) ∧
    ∀ rest, GoesOn rest → '\n' ∉ rest → ∃ inline : Nat → Except ParseError (TagHead × List Node),
      (ComesToLine ('%' :: (tag ++ rest)) fun number => (inline number).map (tagNode [])) ∧
      ComesToLine ('%' :: (tag ++ style.opening :: (text ++ style.closing :: rest))) fun number =>
        (inline number).map (tagNode [.collection (items.map (WrittenAttribute.node number)) number]) := by
  constructor
  · have nothing : GoesOn [] := nofun
    exact (comesToLine_collection tagged nothing (by simp) lists single).standsFor
  · intro rest goes single'
    exact ⟨_, comesToLine_bare tagged goes single', comesToLine_collection tagged goes single' lists single⟩

namespace Link

/-- A name by itself, a literal with quotes, an opening and a backslash in it, and an expression. -/
def marked : List WrittenAttribute :=
  [.bare "checked".toList, .valued .equals "title".toList (.literal '"' "\"#\x7bx\x7d\" \\".toList),
    .valued .equals "xlink:href".toList (.expression "f(a, ')')".toList)]

def markedText : List Char := "checked  title=\"\\\"\\#\x7bx\x7d\\\" \\\\\" xlink:href=f(a, ')')".toList

def listed : List WrittenAttribute :=
  [.valued .colon "id".toList (.literal '\'' "it's".toList), .valued .arrow "data-n".toList (.expression "[1, x]".toList)]

def listedText : List Char := "id: 'it\\'s', :data-n => [1, x]".toList

theorem isBareValue_call : IsBareValue .markup "f(a, ')')".toList where
  some_ := by decide
  trimmed := by decide
  unquoted := by simp [isQuote]
  paired := by
    have string : Paired AttributeStyle.markup.ends true ('\'' :: ([')'] ++ '\'' :: [])) :=
      .string rfl (.of_free (by decide) (by decide)) .nil
    have front : Paired AttributeStyle.markup.ends true "a, ".toList := .of_solid (by decide) fun _ _ => .inl rfl
    exact .solid rfl (.inr rfl) (.group rfl (front.append string) .nil)

theorem isBareValue_list : IsBareValue .table "[1, x]".toList where
  some_ := by decide
  trimmed := by decide
  unquoted := by simp [isQuote]
  paired := by
    have items : Paired AttributeStyle.table.ends true "1, x".toList := .of_solid (by decide) fun _ _ => .inl rfl
    exact .group rfl items .nil

theorem lists_marked : Lists .markup marked markedText := by
  have wide : IsGap .markup [' ', ' '] := ⟨' ', [' '], rfl, by decide, by decide⟩
  have narrow : IsGap .markup [' '] := ⟨' ', [], rfl, by decide, by decide⟩
  refine .cons ?_ wide (.cons ?_ narrow (.single ?_))
  · exact ⟨rfl, by decide, by decide⟩
  · exact ⟨rfl, ⟨by decide, by decide⟩, rfl⟩
  · exact ⟨rfl, ⟨by decide, by decide⟩, isBareValue_call⟩

theorem lists_listed : Lists .table listed listedText := by
  have gap : IsGap .table [',', ' '] := ⟨',', [' '], rfl, by decide, by decide⟩
  refine .cons ?_ gap (.single ?_)
  · exact ⟨rfl, ⟨by decide, by decide⟩, rfl⟩
  · exact ⟨rfl, ⟨by decide, by decide⟩, isBareValue_list⟩

end Link

open Link in
theorem collection_decodes_link :
    (StandsFor ('%' :: ('a' :: '(' :: (markedText ++ [')']))) fun number =>
      .tag (.named ['a'] number) [.collection (marked.map (WrittenAttribute.node number)) number] []) ∧
    ∃ inline : Nat → Except ParseError (TagHead × List Node),
      (ComesToLine "%a= x".toList fun number => (inline number).map (tagNode [])) ∧
      ComesToLine ('%' :: ('a' :: '{' :: (listedText ++ "\x7d= x".toList))) fun number =>
        (inline number).map (tagNode [.collection (listed.map (WrittenAttribute.node number)) number]) := by
  have tagged : IsTagName ['a'] := ⟨by decide, by decide⟩
  have goes : GoesOn "= x".toList := by
    rintro _ ⟨⟩
    exact .inr (.inl rfl)
  exact ⟨(collection_decodes tagged lists_marked (by decide)).1,
    (collection_decodes tagged lists_listed (by decide)).2 _ goes (by decide)⟩

end Stencil.Template
