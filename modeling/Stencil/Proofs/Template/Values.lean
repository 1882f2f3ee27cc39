import Stencil.Proofs.Template.Interpolation

/-! Expressions as values of attributes.

The value of an attribute is cut out three times: with the collection it stands in, then up to the end of the value, and
then, if it is quoted, out of its quotes. Of an expression all three take the whole, unless it begins with a string:
that is taken for a quoted value, and what follows it for another attribute.
-/

set_option autoImplicit false

namespace Stencil.Template

open Program (Scope IsExpressionText BeginsWithString BlanksEnclosed isVisible isWordChar plain_of_isWordChar)

inductive AttributeForm where
  /-- `name: value` in curly brackets. -/
  | colon
  /-- `:name => value` in curly brackets. -/
  | arrow
  /-- `name=value` in round brackets. -/
  | equals
  deriving DecidableEq, Repr

def AttributeStyle.opening : AttributeStyle → Char
  | .markup => '('
  | .table => '{'

def AttributeStyle.closing : AttributeStyle → Char
  | .markup => ')'
  | .table => '}'

namespace AttributeForm

def style : AttributeForm → AttributeStyle
  | .colon | .arrow => .table
  | .equals => .markup

def written (name value : List Char) : AttributeForm → List Char
  | .colon => name ++ ':' :: ' ' :: value
  | .arrow => ':' :: (name ++ ' ' :: '=' :: '>' :: ' ' :: value)
  | .equals => name ++ '=' :: value

def line (form : AttributeForm) (tag name value : List Char) : List Char :=
  '%' :: (tag ++ form.style.opening :: (form.written name value ++ [form.style.closing]))

end AttributeForm

structure IsAttributeName (name : List Char) : Prop where
  some_ : name ≠ []
  parts : ∀ c ∈ name, isAttributeChar .table c

def attributeTag (tag name : List Char) (value : Node) (number : Nat) : Node :=
  .tag (.named tag number) [.collection [.htmlAttribute (String.ofList name) [value] number] number] []

/-! ### One attribute -/

theorem isWordChar_of_isAttributeChar {c : Char} (part : isAttributeChar .table c) : isWordChar c := by
  simp only [isAttributeChar, Bool.or_eq_true, decide_eq_true_eq, Bool.and_eq_true, reduceCtorEq, decide_false,
    Bool.false_eq_true, false_and, or_false] at part
  rcases part with (part | rfl) | rfl
  · exact isWordChar_of_isNameChar part
  · decide
  · decide

structure IsNameIn (style : AttributeStyle) (name : List Char) : Prop where
  some_ : name ≠ []
  parts : ∀ c ∈ name, isAttributeChar style c

theorem isAttributeChar_cases {style : AttributeStyle} {c : Char} :
    isAttributeChar style c ↔ isAttributeChar .table c ∨ style = .markup ∧ c = ':' := by
  simp [isAttributeChar]

theorem IsAttributeName.inStyle {name : List Char} (named : IsAttributeName name) (style : AttributeStyle) :
    IsNameIn style name :=
  ⟨named.some_, fun c member => isAttributeChar_cases.mpr (.inl (named.parts c member))⟩

theorem plain_of_isAttributeChar {style : AttributeStyle} {c : Char} (part : isAttributeChar style c) :
    isSolid c ∧ isVisible c ∧ c ≠ ',' := by
  rcases isAttributeChar_cases.mp part with part | ⟨-, rfl⟩
  · exact plain_of_isWordChar (isWordChar_of_isAttributeChar part)
  · decide

theorem takeName_append {isPart : Char → Bool} {name : List Char} (parts : ∀ c ∈ name, isPart c) {rest : List Char}
    (stops : ∀ c ∈ rest.head?, isPart c = false) : takeName isPart (name ++ rest) = (name, rest) := by
  rw [takeName, List.takeWhile_append_of_pos parts, List.dropWhile_append_of_pos parts]
  cases rest with
  | nil => rw [List.takeWhile_nil, List.dropWhile_nil, List.append_nil]
  | cons c rest =>
    have none : ¬ isPart c := by simp [stops c rfl]
    rw [List.takeWhile_cons_of_neg none, List.dropWhile_cons_of_neg none, List.append_nil]

section
variable {style : AttributeStyle} {name : List Char}

theorem IsNameIn.exists_cons (named : IsNameIn style name) :
    ∃ c rest, name = c :: rest ∧ isAttributeChar style c := by
  obtain ⟨c, rest, rfl⟩ := List.exists_cons_of_ne_nil named.some_
  exact ⟨c, rest, rfl, named.parts c List.mem_cons_self⟩

theorem attributeName_table (named : IsNameIn .table name) (line : Nat) {text rest : List Char}
    (front : dropColon text = name ++ rest) (stops : ∀ c ∈ rest.head?, isAttributeChar .table c = false) :
    attributeName .table line text = .ok (name, rest) := by
  have taken := takeName_append named.parts stops
  obtain ⟨c, tail, rfl, part⟩ := named.exists_cons
  have plain : isQuote c = false := (ne_of_isSolid (plain_of_isAttributeChar part).1).1
  rw [List.cons_append] at taken front
  simp only [attributeName, front, plain, taken]
  rfl

theorem attributeName_markup (named : IsNameIn .markup name) (line : Nat) {rest : List Char}
    (stops : ∀ c ∈ rest.head?, isAttributeChar .markup c = false) :
    attributeName .markup line (name ++ rest) = .ok (name, rest) := by
  rw [attributeName, takeName_append named.parts stops]

theorem dropColon_name (named : IsNameIn .table name) (rest : List Char) : dropColon (name ++ rest) = name ++ rest := by
  obtain ⟨c, tail, rfl, part⟩ := named.exists_cons
  have other : c ≠ ':' := by
    rintro rfl
    cases part
  simp [dropColon, other]

theorem readAttribute_of_parts (some_ : name ≠ []) {line : Nat} {text after value rest : List Char} {node : Node}
    (front : attributeName style line text = .ok (name, after))
    (separated : afterSeparator? style (Text.trimStart after) = some value)
    (read : attributeValue style line name (Text.trimStart value) = .ok (node, rest)) :
    readAttribute style line text = .ok (Node.withValue (String.ofList name) node, rest) := by
  have some_ : ¬ name.isEmpty := by simpa using some_
  simp only [readAttribute, front, some_, Bool.false_eq_true, if_false, separated, read]

theorem readAttribute_written (form : AttributeForm) (named : IsNameIn form.style name) (line : Nat)
    {value rest : List Char} {node : Node}
    (read : attributeValue form.style line name (Text.trimStart value) = .ok (node, rest)) :
    readAttribute form.style line (form.written name value) = .ok (Node.withValue (String.ofList name) node, rest) := by
  have spaced : Text.trimStart (' ' :: value) = Text.trimStart value := Text.trimStart_cons_blank (by decide) value
  cases form with
  | colon =>
    have front := attributeName_table named line (dropColon_name named (':' :: ' ' :: value)) (by simp; decide)
    refine readAttribute_of_parts named.some_ front ?_ (spaced.symm ▸ read)
    rw [Text.trimStart_cons (by decide)]
    rfl
  | arrow =>
    have colon : dropColon (':' :: (name ++ ' ' :: '=' :: '>' :: ' ' :: value)) =
        name ++ ' ' :: '=' :: '>' :: ' ' :: value := rfl
    have front := attributeName_table named line colon (by simp; decide)
    refine readAttribute_of_parts named.some_ front ?_ (spaced.symm ▸ read)
    rw [Text.trimStart_cons_blank (by decide), Text.trimStart_cons (by decide)]
    rfl
  | equals =>
    have front : attributeName .markup line (name ++ '=' :: value) = .ok (name, '=' :: value) :=
      attributeName_markup named line (by simp; decide)
    refine readAttribute_of_parts named.some_ front ?_ read
    rw [Text.trimStart_cons (by decide)]
    rfl

theorem exists_written_cons (form : AttributeForm) (named : IsNameIn form.style name) (value : List Char) :
    ∃ c rest, form.written name value = c :: rest ∧ isAttributeSeparator c = false := by
  obtain ⟨c, tail, rfl, part⟩ := named.exists_cons
  obtain ⟨-, visible, comma⟩ := plain_of_isAttributeChar part
  have front : isAttributeSeparator c = false := by
    simp [isAttributeSeparator, Program.isBlank_of_isVisible visible, comma]
  cases form with
  | colon => exact ⟨c, _, rfl, front⟩
  | arrow => exact ⟨':', _, rfl, by decide⟩
  | equals => exact ⟨c, _, rfl, front⟩

theorem readAttributes_nil (style : AttributeStyle) (line : Nat) : readAttributes style line [] = .ok [] := by
  rw [readAttributes]
  rfl

theorem readAttributes_cons {line : Nat} {c : Char} {text after : List Char} {node : Node}
    (front : isAttributeSeparator c = false) (one : readAttribute style line (c :: text) = .ok (node, after)) :
    readAttributes style line (c :: text) = (readAttributes style line after).map (node :: ·) := by
  rw [readAttributes, List.dropWhile_cons_of_neg (by simp [front]), if_neg (by simp)]
  split
  · rename_i e failed
    rw [one] at failed
    cases failed
  · rename_i node after found
    rw [one] at found
    cases found
    rfl

theorem readAttributes_written (form : AttributeForm) (named : IsNameIn form.style name) (line : Nat)
    {value : List Char} {node : Node}
    (read : attributeValue form.style line name (Text.trimStart value) = .ok (node, [])) :
    readAttributes form.style line (form.written name value) = .ok [Node.withValue (String.ofList name) node] := by
  have one := readAttribute_written form named line read
  obtain ⟨c, rest, text, front⟩ := exists_written_cons form named value
  rw [text] at one ⊢
  rw [readAttributes_cons front one, readAttributes_nil]
  rfl

theorem paired_name (named : IsNameIn style name) : Paired (fun _ => false) false name :=
  .of_solid (fun c member => (plain_of_isAttributeChar (named.parts c member)).1) fun _ _ => .inr rfl

theorem paired_written (form : AttributeForm) (named : IsNameIn form.style name) {bars : Char → Bool}
    {value : List Char} (paired : Paired bars false value) :
    Paired (fun _ => false) false (form.written name value) := by
  have inside := paired_name named
  have signs {c : Char} {rest : List Char} (solid : isSolid c) (after : Paired (fun _ => false) false rest) :
      Paired (fun _ => false) false (c :: rest) := .solid solid (.inr rfl) after
  have paired := paired.loosen
  cases form with
  | colon => exact inside.append (signs (by decide) (signs (by decide) paired))
  | arrow =>
    exact signs (by decide) (inside.append
      (signs (by decide) (signs (by decide) (signs (by decide) (signs (by decide) paired)))))
  | equals => exact inside.append (signs (by decide) paired)

end

/-! ### The line of a tag with one attribute -/

theorem readCollections_collection {style : AttributeStyle} {line : Nat} {inner : List Char} {attributes : List Node}
    (paired : Paired (fun _ => false) false inner) (read : readAttributes style line inner = .ok attributes)
    (rest : List Char) : readCollections line (style.opening :: (inner ++ style.closing :: rest)) =
      (readCollections line rest).map fun found => (.collection attributes line :: found.1, found.2) := by
  have kind : AttributeStyle.ofChar? style.opening = some (style, style.closing) := by cases style <;> rfl
  have closes : isClosing style.closing := by cases style <;> rfl
  have closed := closeCollection_paired paired line closes rest
  rw [readCollections, kind]
  dsimp only
  split
  · rename_i e failed
    rw [closed] at failed
    cases failed
  · rename_i found after same
    rw [closed] at same
    cases same
    rw [read]

theorem readCollections_nil (line : Nat) : readCollections line [] = .ok ([], []) := by rw [readCollections]

theorem standsFor_attribute {tag name value : List Char} {node : Nat → Node} {bars : Char → Bool} (tagged : IsTagName tag)
    (named : IsAttributeName name) (form : AttributeForm) (single : '\n' ∉ value) (paired : Paired bars false value)
    (read : ∀ number, attributeValue form.style number name (Text.trimStart value) = .ok (node number, []))
    (here : ∀ number, (node number).line = number) :
    StandsFor (form.line tag name value) fun number => attributeTag tag name (node number) number := by
  refine .of_line ?_ fun number => ?_
  · have names : '\n' ∉ name :=
      not_newline_of_isWordChar fun c member => isWordChar_of_isAttributeChar (named.parts c member)
    have tags : '\n' ∉ tag :=
      not_newline_of_isWordChar fun c member => isWordChar_of_isNameChar (tagged.parts c member)
    cases form <;>
      simp [AttributeForm.line, AttributeForm.written, AttributeForm.style, AttributeStyle.opening,
        AttributeStyle.closing, names, tags, single]
  · have closes : Text.isBlank form.style.closing = false := by cases form <;> decide
    have opens : (isNameChar form.style.opening || form.style.opening = ':') = false := by cases form <;> decide
    have plain : Shorthand.ofChar? form.style.opening = none := by cases form <;> decide
    have attributes := readAttributes_written form (named.inStyle _) number (read number)
    have collections := readCollections_collection (paired_written form (named.inStyle _) paired) attributes []
    rw [readCollections_nil] at collections
    have whole : tag ++ form.style.opening :: (form.written name value ++ [form.style.closing]) =
        (tag ++ form.style.opening :: form.written name value) ++ [form.style.closing] := by simp
    have trimmed : Text.trimEnd (tag ++ form.style.opening :: (form.written name value ++ [form.style.closing])) =
        tag ++ form.style.opening :: (form.written name value ++ [form.style.closing]) := by
      rw [whole, Text.trimEnd_append_cons closes]
      rfl
    have read : readTag number ('%' :: (tag ++ form.style.opening :: (form.written name value ++ [form.style.closing]))) =
        .ok { head := .named tag number, attributes := [.collection [Node.withValue (String.ofList name) (node number)] number],
              inline := [] } := by
      rw [readTag, readHead_named tagged number (by simpa using opens)]
      simp only [bind, Except.bind, readShorthands_other number plain, collections]
      rfl
    rw [AttributeForm.line, lineNode?_tag (trimmed.symm ▸ read), attributeTag, Node.withValue, here]

/-! ### Values in quotes -/

section
variable {quote : Char} {raw : List Char} (quotes : isQuote quote) (quoted : Quoted quote raw)

include quotes quoted

/-- What a value in quotes is read as depends on the text between them alone. -/
theorem attributeValue_of_quoted {node : Node} (style : AttributeStyle) (number : Nat) (name : List Char)
    (read : quotedValue number raw = .ok node) (rest : List Char) :
    attributeValue style number name (quote :: (raw ++ quote :: rest)) = .ok (node, rest) := by
  simp only [attributeValue, quotes, if_true, closeQuote_quoted quotes quoted rest, read]
  rfl

theorem standsFor_quoted {tag name : List Char} {node : Nat → Node} (tagged : IsTagName tag)
    (named : IsAttributeName name) (form : AttributeForm) (single : '\n' ∉ raw)
    (read : ∀ number, quotedValue number raw = .ok (node number)) (here : ∀ number, (node number).line = number) :
    StandsFor (form.line tag name (quote :: (raw ++ [quote]))) fun number =>
      attributeTag tag name (node number) number := by
  have visible : Text.isBlank quote = false ∧ quote ≠ '\n' := by
    rcases quote_cases quotes with rfl | rfl <;> decide
  have paired : Paired (fun _ => false) false (quote :: (raw ++ [quote])) := .string quotes quoted .nil
  refine standsFor_attribute tagged named form ?_ paired (fun number => ?_) here
  · simp [single, Ne.symm visible.2]
  · rw [Text.trimStart_cons visible.1]
    exact attributeValue_of_quoted quotes quoted form.style number name (read number) []

end

/-! ### Expressions -/

section
variable {scope : Scope} {e : List Char}

/-- An expression is the whole of an unquoted value, unless it has a blank where one ends the value. -/
theorem attributeValue_expression (is : IsExpressionText scope e) {style : AttributeStyle}
    (paired : Paired style.ends false e) (other : ¬ BeginsWithString e) (number : Nat) (name : List Char) :
    attributeValue style number name (Text.trimStart e) = .ok (.eval (String.ofList (Text.trim e)) number, []) := by
  obtain ⟨c, rest, front, -, quotes⟩ := is.exists_front
  have plain : ¬ isQuote c := fun quote => other (quotes quote)
  have cut : cutValue style (c :: rest) = (c :: rest, []) :=
    cutValue_alone (front ▸ paired.dropWhile fun _ => isSolid_of_isBlank)
  have read := evalNode_of_trim number (Text.trim_trimStart e) is
  rw [front] at read ⊢
  simp only [attributeValue, plain, Bool.false_eq_true, if_false, cut, read]
  rfl

/-- In quotes, an expression without quotes and backslashes is an interpolation like any other. -/
theorem attributeValue_quoted (is : IsExpressionText scope e) (style : AttributeStyle) (unquoted : '"' ∉ e)
    (plain : '\\' ∉ e) (number : Nat) (name : List Char) :
    attributeValue style number name ('"' :: '#' :: '{' :: (e ++ ['}', '"'])) =
      .ok (.eval (String.ofList (Text.trim e)) number, []) := by
  have quoted : Quoted '"' ('#' :: '{' :: (e ++ ['}'])) := .of_free (by simp [plain]) (by simp [unquoted])
  have text : '"' :: (('#' :: '{' :: (e ++ ['}'])) ++ ['"']) = '"' :: '#' :: '{' :: (e ++ ['}', '"']) := by simp
  rw [← text]
  refine attributeValue_of_quoted (by decide) quoted style number name ?_ []
  rw [quotedValue, splitSegments_interpolation is number [], splitSegments]
  rfl

theorem paired_markup (is : IsExpressionText scope e) (enclosed : BlanksEnclosed (Program.pieces e)) :
    Paired AttributeStyle.markup.ends false e :=
  is.paired (fun _ blank => .inr blank) (.inr (.inr enclosed))

end

/-- An expression may be the value of an attribute as it is, if it begins with no string and no blank in it ends the
value, or in quotes, if it has neither those nor backslashes. -/
theorem expression_as_value {scope : Scope} {e : List Char} (is : IsExpressionText scope e) {tag name : List Char}
    (tagged : IsTagName tag) (named : IsAttributeName name) (form : AttributeForm) :
    (¬ BeginsWithString e → (form = .equals → BlanksEnclosed (Program.pieces e)) →
      StandsFor (form.line tag name e) fun number =>
        attributeTag tag name (.eval (String.ofList (Text.trim e)) number) number) ∧
    ('"' ∉ e → '\\' ∉ e →
      StandsFor (form.line tag name ('"' :: '#' :: '{' :: (e ++ ['}', '"']))) fun number =>
        attributeTag tag name (.eval (String.ofList (Text.trim e)) number) number) := by
  constructor
  · intro other enclosed
    have paired : Paired form.style.ends false e := by
      cases form with
      | colon | arrow => exact paired_expression is
      | equals => exact paired_markup is (enclosed rfl)
    exact standsFor_attribute tagged named form is.line paired
      (fun number => attributeValue_expression is paired other number name) fun _ => rfl
  · -- In quotes the value is an interpolation and nothing else.
    intro unquoted plain
    have single : '\n' ∉ '"' :: '#' :: '{' :: (e ++ ['}', '"']) := by simp [is.line]
    have quoted : Quoted '"' ('#' :: '{' :: (e ++ ['}'])) := .of_free (by simp [plain]) (by simp [unquoted])
    have paired : Paired (fun _ => false) false ('"' :: '#' :: '{' :: (e ++ ['}', '"'])) := by
      have string : Paired (fun _ => false) false ('"' :: (('#' :: '{' :: (e ++ ['}'])) ++ '"' :: [])) :=
        .string rfl quoted .nil
      simpa using string
    refine standsFor_attribute tagged named form single paired (fun number => ?_) fun _ => rfl
    rw [Text.trimStart_cons (by decide)]
    exact attributeValue_quoted is form.style unquoted plain number name

namespace Pick

def source : List Char := "pick(model['\x7d'], '#\x7b')+'('".toList

theorem tokenize_source : Program.tokenize (String.ofList source) =
    ([⟨.name "pick", ⟨0, 4⟩⟩, ⟨.symbol .openParen, ⟨4, 5⟩⟩, ⟨.name "model", ⟨5, 10⟩⟩, ⟨.symbol .openBracket, ⟨10, 11⟩⟩,
      ⟨.string "\x7d", ⟨11, 14⟩⟩, ⟨.symbol .closeBracket, ⟨14, 15⟩⟩, ⟨.symbol .comma, ⟨15, 16⟩⟩,
      ⟨.string "#\x7b", ⟨17, 21⟩⟩, ⟨.symbol .closeParen, ⟨21, 22⟩⟩, ⟨.symbol .plus, ⟨22, 23⟩⟩,
      ⟨.string "(", ⟨23, 26⟩⟩], []) := by
  with_unfolding_all rfl

end Pick

open Pick in
theorem expression_as_value_pick :
    IsExpressionText { parameter := "model", functions := [] } source ∧
    StandsFor (AttributeForm.equals.line ['a'] ['h', 'r', 'e', 'f'] source) (fun number =>
      attributeTag ['a'] ['h', 'r', 'e', 'f'] (.eval (String.ofList source) number) number) ∧
    StandsFor (AttributeForm.arrow.line ['a'] ['h', 'r', 'e', 'f'] ('"' :: '#' :: '{' :: (source ++ ['}', '"'])))
      (fun number => attributeTag ['a'] ['h', 'r', 'e', 'f'] (.eval (String.ofList source) number) number) := by
  have is : IsExpressionText { parameter := "model", functions := [] } source :=
    .of_tokens tokenize_source (by decide) (by with_unfolding_all decide) (by cbv) (by cbv)
  have other : ¬ BeginsWithString source := by
    rintro ⟨value, rest, tokens⟩
    rw [tokenize_source] at tokens
    cases tokens
  have tagged : IsTagName ['a'] := ⟨by decide, by decide⟩
  have named : IsAttributeName ['h', 'r', 'e', 'f'] := ⟨by decide, by decide⟩
  exact ⟨is, (expression_as_value is tagged named .equals).1 other fun _ => by with_unfolding_all decide,
    (expression_as_value is tagged named .arrow).2 (by decide) (by decide)⟩

namespace Joined

/-- An expression that begins with a string and is not one. -/
def source : List Char := "\"a\" + model".toList

theorem tokenize_source : Program.tokenize (String.ofList source) =
    ([⟨.string "a", ⟨0, 3⟩⟩, ⟨.symbol .plus, ⟨4, 5⟩⟩, ⟨.name "model", ⟨6, 11⟩⟩], []) := by
  with_unfolding_all rfl

end Joined

theorem standsFor_marked : StandsFor (AttributeForm.colon.line ['t'] ['n'] "#\x7bmodel\x7d".toList) fun number =>
    attributeTag ['t'] ['n'] (.eval "#\x7bmodel\x7d" number) number := by
  have name : Paired AttributeStyle.table.ends true "model".toList :=
    .of_solid (by decide) fun _ _ => .inl rfl
  have paired : Paired AttributeStyle.table.ends false ('#' :: '{' :: ("model".toList ++ '}' :: [])) :=
    .solid rfl (.inr rfl) (.group rfl name .nil)
  exact standsFor_attribute ⟨by decide, by decide⟩ ⟨by decide, by decide⟩ .colon (by decide) paired
    (fun _ => rfl) fun _ => rfl

open Template.Joined in
/-- What follows a string at the beginning of an expression is taken for a further attribute, and refused; and an
interpolation without quotes is not taken out of its marks. -/
theorem expression_not_value :
    IsExpressionText { parameter := "model", functions := [] } source ∧
    (∀ value, (Program.tokenize (String.ofList source)).1.map Program.Lexeme.token ≠ [.string value]) ∧
    (Document.ofText (String.ofList (AttributeForm.colon.line ['t'] ['n'] source))).isOk = false ∧
    (¬ StandsFor (AttributeForm.colon.line ['t'] ['n'] source) fun number =>
      attributeTag ['t'] ['n'] (.eval (String.ofList (Text.trim source)) number) number) ∧
    ¬ StandsFor (AttributeForm.colon.line ['t'] ['n'] "#\x7bmodel\x7d".toList) fun number =>
      attributeTag ['t'] ['n'] (.eval "model" number) number := by
  have is : IsExpressionText { parameter := "model", functions := [] } source :=
    .of_tokens tokenize_source (by decide) (by with_unfolding_all decide) (by cbv) (by cbv)
  have refused : (Document.ofText (String.ofList (AttributeForm.colon.line ['t'] ['n'] source))).isOk = false := by
    decide +kernel
  refine ⟨is, fun value tokens => ?_, refused, fun stands => ?_, fun stands => ?_⟩
  · rw [tokenize_source] at tokens
    cases tokens
  · rw [stands.document] at refused
    cases refused
  · have same := stands.document.symm.trans standsFor_marked.document
    simp [attributeTag] at same

end Stencil.Template
