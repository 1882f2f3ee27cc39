import Mathlib.Data.List.Infix
import Mathlib.Data.List.Permutation
import Stencil.Proofs.Template.Closed
import Stencil.Proofs.Template.Expression

/-! Expressions on lines of evaluation and inside text.

Whatever an expression holds, a template that has it behind `=` or inside `#{}` finds its end where the expression
ends, and takes what stands around it as text.
-/

set_option autoImplicit false

namespace Stencil.Template

open Program (Scope IsExpressionText)

/-- A text as segments: one literal, or none of an empty text. -/
def literalSegments (content : List Char) : List Segment := if content = [] then [] else [.literal content]

def HasOpening (text : List Char) : Prop := ['#', '{'] <:+: text

instance (text : List Char) : Decidable (HasOpening text) := inferInstanceAs (Decidable (_ <:+: _))

theorem not_hasOpening_within {part text : List Char} (none : ¬ HasOpening text) (inside : part <:+: text) :
    ¬ HasOpening part := fun opening => none (opening.trans inside)

def isProtected : List Char → Bool
  | '\\' :: '#' :: '{' :: rest => isProtected rest
  | '#' :: '{' :: _ => false
  | _ :: rest => isProtected rest
  | [] => true

def unprotected : List Char → List Char
  | '\\' :: '#' :: '{' :: rest => '#' :: '{' :: unprotected rest
  | c :: rest => c :: unprotected rest
  | [] => []

/-! ### Literal text -/

theorem getLast?_of_suffix {part text : List Char} (suffix : part <:+ text) {c : Char} (last : part.getLast? = some c) :
    text.getLast? = some c := by
  obtain ⟨front, rfl⟩ := suffix
  rw [List.getLast?_append, last]
  rfl

section
variable (line : Nat)

theorem splitSegments_cons {c : Char} {rest : List Char} (opens : c = '#' → rest.head? ≠ some '{')
    (escapes : c = '\\' → ¬ ['#', '{'] <+: rest) :
    splitSegments line (c :: rest) = (splitSegments line rest).map (consChar c) := by
  rw [splitSegments.eq_def]
  split
  · rename_i same
    cases same
  · rename_i more same
    cases same
    exact absurd ⟨more, rfl⟩ (escapes rfl)
  · rename_i body same
    cases same
    exact absurd rfl (opens rfl)
  · rename_i d more _ _ same
    cases same
    rfl

/-- Text in which every opening is protected, in front of an interpolation or at the end of the line. -/
theorem splitSegments_protected {text rest : List Char} (closed : isProtected text)
    (next : rest = [] ∨ (∃ body, rest = '#' :: '{' :: body) ∧ text.getLast? ≠ some '\\') :
    splitSegments line (text ++ rest) =
      (splitSegments line rest).map fun segments => (unprotected text).foldr consChar segments := by
  fun_induction isProtected text with
  | case1 text ih =>
    have ih := ih closed (next.imp_right (And.imp_right fun last slash =>
      last (getLast?_of_suffix ⟨['\\', '#', '{'], rfl⟩ slash)))
    rw [List.cons_append, List.cons_append, List.cons_append, splitSegments, ih, unprotected]
    cases splitSegments line rest <;> rfl
  | case2 => cases closed
  | case3 c text unescaped unopened ih =>
    have ih := ih closed (next.imp_right (And.imp_right fun last slash =>
      last (getLast?_of_suffix (List.suffix_cons c text) slash)))
    rw [List.cons_append, splitSegments_cons, ih, unprotected]
    · cases splitSegments line rest <;> rfl
    · exact unescaped
    -- An opening that begins at `c` would lie in the text, or end behind it, where `next` leaves no room for it.
    · rintro rfl front
      cases text with
      | nil =>
        rcases next with rfl | ⟨⟨body, rfl⟩, _⟩ <;> cases front
      | cons d more =>
        cases front
        exact unopened more rfl rfl
    · rintro rfl ⟨more, front⟩
      cases text with
      | nil =>
        rcases next with rfl | ⟨_, last⟩
        · cases front
        · exact last rfl
      | cons d text =>
        cases text with
        | nil => rcases next with rfl | ⟨⟨body, rfl⟩, _⟩ <;> cases front
        | cons e others =>
          cases front
          exact unescaped others rfl rfl
  | case4 =>
    rw [List.nil_append]
    cases splitSegments line rest <;> rfl

theorem protected_of_not_hasOpening {text : List Char} (none : ¬ HasOpening text) :
    isProtected text ∧ unprotected text = text := by
  fun_induction isProtected text with
  | case1 text => exact absurd ⟨['\\'], text, rfl⟩ none
  | case2 text => exact absurd ⟨[], text, rfl⟩ none
  | case3 c text unescaped _ ih =>
    obtain ⟨closed, same⟩ := ih (not_hasOpening_within none (List.infix_cons List.infix_rfl))
    exact ⟨closed, by rw [unprotected.eq_2 _ _ unescaped, same]⟩
  | case4 => exact ⟨rfl, rfl⟩

theorem splitSegments_literal {text rest : List Char} (none : ¬ HasOpening text)
    (next : rest = [] ∨ (∃ body, rest = '#' :: '{' :: body) ∧ text.getLast? ≠ some '\\') :
    splitSegments line (text ++ rest) = (splitSegments line rest).map fun segments => text.foldr consChar segments := by
  obtain ⟨closed, same⟩ := protected_of_not_hasOpening none
  rw [splitSegments_protected line closed next, same]

end

/-- Characters in front of segments that do not begin with literal text are a literal of their own. -/
theorem foldr_consChar {segments : List Segment}
    (apart : ∀ c, consChar c segments = .literal [c] :: segments) (text : List Char) :
    text.foldr consChar segments = literalSegments text ++ segments := by
  induction text with
  | nil => rfl
  | cons c text ih =>
    rw [List.foldr_cons, ih, literalSegments, literalSegments, if_neg (List.cons_ne_nil c text)]
    split
    · rename_i none
      rw [none]
      exact apart c
    · rfl

theorem foldr_consChar_nil (text : List Char) : text.foldr consChar [] = literalSegments text := by
  rw [foldr_consChar (fun _ => rfl), List.append_nil]

theorem foldr_consChar_variable (text path : List Char) (segments : List Segment) :
    text.foldr consChar (.variable path :: segments) = literalSegments text ++ .variable path :: segments :=
  foldr_consChar (fun _ => rfl) text

theorem splitSegments_closed {inner : List Char} (closed : Closed '{' '}' inner) (some_ : Text.trim inner ≠ [])
    (line : Nat) (rest : List Char) :
    splitSegments line ('#' :: '{' :: (inner ++ '}' :: rest)) =
      (splitSegments line rest).map (.variable (Text.trim inner) :: ·) := by
  rw [splitSegments]
  have closes := closeBracket_closed (by decide) closed rest
  split
  · rename_i none
    rw [closes] at none
    cases none
  · rename_i inner' more found
    rw [closes] at found
    cases found
    dsimp only
    rw [if_neg (by simpa using some_)]

/-! ### Expressions -/

section
variable {scope : Scope} {e : List Char}

theorem evalNode_of_trim {source : List Char} (number : Nat) (same : Text.trim source = Text.trim e)
    (is : IsExpressionText scope e) :
    evalNode number source = .ok (.eval (String.ofList (Text.trim e)) number) := by
  rw [evalNode, same, if_neg (by simpa using is.trim_ne_nil)]

theorem paired_expression (is : IsExpressionText scope e) : Paired AttributeStyle.table.ends false e := by
  refine is.paired (fun c comma => .inl (by simpa [AttributeStyle.ends] using comma)) (.inr (.inl fun c space => ?_))
  cases comma : AttributeStyle.table.ends c with
  | false => rfl
  | true =>
    obtain rfl : c = ',' := by simpa [AttributeStyle.ends] using comma
    cases space

theorem splitSegments_interpolation (is : IsExpressionText scope e) (line : Nat) (rest : List Char) :
    splitSegments line ('#' :: '{' :: (e ++ '}' :: rest)) =
      (splitSegments line rest).map (.variable (Text.trim e) :: ·) :=
  splitSegments_closed ((paired_expression is).closed (by decide)) is.trim_ne_nil line rest

theorem splitSegments_around (is : IsExpressionText scope e) (line : Nat) {before after : List Char}
    (none : ¬ HasOpening before) (plain : before.getLast? ≠ some '\\') (none' : ¬ HasOpening after) :
    splitSegments line (before ++ '#' :: '{' :: (e ++ '}' :: after)) =
      .ok (literalSegments before ++ .variable (Text.trim e) :: literalSegments after) := by
  have behind : splitSegments line after = .ok (literalSegments after) := by
    have split := splitSegments_literal line none' (.inl rfl)
    rw [List.append_nil, splitSegments] at split
    rw [split, ← foldr_consChar_nil]
    rfl
  rw [splitSegments_literal line none (.inr ⟨⟨_, rfl⟩, plain⟩), splitSegments_interpolation is, behind]
  exact congrArg Except.ok (foldr_consChar_variable before _ _)

end

/-! ### Lines -/

/-- The backslash in front that marks a line as text is no part of the text. -/
def unmarked : List Char → List Char
  | '\\' :: rest => rest
  | text => text

theorem unmarked_append_cons {c : Char} (other : c ≠ '\\') (text rest : List Char) :
    unmarked (text ++ c :: rest) = unmarked text ++ c :: rest := by
  cases text with
  | nil =>
    unfold unmarked
    split
    · rename_i same
      cases same
      exact absurd rfl other
    · rfl
  | cons d text =>
    by_cases slash : d = '\\'
    · subst slash
      rfl
    · simp [unmarked, slash]

theorem unmarked_suffix (text : List Char) : unmarked text <:+ text := by
  unfold unmarked
  split
  · exact List.suffix_cons _ _
  · exact List.suffix_rfl

theorem eq_unmarked_of_lineKind {content text : List Char} (kind : lineKind content = .text text) :
    text = unmarked content := by
  unfold lineKind at kind
  split at kind
  case h_9 =>
    cases kind
    rfl
  case h_10 other =>
    split at kind
    · cases kind
    · cases kind
      unfold unmarked
      split
      · exact absurd rfl (other _)
      · rfl
  all_goals cases kind

theorem content_of_ofText? {number : Nat} {raw : List Char} {line : Line}
    (h : Line.ofText? number raw = .ok (some line)) : line.content = Text.trimStart (Text.trimEnd raw) := by
  unfold Line.ofText? at h
  dsimp only at h
  split at h
  · cases h
  split at h
  · cases h
  · cases h
    rfl

theorem ofText?_number {first : Nat} {raw : List Char} {line : Line} (h : Line.ofText? first raw = .ok (some line))
    (number : Nat) : Line.ofText? number raw = .ok (some { line with number }) := by
  unfold Line.ofText? at h ⊢
  dsimp only at h ⊢
  split at h
  · cases h
  rename_i some_
  rw [if_neg some_]
  split at h
  · cases h
  · rename_i pure_
    rw [if_neg pure_]
    cases h
    rfl

def IsTextLine (raw : List Char) : Prop :=
  ∃ line text, Line.ofText? 1 raw = .ok (some line) ∧ lineKind line.content = .text text

def literalNodes (content : List Char) (number : Nat) : List Node :=
  if content = [] then [] else [.text (String.ofList content) number]

theorem map_literalSegments (content : List Char) (number : Nat) :
    (literalSegments content).map (Segment.node number) = literalNodes content number := by
  unfold literalSegments literalNodes
  split <;> rfl

section
variable {scope : Scope} {e : List Char}

theorem standsFor_interpolation (is : IsExpressionText scope e) {before after : List Char} (single : '\n' ∉ before)
    (single' : '\n' ∉ after) (none : ¬ HasOpening before) (none' : ¬ HasOpening after)
    (plain : before.getLast? ≠ some '\\') (textual : IsTextLine (before ++ '#' :: '{' :: (e ++ '}' :: after))) :
    StandsFor (before ++ '#' :: '{' :: (e ++ '}' :: after)) fun number =>
      .textLine (literalNodes (unmarked (Text.trimStart before)) number ++
        .variable (String.ofList (Text.trim e)) number :: literalNodes (Text.trimEnd after) number) number := by
  obtain ⟨line, text, measured, kind⟩ := textual
  have suffix : unmarked (Text.trimStart before) <:+ before :=
    (unmarked_suffix _).trans (List.dropWhile_suffix _)
  have front : ¬ HasOpening (unmarked (Text.trimStart before)) := not_hasOpening_within none suffix.isInfix
  have last : (unmarked (Text.trimStart before)).getLast? ≠ some '\\' := fun slash =>
    plain (getLast?_of_suffix suffix slash)
  have behind : ¬ HasOpening (Text.trimEnd after) :=
    not_hasOpening_within none' (List.rdropWhile_prefix _ _).isInfix
  -- Trimming and marking leave the interpolation itself alone.
  have content : unmarked line.content =
      unmarked (Text.trimStart before) ++ '#' :: '{' :: (e ++ '}' :: Text.trimEnd after) := by
    have tail : Text.trimEnd ('{' :: (e ++ '}' :: after)) = '{' :: (e ++ '}' :: Text.trimEnd after) := by
      rw [← List.cons_append, Text.trimEnd_append_cons (by decide)]
      rfl
    rw [content_of_ofText? measured, Text.trimEnd_append_cons (by decide), tail, Text.trimStart_append_cons (by decide),
      unmarked_append_cons (by decide)]
  refine .of_line ?_ fun number => ?_
  · simp only [List.mem_append, List.mem_cons, not_or]
    exact ⟨single, by decide, by decide, is.line, by decide, single'⟩
  · simp only [lineNode?, ofText?_number measured number, bind, Except.bind, Outline.node?, kind, leaf]
    rw [eq_unmarked_of_lineKind kind, content, textNode, splitSegments_around is number front last behind]
    simp [Except.map, map_literalSegments, Segment.node]

theorem standsFor_evaluated (is : IsExpressionText scope e) :
    StandsFor ('=' :: ' ' :: e) fun number => .eval (String.ofList (Text.trim e)) number := by
  refine .of_line ?_ fun number => ?_
  · simp only [List.mem_cons, not_or]
    exact ⟨by decide, by decide, is.line⟩
  · have source : Text.trim (Text.trimEnd (' ' :: e)) = Text.trim e := by
      rw [Text.trim_trimEnd, Text.trim, Text.trimStart_cons_blank (by decide), Text.trim]
    simp only [lineNode?, Line.ofText?_visible (show Text.isBlank '=' = false by decide), bind, Except.bind,
      Outline.node?, lineKind, leaf]
    rw [evalNode_of_trim number source is]
    rfl

end

/-! ### Tags -/

structure IsTagName (name : List Char) : Prop where
  some_ : name ≠ []
  parts : ∀ c ∈ name, isNameChar c

theorem isWordChar_of_isNameChar {c : Char} (part : isNameChar c) : Program.isWordChar c := by
  simp only [isNameChar, Bool.or_eq_true, decide_eq_true_eq] at part
  rcases part with (part | rfl) | rfl
  · simp [Program.isWordChar, part]
  · decide
  · decide

theorem not_newline_of_isWordChar {text : List Char} (words : ∀ c ∈ text, Program.isWordChar c) : '\n' ∉ text :=
  fun member => absurd (words _ member) (by decide)

def TagHead.named (name : List Char) (line : Nat) : TagHead :=
  { space := none, name := String.ofList name, selfClosing := false, line }

section
variable {name : List Char}

theorem readHead_named (is : IsTagName name) (line : Nat) {rest : List Char}
    (stops : ∀ c ∈ rest.head?, (isNameChar c || c = ':') = false) :
    readHead line ('%' :: (name ++ rest)) = .ok (.named name line, rest) := by
  have parts : ∀ d ∈ name, (isNameChar d || d = ':') = true := fun d member => by simp [is.parts d member]
  have plain : ∀ d ∈ name, decide (d ≠ ':') = true := by
    intro d member
    apply decide_eq_true
    rintro rfl
    exact absurd (is.parts _ member) (by decide)
  have whole : name.takeWhile (· ≠ ':') = name := List.takeWhile_eq_self_iff.mpr plain
  have nothing : name.dropWhile (· ≠ ':') = [] := List.dropWhile_eq_nil_iff.mpr plain
  have take : (name ++ rest).takeWhile (fun d => isNameChar d || d = ':') = name := by
    rw [List.takeWhile_append_of_pos parts]
    cases rest with
    | nil => simp
    | cons c rest => rw [List.takeWhile_cons_of_neg (by simpa using stops c rfl), List.append_nil]
  have drop : (name ++ rest).dropWhile (fun d => isNameChar d || d = ':') = rest := by
    rw [List.dropWhile_append_of_pos parts]
    cases rest with
    | nil => rfl
    | cons c rest => rw [List.dropWhile_cons_of_neg (by simpa using stops c rfl)]
  simp only [readHead, take, drop]
  rw [if_neg (by simpa using is.some_), headOfName, nothing]
  rfl

theorem readShorthands_other (line : Nat) {c : Char} (other : Shorthand.ofChar? c = none) (rest : List Char) :
    readShorthands line (c :: rest) = .ok ([], c :: rest) := by
  rw [readShorthands, other]

theorem readCollections_other (line : Nat) {c : Char} (other : AttributeStyle.ofChar? c = none) (rest : List Char) :
    readCollections line (c :: rest) = .ok ([], c :: rest) := by
  rw [readCollections, other]

theorem readInline_evaluated (head : TagHead) {source : List Char} {node : Node}
    (read : evalNode head.line (Text.trimEnd source) = .ok node) :
    readInline head ('=' :: source) = .ok (head, [node]) := by
  have visible : Text.isBlank '=' = false := by decide
  have trimmed : Text.trim ('=' :: source) = '=' :: Text.trimEnd source := by
    rw [Text.trim, Text.trimStart_cons visible, Text.trimEnd_cons_visible visible]
  unfold readInline
  rw [trimmed]
  simp only [read]
  rfl

theorem lineNode?_percent (number : Nat) (rest : List Char) :
    lineNode? number ('%' :: rest) = (readTag number ('%' :: Text.trimEnd rest)).map fun tag =>
      some (.tag tag.head tag.attributes tag.inline) := by
  simp only [lineNode?, Line.ofText?_visible (show Text.isBlank '%' = false by decide), bind, Except.bind,
    Outline.node?, lineKind, startsTag, block]
  cases readTag number ('%' :: Text.trimEnd rest) with
  | error e => rfl
  | ok tag => simp [pure, Except.pure, Except.map]

theorem lineNode?_tag {number : Nat} {rest : List Char} {head : TagHead} {attributes inline : List Node}
    (read : readTag number ('%' :: Text.trimEnd rest) = .ok { head, attributes, inline }) :
    lineNode? number ('%' :: rest) = .ok (some (.tag head attributes inline)) := by
  rw [lineNode?_percent, read]
  rfl

theorem standsFor_inline {scope : Scope} {e : List Char} (is : IsExpressionText scope e) (named : IsTagName name) :
    StandsFor ('%' :: (name ++ '=' :: ' ' :: e)) fun number =>
      .tag (.named name number) [] [.eval (String.ofList (Text.trim e)) number] := by
  refine .of_line ?_ fun number => ?_
  · simp only [List.mem_cons, List.mem_append, not_or]
    exact ⟨by decide, not_newline_of_isWordChar fun c member => isWordChar_of_isNameChar (named.parts c member),
      by decide, by decide, is.line⟩
  · apply lineNode?_tag
    have source : Text.trim (Text.trimEnd (Text.trimEnd (' ' :: e))) = Text.trim e := by
      rw [Text.trim_trimEnd, Text.trim_trimEnd, Text.trim, Text.trimStart_cons_blank (by decide), Text.trim]
    have inline := readInline_evaluated (.named name number) (evalNode_of_trim number source is)
    rw [Text.trimEnd_append_cons (by decide), readTag, readHead_named named number (by simp; decide)]
    simp only [bind, Except.bind, readShorthands_other number (show Shorthand.ofChar? '=' = none by decide),
      readCollections_other number (show AttributeStyle.ofChar? '=' = none by decide), inline]
    rfl

end

/-- An expression may stand on a line of evaluation, behind the name of a tag or inside a text. It is the source of its
node, and the text around it is kept. -/
theorem expression_embeds {scope : Scope} {e : List Char} (is : IsExpressionText scope e) :
    (StandsFor ('=' :: ' ' :: e) fun number => .eval (String.ofList (Text.trim e)) number) ∧
    (∀ name, IsTagName name → StandsFor ('%' :: (name ++ '=' :: ' ' :: e)) fun number =>
      .tag (.named name number) [] [.eval (String.ofList (Text.trim e)) number]) ∧
    (∀ before after, '\n' ∉ before → '\n' ∉ after → ¬ HasOpening before → ¬ HasOpening after →
      before.getLast? ≠ some '\\' → IsTextLine (before ++ '#' :: '{' :: (e ++ '}' :: after)) →
      StandsFor (before ++ '#' :: '{' :: (e ++ '}' :: after)) fun number =>
        .textLine (literalNodes (unmarked (Text.trimStart before)) number ++
          .variable (String.ofList (Text.trim e)) number :: literalNodes (Text.trimEnd after) number) number) :=
  ⟨standsFor_evaluated is, fun _ named => standsFor_inline is named,
    fun _ _ single single' none none' plain textual =>
      standsFor_interpolation is single single' none none' plain textual⟩

namespace Braces

/-- An expression with braces, quotes and an opening inside its strings. -/
def source : List Char := "pick(model['\x7d'], \"#\x7b'\") + \"\\\"\x7b\" ".toList

theorem tokenize_source : Program.tokenize (String.ofList source) =
    ([⟨.name "pick", ⟨0, 4⟩⟩, ⟨.symbol .openParen, ⟨4, 5⟩⟩, ⟨.name "model", ⟨5, 10⟩⟩, ⟨.symbol .openBracket, ⟨10, 11⟩⟩,
      ⟨.string "\x7d", ⟨11, 14⟩⟩, ⟨.symbol .closeBracket, ⟨14, 15⟩⟩, ⟨.symbol .comma, ⟨15, 16⟩⟩,
      ⟨.string "#\x7b'", ⟨17, 22⟩⟩, ⟨.symbol .closeParen, ⟨22, 23⟩⟩, ⟨.symbol .plus, ⟨24, 25⟩⟩,
      ⟨.string "\"\x7b", ⟨26, 31⟩⟩], []) := by
  with_unfolding_all rfl

end Braces

open Braces in
theorem expression_embeds_braces :
    IsExpressionText { parameter := "model", functions := [] } source ∧
    (StandsFor ('=' :: ' ' :: source) fun number => .eval (String.ofList (Text.trim source)) number) ∧
    (StandsFor ('%' :: (['p'] ++ '=' :: ' ' :: source)) fun number =>
      .tag (.named ['p'] number) [] [.eval (String.ofList (Text.trim source)) number]) ∧
    (StandsFor ([' ', '\\', '=', ' ', '#'] ++ '#' :: '{' :: (source ++ '}' :: ['}', ' '])) fun number =>
      .textLine [.text "= #" number, .variable (String.ofList (Text.trim source)) number, .text "\x7d" number]
        number) := by
  have is : IsExpressionText { parameter := "model", functions := [] } source :=
    .of_tokens tokenize_source (by decide) (by with_unfolding_all decide) (by cbv) (by cbv)
  obtain ⟨evaluated, inline, interpolated⟩ := expression_embeds is
  exact ⟨is, evaluated, inline ['p'] ⟨by decide, by decide⟩,
    interpolated [' ', '\\', '=', ' ', '#'] ['}', ' '] (by decide) (by decide) (by decide) (by decide) (by decide)
      ⟨_, _, rfl, rfl⟩⟩

end Stencil.Template
