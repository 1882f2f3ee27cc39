import Stencil.Proofs.Program.Batch
import Stencil.Proofs.Program.Grammar.Basic
import Stencil.Template.Segment

/-! The expression that concatenates segments.

A literal is written as a string that lexes back to it, and an expression in brackets, which end its last token. So the
tokens of a concatenation are those of its operands with a `+` in front of each, behind an empty string. That string
makes the leftmost sum a text, and so every sum to the right of it.
-/

set_option autoImplicit false

namespace Stencil

open Json (Value)
open Program

/-! ### Expressions by their derivations -/

namespace Program

variable {functions : List Function} {lexemes : List Lexeme} {e : Expr}

theorem isExpression_iff {source : String} :
    IsExpression functions source e ↔ (∀ kind ∈ marks source.toList, ¬ kind.isBad) ∧
      IsLevel { parameter := "model", functions } 0 (tokensOf (marks source.toList)) e := by
  rw [← errors_tokenize, ← tokens_tokenize, ← isWhole_iff_isLevel]
  exact ⟨fun is => ⟨is.clean, is.whole⟩, fun is => ⟨is.1, is.2⟩⟩

theorem tokensOf_map_token (tokens : List Token) : tokensOf (tokens.map .token) = tokens := by
  simp [tokensOf, List.filterMap_map, Function.comp_def, PieceKind.token?]

theorem map_tokensOf {text : List Char} (lexed : ∀ kind ∈ marks text, ¬ kind.isBad) :
    (tokensOf (marks text)).map .token = marks text := by
  have tokens : ∀ kinds : List PieceKind, (∀ kind ∈ kinds, ¬ kind.isBad ∧ ¬ kind.isSkipped) →
      (tokensOf kinds).map .token = kinds := by
    intro kinds plain
    induction kinds with
    | nil => rfl
    | cons kind kinds ih =>
      rw [List.forall_mem_cons] at plain
      have ih := ih plain.2
      cases kind with
      | token token => exact congrArg (.token token :: ·) ih
      | skipped => simp [PieceKind.isSkipped] at plain
      | bad => simp [PieceKind.isBad] at plain
  refine tokens _ fun kind member => ⟨lexed kind member, ?_⟩
  simpa using (List.mem_filter.mp member).2

theorem marks_plus (rest : List Char) : marks ('+' :: ' ' :: rest) = .token (.symbol .plus) :: marks rest := by
  rw [marks_cons]
  exact congrArg (PieceKind.token (.symbol .plus) :: ·) (marks_cons_space rfl rest)

end Program

namespace Template

/-! ### Literals -/

theorem resolveEscapes_cons {c : Char} (plain : c ≠ '\\') (rest : List Char) :
    resolveEscapes (c :: rest) = c :: resolveEscapes rest := by
  rw [resolveEscapes] <;> simp [plain]

theorem literalChar_cases (c : Char) :
    (literalChar c = [c] ∧ c ≠ '"' ∧ c ≠ '\\') ∨
      ∃ d, literalChar c = ['\\', d] ∧ d ≠ '\n' ∧ ∀ rest, resolveEscapes ('\\' :: d :: rest) = c :: resolveEscapes rest := by
  by_cases quote : c = '"'
  · exact .inr ⟨'"', by rw [quote]; rfl, by decide, fun rest => by rw [quote, resolveEscapes] <;> decide⟩
  by_cases backslash : c = '\\'
  · exact .inr ⟨'\\', by rw [backslash]; rfl, by decide, fun rest => by rw [backslash, resolveEscapes] <;> decide⟩
  by_cases lineFeed : c = '\n'
  · exact .inr ⟨'n', by rw [lineFeed]; rfl, by decide, fun rest => by rw [lineFeed, resolveEscapes]⟩
  by_cases tab : c = '\t'
  · exact .inr ⟨'t', by rw [tab]; rfl, by decide, fun rest => by rw [tab, resolveEscapes]⟩
  · exact .inl ⟨by rw [literalChar, if_neg quote, if_neg backslash, if_neg lineFeed, if_neg tab], quote, backslash⟩

theorem resolveEscapes_literal (content : List Char) : resolveEscapes (content.flatMap literalChar) = content := by
  induction content with
  | nil => rfl
  | cons c content ih =>
    rw [List.flatMap_cons]
    obtain ⟨written, _, plain⟩ | ⟨d, written, _, resolved⟩ := literalChar_cases c
    · rw [written, List.singleton_append, resolveEscapes_cons plain, ih]
    · rw [written, List.cons_append, List.singleton_append, resolved, ih]

theorem cutString_literal (content more : List Char) :
    cutString '"' (content.flatMap literalChar ++ '"' :: more) = (content.flatMap literalChar, '"' :: more) := by
  induction content with
  | nil => rw [List.flatMap_nil, List.nil_append, cutString_cons (by decide), if_pos rfl]
  | cons c content ih =>
    rw [List.flatMap_cons, List.append_assoc]
    obtain ⟨written, quote, plain⟩ | ⟨d, written, other, _⟩ := literalChar_cases c
    · rw [written, List.singleton_append, cutString_cons plain, if_neg quote, ih]
      rfl
    · rw [written, List.cons_append, List.singleton_append, cutString, if_neg other, ih]
      rfl

theorem marks_stringLiteral (content more : List Char) :
    marks (stringLiteral content ++ more) = .token (.string (String.ofList content)) :: marks more := by
  have cut : nextPiece '"' (content.flatMap literalChar ++ '"' :: more) =
      ⟨.token (.string (String.ofList content)), content.flatMap literalChar ++ ['"'], more⟩ := by
    show stringPiece '"' (content.flatMap literalChar ++ '"' :: more) = _
    rw [stringPiece, cutString_literal]
    simp only [if_true, resolveEscapes_literal]
  have text : stringLiteral content ++ more = '"' :: (content.flatMap literalChar ++ '"' :: more) := by
    simp [stringLiteral]
  rw [text, marks_cons, cut]
  rfl

/-! ### Operands -/

structure IsOperand (functions : List Function) (path : List Char) (e : Expr) : Prop where
  expression : IsExpression functions (String.ofList path) e
  uncommented : ∀ piece ∈ pieces path, piece.kind.isSkipped → ∀ c ∈ piece.text, isSpace c

namespace Segment

/-- A segment as a tree: a literal stands for itself, and the text of a variable is an expression. -/
inductive Denotes (functions : List Function) : Segment → Expr → Prop
  | literal (content : List Char) : Denotes functions (.literal content) (.literal (.string (String.ofList content)))
  | variable {path : List Char} {e : Expr} (is : IsOperand functions path e) : Denotes functions (.variable path) e

/-- The tokens of a segment as an operand: one string for a literal, and an expression in brackets. -/
def tokens : Segment → List Token
  | .literal content => [.string (String.ofList content)]
  | .variable path => .symbol .openParen :: ((tokenize (String.ofList path)).1.map Lexeme.token ++ [.symbol .closeParen])

variable {functions : List Function} {segment : Segment} {e : Expr}

/-- An operand is lexed by itself. -/
theorem Denotes.marks_operand (denotes : segment.Denotes functions e) (more : List Char) :
    marks (segment.operand ++ more) = segment.tokens.map .token ++ marks more := by
  cases denotes with
  | literal content => exact marks_stringLiteral content more
  | @«variable» path e is =>
    have clean := (isExpression_iff.mp is.expression).1
    rw [String.toList_ofList] at clean
    have lexed : ∀ piece ∈ pieces path, ¬ piece.kind.isBad := by
      have none := is.expression.clean
      rw [tokenize, String.toList_ofList, errors_placed, List.forall_mem_map] at none
      exact none
    have text : operand (.variable path) ++ more = '(' :: (path ++ ')' :: more) := by simp [operand]
    rw [text, marks_bracket '(' _ rfl, marks_append_closing lexed is.uncommented, marks_bracket ')' _ rfl, tokens,
      tokens_tokenize, String.toList_ofList, List.map_cons, List.map_append, map_tokensOf clean]
    simp

theorem Denotes.isLevel (denotes : segment.Denotes functions e) :
    IsLevel { parameter := "model", functions } 5 segment.tokens e := by
  have primary : IsPrimary { parameter := "model", functions } segment.tokens e := by
    cases denotes with
    | literal content => exact .literal (.string _)
    | «variable» is => exact .bracketed (isWhole_iff_isLevel.mp is.expression.whole)
  exact (IsUnary.operand (.primary primary)).level (by decide)

end Segment

/-! ### Sums -/

def sumOf (trees : List Expr) : Expr := trees.foldl (.binary .add) (.literal (.string ""))

section

variable {functions : List Function} {segments : List Segment} {trees : List Expr}

theorem marks_operands (denote : List.Forall₂ (Segment.Denotes functions) segments trees) (some_ : segments ≠ []) :
    marks ('+' :: ' ' :: List.intercalate " + ".toList (segments.map Segment.operand)) =
      (segments.flatMap fun segment => .symbol .plus :: segment.tokens).map .token := by
  induction denote with
  | nil => exact absurd rfl some_
  | @cons segment e segments trees first rest ih =>
    rw [marks_plus]
    cases segments with
    | nil =>
      rw [List.map_singleton, List.intercalate_singleton, ← List.append_nil segment.operand, first.marks_operand]
      simp [marks_nil]
    | cons next segments =>
      have ih := ih (List.cons_ne_nil _ _)
      have sign : " + ".toList = [' ', '+', ' '] := rfl
      rw [List.map_cons, List.map_cons, List.intercalate_cons_cons, ← List.map_cons, List.append_assoc,
        first.marks_operand, sign, List.cons_append, marks_cons_space rfl, List.cons_append, List.singleton_append,
        ← sign, ih]
      simp

theorem marks_concatenation (denote : List.Forall₂ (Segment.Denotes functions) segments trees) (some_ : segments ≠ []) :
    marks (concatenation segments) =
      (.string "" :: segments.flatMap fun segment => .symbol .plus :: segment.tokens).map .token := by
  have text : concatenation segments = stringLiteral [] ++ ' ' :: '+' :: ' ' ::
      List.intercalate " + ".toList (segments.map Segment.operand) := by
    have front : "\"\" + ".toList = ['"', '"', ' ', '+', ' '] := rfl
    rw [concatenation, front]
    rfl
  rw [text, marks_stringLiteral, marks_cons_space rfl, marks_operands denote some_]
  rfl

/-- The sum groups to the left, whatever it begins with. -/
theorem isLevel_sum (denote : List.Forall₂ (Segment.Denotes functions) segments trees) {tokens : List Token} {left : Expr}
    (derived : IsLevel { parameter := "model", functions } 4 tokens left) :
    IsLevel { parameter := "model", functions } 4
      (tokens ++ segments.flatMap fun segment => .symbol .plus :: segment.tokens) (trees.foldl (.binary .add) left) := by
  induction denote generalizing tokens left with
  | nil => rwa [List.flatMap_nil, List.append_nil]
  | cons first rest ih =>
    rw [List.flatMap_cons, ← List.append_assoc]
    exact ih (.binary (by decide) derived first.isLevel)

theorem evaluate_sum_of_error (model : Value) {left : Expr} {error : EvalError}
    (failed : evaluate model left = .error error) : evaluate model (trees.foldl (.binary .add) left) = .error error := by
  induction trees generalizing left with
  | nil => exact failed
  | cons e trees ih =>
    refine ih ?_
    rw [evaluate_binary (by decide), failed]
    rfl

/-- A sum that begins with a text is the text of all its operands. -/
theorem evaluate_sum (model : Value) {left : Expr} {text : String}
    (begins : evaluate model left = .ok (.string text)) :
    evaluate model (trees.foldl (.binary .add) left) =
      (trees.mapM (textFor model)).map fun texts => .string (text ++ String.join texts) := by
  induction trees generalizing left text with
  | nil => simp [begins, Except.map, pure, Except.pure]
  | cons e trees ih =>
    rw [List.foldl_cons, List.mapM_cons, textFor]
    -- The left operand is a text, so that `+` joins whatever comes next to it as a text.
    have sum : evaluate model (.binary .add left e) =
        evaluate model e >>= fun value => applyBinary .add (.string text) value := by
      rw [evaluate_binary (by decide), begins]
      rfl
    cases value : evaluate model e with
    | error error =>
      rw [value] at sum
      rw [evaluate_sum_of_error model sum]
      rfl
    | ok value' =>
      rw [value] at sum
      have joined : evaluate model (.binary .add left e) = .ok (.string (text ++ textOf value')) := sum
      rw [ih joined]
      simp only [bind, Except.bind, pure, Except.pure]
      cases trees.mapM (textFor model) with
      | error error => rfl
      | ok texts => simp [Except.map, String.append_assoc]

theorem isExpression_concatenation (denote : List.Forall₂ (Segment.Denotes functions) segments trees)
    (some_ : segments ≠ []) :
    IsExpression functions (String.ofList (concatenation segments)) (sumOf trees) := by
  rw [isExpression_iff, String.toList_ofList, marks_concatenation denote some_, tokensOf_map_token, List.forall_mem_map]
  have first : IsLevel { parameter := "model", functions } 4 [.string ""] (.literal (.string "")) :=
    (IsUnary.operand (.primary (.literal (.string "")))).level (by decide)
  exact ⟨fun _ _ => nofun, .tighter (.tighter (.tighter (.tighter (isLevel_sum denote first))))⟩

theorem evaluate_sumOf (trees : List Expr) (model : Value) :
    evaluate model (sumOf trees) =
      (trees.mapM (textFor model)).map fun texts => .string (String.join texts) := by
  have sum : evaluate model (sumOf trees) =
      (trees.mapM (textFor model)).map fun texts => .string ("" ++ String.join texts) := evaluate_sum model rfl
  simpa only [String.empty_append] using sum

variable (functions) in
/-- The concatenation of segments is read to its end, each literal as one string. Its value is the text of all of them
in their order, unless one of them fails. -/
theorem concatenation_denotes (denote : List.Forall₂ (Segment.Denotes functions) segments trees) (some_ : segments ≠ []) :
    (tokenize (String.ofList (concatenation segments))).1.map Lexeme.token =
        .string "" :: (segments.flatMap fun segment => .symbol .plus :: segment.tokens) ∧
      IsExpression functions (String.ofList (concatenation segments)) (sumOf trees) ∧
      ∀ model, evaluate model (sumOf trees) =
        (trees.mapM (textFor model)).map fun texts => .string (String.join texts) := by
  refine ⟨?_, isExpression_concatenation denote some_, evaluate_sumOf trees⟩
  rw [tokens_tokenize, String.toList_ofList, marks_concatenation denote some_, tokensOf_map_token]

end

namespace Greeting

def segments : List Segment := [.literal ['"', '\\', '\n'], .variable "model.title".toList]

theorem isOperand_title : IsOperand (functionsOf ["core"]) "model.title".toList (.member .model "title") where
  expression := by
    rw [String.ofList_toList]
    exact Batch.isExpression_title
  uncommented := by with_unfolding_all decide

end Greeting

open Greeting in
theorem concatenation_denotes_greeting :
    (tokenize (String.ofList (concatenation segments))).1.map Lexeme.token =
        [.string "", .symbol .plus, .string "\"\\\n", .symbol .plus, .symbol .openParen, .name "model", .symbol .dot,
          .name "title", .symbol .closeParen] ∧
      evaluate (.object [("title", .string "T")])
        (sumOf [.literal (.string "\"\\\n"), .member .model "title"]) = .ok (.string "\"\\\nT") := by
  have denote : List.Forall₂ (Segment.Denotes (functionsOf ["core"])) segments
      [.literal (.string "\"\\\n"), .member .model "title"] :=
    .cons (.literal _) (.cons (.variable isOperand_title) .nil)
  obtain ⟨tokens, _, values⟩ := concatenation_denotes (functionsOf ["core"]) denote (List.cons_ne_nil _ _)
  refine ⟨?_, (values _).trans ?_⟩
  · rw [tokens]
    with_unfolding_all rfl
  · rfl

end Template

end Stencil
