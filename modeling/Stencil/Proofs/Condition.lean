import Mathlib.Data.List.Permutation
import Stencil.Proofs.Program.Leaving
import Stencil.Proofs.Program.Pieces
import Stencil.Proofs.Template.Closed
import Stencil.Proofs.Template.Expression
import Stencil.Script.Code

/-! Conditions keep their meaning.

A condition is found without reading it: a scan for the partner of its first bracket decides whether the brackets are
taken off. For an expression the scan finds what the parser takes for the partner, so that what is taken off are
brackets around the whole expression, and these count for nothing.
-/

set_option autoImplicit false

namespace Stencil

namespace Program

open Template (Closed)

/-! ### Parts of a text -/

theorem isBlank_of_tokensIn {ps : List Piece} (clean : Clean ps) (none : tokensIn ps = []) :
    ∀ c ∈ ps.flatMap Piece.text, Text.isBlank c :=
  fun c member => isBlank_of_isSpace (isSpace_of_tokensIn clean none c member)

theorem Clean.trimStart {text : List Char} (clean : Clean (pieces text)) :
    Clean (pieces (Text.trimStart text)) ∧ tokensIn (pieces (Text.trimStart text)) = tokensIn (pieces text) := by
  cases tokens : tokensIn (pieces text) with
  | nil =>
    have blank := isBlank_of_tokensIn clean tokens
    rw [flatMap_pieces] at blank
    rw [Text.trimStart, List.dropWhile_eq_nil_iff.mpr blank, pieces]
    exact ⟨clean.part List.nil_infix, rfl⟩
  | cons token others =>
    -- The first token begins the text that is left.
    obtain ⟨blanks, piece, more, parts, none, kind, -⟩ := exists_of_tokensIn [] tokens
    obtain ⟨c, tail, front, visible, -⟩ := (clean.spelled piece (by simp [parts]) token kind).exists_front
    have blank := isBlank_of_tokensIn (clean.part ⟨[], piece :: more, parts.symm⟩) none
    have trimmed : Text.trimStart text = (piece :: more).flatMap Piece.text := by
      rw [← flatMap_pieces text, parts, List.flatMap_append, List.flatMap_cons, front, List.cons_append,
        Text.trimStart_append_cons (isBlank_of_isVisible visible), Text.trimStart,
        List.dropWhile_eq_nil_iff.mpr blank, List.nil_append]
    rw [trimmed, pieces_of_suffix parts]
    refine ⟨clean.part ⟨blanks, [], by rw [parts, List.append_nil]⟩, ?_⟩
    rw [← tokens, parts, tokensIn_append, none, List.nil_append]

theorem Clean.trimEnd {text : List Char} (clean : Clean (pieces text)) :
    Clean (pieces (Text.trimEnd text)) ∧ tokensIn (pieces (Text.trimEnd text)) = tokensIn (pieces text) := by
  rcases List.eq_nil_or_concat' (tokensIn (pieces text)) with tokens | ⟨others, token, tokens⟩
  · have blank := isBlank_of_tokensIn clean tokens
    rw [flatMap_pieces] at blank
    have trimmed : Text.trimEnd text = [] := List.rdropWhile_eq_nil_iff.mpr blank
    rw [trimmed, tokens, pieces]
    exact ⟨clean.part List.nil_infix, rfl⟩
  · -- The last token ends the text that is left.
    obtain ⟨front, piece, blanks, parts, -, kind, none⟩ := exists_of_tokensIn others tokens
    obtain ⟨tail, c, back, visible⟩ := (clean.spelled piece (by simp [parts]) token kind).exists_back
    have whole : pieces text = (front ++ [piece]) ++ blanks := by simp [parts]
    have blank := isBlank_of_tokensIn (clean.part ⟨front ++ [piece], [], by simp [parts]⟩) none
    have nothing : Text.trimEnd (blanks.flatMap Piece.text) = [] := List.rdropWhile_eq_nil_iff.mpr blank
    have trimmed : Text.trimEnd text = (front ++ [piece]).flatMap Piece.text := by
      rw [← flatMap_pieces text, parts, List.flatMap_append, List.flatMap_cons, back, List.append_assoc,
        ← List.append_assoc, List.singleton_append, Text.trimEnd_append_cons (isBlank_of_isVisible visible), nothing]
      simp [back]
    have part : front ++ [piece] <:+: pieces text := ⟨[], blanks, whole.symm⟩
    rw [trimmed, pieces_of_prefix whole (clean.part part).lexed]
    refine ⟨clean.part part, ?_⟩
    rw [whole, tokensIn_append _ blanks, none, List.append_nil]

theorem Clean.trim {text : List Char} (clean : Clean (pieces text)) :
    Clean (pieces (Text.trim text)) ∧ tokensIn (pieces (Text.trim text)) = tokensIn (pieces text) := by
  obtain ⟨clean', same⟩ := clean.trimStart
  exact ⟨clean'.trimEnd.1, clean'.trimEnd.2.trans same⟩

/-! ### Parts of an expression -/

theorem nextPiece_openParen (rest : List Char) : nextPiece '(' rest = ⟨.token (.symbol .openParen), [], rest⟩ := by
  have short : shortPiece '(' rest = ⟨.token (.symbol .openParen), [], rest⟩ := rfl
  cases rest with
  | nil => rfl
  | cons d rest =>
    have none : symbolOf? Symbol.long ['(', d] = none := by simp [symbolOf?, Symbol.long, Symbol.text]
    change symbolPiece '(' (d :: rest) = _
    simp only [symbolPiece, none]
    exact short

namespace Parses

variable {scope : Scope} {text : List Char} {e : Expr} {problems : List Problem}

theorem of_clean (clean : Clean (pieces text))
    (reads : (readExpr scope (tokenize (String.ofList text)).1).outcome = .ok e ∧
      (readExpr scope (tokenize (String.ofList text)).1).notes.map Fault.problem = problems ∧
      (readExpr scope (tokenize (String.ofList text)).1).rest = []) : Parses scope text e problems where
  lexes := by
    rw [tokenize, String.toList_ofList, errors_placed, List.forall_mem_map]
    exact clean.lexed
  uncommented := clean.blank
  reads := reads.1
  notes := reads.2.1
  whole := reads.2.2

theorem trim (parses : Parses scope text e problems) : Parses scope (Text.trim text) e problems := by
  obtain ⟨clean, same⟩ := parses.clean.trim
  rw [← tokens_eq, ← tokens_eq] at same
  obtain ⟨reads, notes, whole⟩ := readExpr_of_tokens scope same parses.reads parses.whole
  exact .of_clean clean ⟨reads, notes.trans parses.notes, whole⟩

theorem trim_ne_nil (parses : Parses scope text e problems) : Text.trim text ≠ [] := by
  intro none
  have tokens := parses.trim.tokens_ne_nil
  rw [none, pieces] at tokens
  exact tokens rfl

/-- An expression that begins with a bracket is a group and what follows it. If nothing does, the group is the same
expression without its brackets. -/
theorem group {body : List Char} (parses : Parses scope ('(' :: body) e problems) :
    ∃ inner rest, body = inner ++ ')' :: rest ∧ Closed '(' ')' inner ∧ Closed '(' ')' rest ∧
      (rest = [] → Parses scope inner e problems) := by
  have all : pieces ('(' :: body) = ⟨.token (.symbol .openParen), ['(']⟩ :: pieces body := by
    rw [pieces, nextPiece_openParen]
  have clean := parses.clean
  have balanced := parses.balanced
  have tokens : tokensIn (pieces ('(' :: body)) = .symbol .openParen :: tokensIn (pieces body) := by
    rw [all, tokensIn_cons rfl]
  rw [tokens] at balanced
  generalize split : tokensIn (pieces body) = others at balanced
  cases balanced with
  | plain plain _ => cases plain
  | @group _ _ closing inner rest pair inside after =>
    -- The pieces are split where the tokens are, in front of the bracket that closes the group and behind it.
    obtain ⟨within, close, behind, parts, same, kind, same'⟩ := exists_of_tokensIn inner split
    have cleanBody : Clean (pieces body) := clean.part ⟨[_], [], by rw [all, List.append_nil]; rfl⟩
    have cleanInner : Clean within := cleanBody.part ⟨[], close :: behind, parts.symm⟩
    have cleanRest : Clean behind := cleanBody.part ⟨within ++ [close], [], by simp [parts]⟩
    obtain ⟨c, d, text, text', pair'⟩ := exists_of_mem_bracketPairs pair
      (clean.spelled ⟨.token (.symbol .openParen), ['(']⟩ (by simp [all]) _ rfl)
      (cleanBody.spelled close (by simp [parts]) _ kind)
    cases text
    cases pair'
    obtain rfl : closing = .closeParen := by simpa [bracketPairs] using pair
    have free : ∀ c, (fun _ => false : Char → Bool) c → c = ',' ∨ Text.isBlank c :=
      fun _ impossible => absurd impossible Bool.false_ne_true
    refine ⟨within.flatMap Piece.text, behind.flatMap Piece.text, ?_, ?_, ?_, fun none => ?_⟩
    · rw [← flatMap_pieces body, parts, List.flatMap_append, List.flatMap_cons, text']
      rfl
    · exact (inside.paired free cleanInner same (.inl rfl)).closed rfl
    · exact (after.paired free cleanRest same' (.inr (.inl fun _ _ => rfl))).closed rfl
    · -- Without a rest the group is all of the expression, and its brackets count for nothing.
      have last : behind = [] := by
        have split : pieces body = (within ++ [close]) ++ behind := by simp [parts]
        have same := pieces_of_suffix split
        rw [none, pieces] at same
        exact same.symm
      subst last
      have alone : pieces (within.flatMap Piece.text) = within := pieces_of_prefix parts cleanInner.lexed
      refine .of_clean (by rwa [alone]) ?_
      have bracketed : (tokenize (String.ofList ('(' :: body))).1.map Lexeme.token =
          .symbol .openParen :: (inner ++ [.symbol .closeParen]) := by
        rw [tokens_eq, tokens, split, ← same']
        rfl
      obtain ⟨reads, notes, whole⟩ := readExpr_of_brackets scope inside bracketed
        ((tokens_eq _).trans (by rw [alone, same])) parses.reads
      exact ⟨reads, notes.trans parses.notes, whole⟩

end Parses

end Program

/-! ### The scan -/

namespace Script

open Program (Parses Scope Expr Problem)
open Template

theorem isBalanced_iff {text : List Char} : isBalanced text ↔ Closed '(' ')' text := by
  constructor
  · intro balanced
    unfold isBalanced at balanced
    split at balanced
    · rename_i inner rest found
      obtain rfl := List.isEmpty_iff.mp balanced
      obtain ⟨closed, whole⟩ := (closeBracket_eq_some_iff (by decide)).mp found
      rwa [List.append_cancel_right whole]
    · cases balanced
  · intro closed
    rw [isBalanced, closeBracket_closed (by decide) closed]
    rfl

theorem nonempty_eq_ok_iff {text found : List Char} :
    nonempty text = .ok found ↔ found = Text.trim text ∧ found ≠ [] := by
  by_cases empty : Text.trim text = []
  · simp [nonempty, empty]
  · have same : nonempty text = .ok (Text.trim text) := by simp [nonempty, empty]
    rw [same, Except.ok.injEq]
    constructor
    · rintro rfl
      exact ⟨rfl, empty⟩
    · rintro ⟨rfl, -⟩
      rfl

theorem condition_eq_ok_iff {text found : List Char} :
    condition text = .ok found ↔ ∃ inner rest, Text.trim text = '(' :: (inner ++ ')' :: rest) ∧
      Closed '(' ')' inner ∧ Closed '(' ')' rest ∧
      found = Text.trim (if rest = [] then inner else text) ∧ found ≠ [] := by
  have pair : closingOf? '(' = some ')' := by decide
  constructor
  · intro ok
    unfold condition at ok
    dsimp only at ok
    split at ok
    · rename_i body trimmed
      split at ok
      · -- The first bracket is closed at the end: both are taken off.
        rename_i inner cut
        obtain ⟨closed, rfl⟩ := (closeBracket_eq_some_iff pair).mp cut
        exact ⟨inner, [], trimmed, closed, .nil, nonempty_eq_ok_iff.mp ok⟩
      · -- It is closed before, so that the text stays as it is, if all that follows is closed as well.
        rename_i inner rest more cut
        obtain ⟨closed, rfl⟩ := (closeBracket_eq_some_iff pair).mp cut
        have some_ : rest ≠ [] := by
          rintro rfl
          exact more rfl
        split at ok
        · rename_i balanced
          obtain ⟨same, nonempty⟩ := nonempty_eq_ok_iff.mp ok
          rw [Text.trim_trim] at same
          exact ⟨inner, rest, trimmed, closed, isBalanced_iff.mp balanced, by rw [if_neg some_, same], nonempty⟩
        · cases ok
      · cases ok
    · cases ok
  · rintro ⟨inner, rest, trimmed, closed, closed', same, some_⟩
    unfold condition
    simp only [trimmed, closeBracket_closed pair closed]
    cases rest with
    | nil => exact nonempty_eq_ok_iff.mpr ⟨same, some_⟩
    | cons c rest =>
      rw [if_neg (List.cons_ne_nil c rest)] at same
      simp only [isBalanced_iff.mpr closed', if_true]
      rw [nonempty_eq_ok_iff, ← trimmed, Text.trim_trim]
      exact ⟨same, some_⟩

/-- Where a text is an expression that begins with a bracket, the condition found is the same expression; and whatever
is found is something, with its brackets closed. -/
theorem condition_keeps_meaning (text : List Char) :
    (∀ {scope : Scope} {e : Expr} {problems : List Problem}, Parses scope text e problems →
      (Text.trim text).head? = some '(' → ∃ found, condition text = .ok found ∧ Parses scope found e problems) ∧
    ∀ found, condition text = .ok found → found ≠ [] ∧ Closed '(' ')' found := by
  refine ⟨fun {scope e problems} parses begins => ?_, fun found ok => ?_⟩
  · obtain ⟨body, trimmed⟩ : ∃ body, Text.trim text = '(' :: body := List.head?_eq_some_iff.mp begins
    have kept := parses.trim
    rw [trimmed] at kept
    -- The expression is a group in brackets and what follows; the brackets go just if nothing does.
    obtain ⟨inner, rest, rfl, closed, closed', alone⟩ := kept.group
    by_cases none : rest = []
    · have parses' := alone none
      refine ⟨Text.trim inner, condition_eq_ok_iff.mpr ⟨inner, rest, trimmed, closed, closed', ?_⟩, parses'.trim⟩
      rw [if_pos none]
      exact ⟨rfl, parses'.trim_ne_nil⟩
    · refine ⟨Text.trim text, condition_eq_ok_iff.mpr ⟨inner, rest, trimmed, closed, closed', ?_⟩, parses.trim⟩
      rw [if_neg none]
      exact ⟨rfl, parses.trim_ne_nil⟩
  · obtain ⟨inner, rest, trimmed, closed, closed', rfl, some_⟩ := condition_eq_ok_iff.mp ok
    refine ⟨some_, ?_⟩
    split
    · exact closed.trim (by decide)
    · rw [trimmed]
      exact .group closed closed'

namespace Smile

/-- A group with the sign of a closing bracket in a string. -/
def source : List Char := " (m == \":)\") ".toList

theorem tokenize_source : Program.tokenize (String.ofList source) =
    ([⟨.symbol .openParen, ⟨1, 2⟩⟩, ⟨.name "m", ⟨2, 3⟩⟩, ⟨.symbol .equal, ⟨4, 6⟩⟩, ⟨.string ":)", ⟨7, 11⟩⟩,
      ⟨.symbol .closeParen, ⟨11, 12⟩⟩], []) := by
  with_unfolding_all rfl

end Smile

namespace Pair

/-- Two groups, with a name that is unknown. -/
def source : List Char := "(m) && (b)".toList

theorem tokenize_source : Program.tokenize (String.ofList source) =
    ([⟨.symbol .openParen, ⟨0, 1⟩⟩, ⟨.name "m", ⟨1, 2⟩⟩, ⟨.symbol .closeParen, ⟨2, 3⟩⟩, ⟨.symbol .both, ⟨4, 6⟩⟩,
      ⟨.symbol .openParen, ⟨7, 8⟩⟩, ⟨.name "b", ⟨8, 9⟩⟩, ⟨.symbol .closeParen, ⟨9, 10⟩⟩], []) := by
  with_unfolding_all rfl

end Pair

theorem condition_keeps_meaning_groups :
    (∃ found, condition Smile.source = .ok found ∧ Parses { parameter := "m", functions := [] } found
      (.binary .equal .model (.literal (.string ":)"))) []) ∧
    ∃ found, condition Pair.source = .ok found ∧ Parses { parameter := "m", functions := [] } found
      (.binary .both .model (.literal .null)) [.unknownName "b"] := by
  have smile : Parses { parameter := "m", functions := [] } Smile.source
      (.binary .equal .model (.literal (.string ":)"))) [] := by
    refine ⟨by rw [Smile.tokenize_source], by with_unfolding_all decide, ?_, ?_, ?_⟩ <;>
      rw [Smile.tokenize_source] <;> cbv
  have pair : Parses { parameter := "m", functions := [] } Pair.source
      (.binary .both .model (.literal .null)) [.unknownName "b"] := by
    refine ⟨by rw [Pair.tokenize_source], by with_unfolding_all decide, ?_, ?_, ?_⟩ <;>
      rw [Pair.tokenize_source] <;> cbv
  exact ⟨(condition_keeps_meaning Smile.source).1 smile (by decide),
    (condition_keeps_meaning Pair.source).1 pair (by decide)⟩

end Script

end Stencil
