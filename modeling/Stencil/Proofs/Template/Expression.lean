import Stencil.Proofs.Program.Brackets
import Stencil.Proofs.Program.Source
import Stencil.Proofs.Template.Paired
import Stencil.Proofs.Template.SingleLine

/-! The text of an expression, as a template takes it.

Templates find the end of an expression without lexing it. That this is the right place comes down to two facts. The
tokens of an expression have their brackets closed in order, and the text of a token hides nothing from a scan: a string
is closed where the lexer closes it, and no other token has a quote or a bracket in it but a bracket itself.
-/

set_option autoImplicit false

namespace Stencil.Program

open Template (isQuote isSolid Quoted Paired)

def tokensIn (ps : List Piece) : List Token := (ps.map Piece.kind).filterMap PieceKind.token?

def Token.isOpening : Token → Bool
  | .symbol .openParen | .symbol .openBracket | .symbol .openBrace => true
  | _ => false

def Token.isClosing : Token → Bool
  | .symbol .closeParen | .symbol .closeBracket | .symbol .closeBrace => true
  | _ => false

structure Parses (scope : Scope) (text : List Char) (e : Expr) (problems : List Problem) : Prop where
  lexes : (tokenize (String.ofList text)).2 = []
  uncommented : ∀ piece ∈ pieces text, piece.kind.isSkipped → ∀ c ∈ piece.text, isSpace c
  reads : (readExpr scope (tokenize (String.ofList text)).1).outcome = .ok e
  notes : (readExpr scope (tokenize (String.ofList text)).1).notes.map Fault.problem = problems
  whole : (readExpr scope (tokenize (String.ofList text)).1).rest = []

/-- A text on one line that is one expression, without strays and comments in it. Whether the scope knows the names is
no matter. -/
structure IsExpressionText (scope : Scope) (text : List Char) : Prop where
  line : '\n' ∉ text
  lexes : (tokenize (String.ofList text)).2 = []
  uncommented : ∀ piece ∈ pieces text, piece.kind.isSkipped → ∀ c ∈ piece.text, isSpace c
  reads : ∃ e, (readExpr scope (tokenize (String.ofList text)).1).outcome = .ok e
  whole : (readExpr scope (tokenize (String.ofList text)).1).rest = []

/-- Blanks stand only inside brackets: in front of each of them more brackets are opened than closed. -/
def BlanksEnclosed (ps : List Piece) : Prop :=
  ∀ i : Fin ps.length, ps[i].kind.isSkipped →
    (tokensIn (ps.take i)).countP Token.isClosing < (tokensIn (ps.take i)).countP Token.isOpening

instance (ps : List Piece) : Decidable (BlanksEnclosed ps) := inferInstanceAs (Decidable (∀ _ : Fin _, _))

/-! ### The characters of tokens -/

/-- Characters that a text shows, blanks and all that is not ASCII apart. -/
def isVisible (c : Char) : Bool := 33 ≤ c.toNat && c.toNat ≤ 126

/-- A claim about the characters of a text is decided on the text, not on all characters. -/
instance decidableForallMem (p : Char → Prop) [DecidablePred p] (text : List Char) : Decidable (∀ c ∈ text, p c) :=
  List.decidableBAll p text

theorem isBlank_of_isVisible {c : Char} (visible : isVisible c) : Text.isBlank c = false := by
  simp only [isVisible, Bool.and_eq_true, decide_eq_true_eq] at visible
  simp only [Text.isBlank, Bool.or_eq_false_iff, Bool.and_eq_false_iff, decide_eq_false_iff_not, beq_eq_false_iff_ne]
  omega

theorem toNat_of_isAlphanum {c : Char} (part : c.isAlphanum) :
    (65 ≤ c.toNat ∧ c.toNat ≤ 90) ∨ (97 ≤ c.toNat ∧ c.toNat ≤ 122) ∨ (48 ≤ c.toNat ∧ c.toNat ≤ 57) := by
  rcases (Bool.or_eq_true _ _).mp part with letter | digit
  · rcases (Bool.or_eq_true _ _).mp letter with upper | lower
    · exact .inl (of_decide_eq_true upper)
    · have range := (Bool.and_eq_true _ _).mp lower
      exact .inr (.inl ⟨of_decide_eq_true range.1, of_decide_eq_true range.2⟩)
  · exact .inr (.inr (Char.isDigit_iff_toNat.mp digit))

def isWordChar (c : Char) : Bool := c.isAlphanum || c = '_' || c = '-' || c = '.' || c = '@'

theorem plain_of_isWordChar {c : Char} (word : isWordChar c) : isSolid c ∧ isVisible c ∧ c ≠ ',' := by
  simp only [isWordChar, Bool.or_eq_true, decide_eq_true_eq] at word
  rcases word with (((part | rfl) | rfl) | rfl) | rfl
  · have range := toNat_of_isAlphanum part
    have apart : ∀ d : Char, ¬ d.isAlphanum → c ≠ d := by
      rintro d other rfl
      exact other part
    refine ⟨?_, ?_, apart ',' (by decide)⟩
    · simp [isSolid, isQuote, Template.closingOf?, Template.isClosing, apart '\'' (by decide), apart '"' (by decide),
        apart '(' (by decide), apart '{' (by decide), apart '[' (by decide), apart ')' (by decide),
        apart '}' (by decide), apart ']' (by decide)]
    · simp only [isVisible, Bool.and_eq_true, decide_eq_true_eq]
      omega
  all_goals decide

/-- How the text of a piece spells its token. -/
inductive Spells : Token → List Char → Prop
  | word {token : Token} {c : Char} {tail : List Char} (other : ∀ sign, token ≠ .symbol sign)
    (parts : ∀ d ∈ c :: tail, isWordChar d) : Spells token (c :: tail)
  | string {value : String} {quote : Char} {content : List Char} (quotes : isQuote quote)
    (inside : Quoted quote content) : Spells (.string value) (quote :: (content ++ [quote]))
  | symbol (sign : Symbol) : Spells (.symbol sign) sign.text.toList

theorem quoted_cutString {quote : Char} (text : List Char) : Quoted quote (cutString quote text).1 := by
  fun_induction cutString quote text with
  | case1 => exact .nil
  | case2 => exact .nil
  | case3 => exact .nil
  | case4 c rest _ ih => exact .escape c ih
  | case5 => exact .nil
  | case6 c rest last escape other ih => exact .plain (ne_backslash last escape) other ih

theorem wordToken_ne_symbol (word : String) (sign : Symbol) : wordToken word ≠ .symbol sign := by
  unfold wordToken
  split <;> nofun

def Cut.IsSpelled (c : Char) (cut : Cut) : Prop := ∀ token, cut.kind = .token token → Spells token (c :: cut.tail)

theorem isSpelled_shortPiece (c : Char) (rest : List Char) : (shortPiece c rest).IsSpelled c := by
  unfold shortPiece
  split
  · rename_i sign found
    rintro _ ⟨⟩
    exact text_of_symbolOf? found ▸ .symbol sign
  · nofun

theorem isSpelled_symbolPiece (c : Char) (rest : List Char) : (symbolPiece c rest).IsSpelled c := by
  unfold symbolPiece
  split
  · exact isSpelled_shortPiece c []
  · split
    · rintro _ ⟨⟩
    · split
      · rename_i sign found
        rintro _ ⟨⟩
        exact text_of_symbolOf? found ▸ .symbol sign
      · exact isSpelled_shortPiece c _

theorem isSpelled_stringPiece {c : Char} (quotes : isQuote c) (rest : List Char) : (stringPiece c rest).IsSpelled c := by
  have quoted : Quoted c (cutString c rest).1 := quoted_cutString rest
  unfold stringPiece
  split
  · rename_i inner q after cut
    rw [cut] at quoted
    split
    · rename_i same
      rintro _ ⟨⟩
      rw [same]
      exact .string quotes quoted
    · nofun
  · nofun

theorem isWordChar_of_isNamePart {c : Char} (part : isNamePart c) : isWordChar c := by
  simp only [isNamePart, Bool.or_eq_true, decide_eq_true_eq] at part
  rcases part with part | rfl
  · simp [isWordChar, part]
  · decide

theorem isWordChar_of_isNameStart {c : Char} (start : isNameStart c) : isWordChar c := by
  simp only [isNameStart, Bool.or_eq_true, decide_eq_true_eq] at start
  rcases start with start | rfl
  · simp [isWordChar, Char.isAlphanum, start]
  · decide

theorem isWordChar_of_isDigit {c : Char} (digit : c.isDigit) : isWordChar c := by
  simp [isWordChar, Char.isAlphanum, digit]

theorem isWordChar_of_mem_takeWhile {p : Char → Bool} (words : ∀ c, p c → isWordChar c) {text : List Char} :
    ∀ c ∈ text.takeWhile p, isWordChar c :=
  fun c member => words c (List.all_eq_true.mp List.all_takeWhile c member)

theorem isSpelled_numberPiece {c : Char} {tail : List Char} (digits : ∀ d ∈ c :: tail, isWordChar d)
    (whole after : List Char) : (numberPiece whole tail after).IsSpelled c := by
  have integer (rest : List Char) : (Cut.mk (integerKind whole) tail rest).IsSpelled c := by
    intro token kind
    dsimp only [integerKind] at kind
    split at kind
    · cases kind
      exact .word nofun digits
    · cases kind
  unfold numberPiece
  split
  · rename_i d more
    split
    · rename_i fraction
      rintro _ ⟨⟩
      refine .word nofun ?_
      rw [← List.cons_append]
      intro e member
      rcases List.mem_append.mp member with inWhole | inFraction
      · exact digits e inWhole
      rcases List.mem_cons.mp inFraction with rfl | inFraction
      · decide
      rcases List.mem_cons.mp inFraction with rfl | inFraction
      · exact isWordChar_of_isDigit fraction
      · exact isWordChar_of_mem_takeWhile (fun _ => isWordChar_of_isDigit) e inFraction
    · exact integer _
  · exact integer _

theorem isSpelled_nextPiece (c : Char) (rest : List Char) : (nextPiece c rest).IsSpelled c := by
  unfold nextPiece
  split
  · nofun
  split
  · rename_i start
    rintro _ ⟨⟩
    exact .word (wordToken_ne_symbol _) (List.forall_mem_cons.mpr
      ⟨isWordChar_of_isNameStart start, isWordChar_of_mem_takeWhile fun _ => isWordChar_of_isNamePart⟩)
  split
  · rename_i digit
    exact isSpelled_numberPiece (List.forall_mem_cons.mpr
      ⟨isWordChar_of_isDigit digit, isWordChar_of_mem_takeWhile fun _ => isWordChar_of_isDigit⟩) _ _
  split
  · rename_i quotes
    exact isSpelled_stringPiece (by simpa [isQuote, or_comm] using quotes) rest
  · exact isSpelled_symbolPiece c rest

/-- The pieces of a text show what their tokens are. -/
theorem spells_of_mem_pieces {text : List Char} :
    ∀ piece ∈ pieces text, ∀ token, piece.kind = .token token → Spells token piece.text := by
  induction text using pieces.induct with
  | case1 => simp [pieces]
  | case2 c rest ih =>
    rw [pieces, List.forall_mem_cons]
    exact ⟨isSpelled_nextPiece c rest, ih⟩

/-! ### Balanced tokens, paired texts -/

structure Clean (ps : List Piece) : Prop where
  spelled : ∀ piece ∈ ps, ∀ token, piece.kind = .token token → Spells token piece.text
  lexed : ∀ piece ∈ ps, ¬ piece.kind.isBad
  blank : ∀ piece ∈ ps, piece.kind.isSkipped → ∀ c ∈ piece.text, isSpace c

theorem Clean.part {first ps : List Piece} (clean : Clean ps) (part : first <:+: ps) : Clean first where
  spelled piece member := clean.spelled piece (part.mem member)
  lexed piece member := clean.lexed piece (part.mem member)
  blank piece member := clean.blank piece (part.mem member)

@[simp] theorem tokensIn_append (first rest : List Piece) : tokensIn (first ++ rest) = tokensIn first ++ tokensIn rest := by
  simp [tokensIn]

theorem tokensIn_cons {piece : Piece} {token : Token} (kind : piece.kind = .token token) (rest : List Piece) :
    tokensIn (piece :: rest) = token :: tokensIn rest := by
  simp [tokensIn, kind, PieceKind.token?]

theorem exists_of_tokensIn {ps : List Piece} (before : List Token) {after : List Token} {token : Token}
    (tokens : tokensIn ps = before ++ token :: after) :
    ∃ front piece rest, ps = front ++ piece :: rest ∧ tokensIn front = before ∧ piece.kind = .token token ∧
      tokensIn rest = after := by
  rw [tokensIn, List.filterMap_map, List.filterMap_eq_append_iff] at tokens
  obtain ⟨first, second, rfl, front, tokens⟩ := tokens
  obtain ⟨blanks, piece, rest, rfl, none, found, after⟩ := List.filterMap_eq_cons_iff.mp tokens
  refine ⟨first ++ blanks, piece, rest, by simp, ?_, ?_, ?_⟩
  · rw [tokensIn, List.filterMap_map, List.filterMap_append, front, List.filterMap_eq_nil_iff.mpr none, List.append_nil]
  · cases kind : piece.kind with
    | token t =>
      rw [Function.comp, kind] at found
      cases found
      rfl
    | _ =>
      rw [Function.comp, kind] at found
      cases found
  · rw [tokensIn, List.filterMap_map, after]

theorem count_of_mem_bracketPairs {opening closing : Symbol} (pair : (opening, closing) ∈ bracketPairs) :
    (Token.symbol opening).isOpening ∧ ¬ (Token.symbol opening).isClosing ∧
      ¬ (Token.symbol closing).isOpening ∧ (Token.symbol closing).isClosing := by
  simp only [bracketPairs, List.mem_cons, Prod.mk.injEq, List.not_mem_nil, or_false] at pair
  rcases pair with ⟨rfl, rfl⟩ | ⟨rfl, rfl⟩ <;> decide

theorem Token.isPlain_iff {token : Token} {enclosed : Bool} :
    token.isPlain enclosed ↔
      ¬ token.isOpening ∧ ¬ token.isClosing ∧ (enclosed ∨ token ≠ .symbol .comma) := by
  cases token with
  | symbol sign => cases sign <;> simp [Token.isPlain, Token.isOpening, Token.isClosing]
  | _ => simp [Token.isPlain, Token.isOpening, Token.isClosing]

theorem Balanced.countP_eq {enclosed : Bool} {tokens : List Token} (balanced : Balanced enclosed tokens) :
    tokens.countP Token.isClosing = tokens.countP Token.isOpening := by
  induction balanced with
  | nil => rfl
  | plain plain _ ih =>
    obtain ⟨notOpening, notClosing, -⟩ := Token.isPlain_iff.mp plain
    rw [List.countP_cons_of_neg notOpening, List.countP_cons_of_neg notClosing, ih]
  | group pair _ _ ih ih' =>
    obtain ⟨opens, notCloses, notOpens, closes⟩ := count_of_mem_bracketPairs pair
    rw [List.countP_cons_of_neg notCloses, List.countP_cons_of_pos opens, List.countP_append, List.countP_append,
      List.countP_cons_of_pos closes, List.countP_cons_of_neg notOpens, ih, ih']
    omega

theorem BlanksEnclosed.of_append {first rest : List Piece} (enclosed : BlanksEnclosed (first ++ rest))
    (even : (tokensIn first).countP Token.isClosing = (tokensIn first).countP Token.isOpening) : BlanksEnclosed rest := by
  rintro ⟨i, below⟩ skipped
  have deep := enclosed ⟨first.length + i, by rw [List.length_append]; omega⟩ (by simpa using skipped)
  simp only [List.take_length_add_append, tokensIn_append, List.countP_append] at deep
  exact Nat.lt_of_add_lt_add_left (even ▸ deep)

section

variable {bars : Char → Bool}

theorem isBlank_of_isSpace {c : Char} (space : isSpace c) : Text.isBlank c := by
  simp only [isSpace, Bool.or_eq_true, decide_eq_true_eq] at space
  rcases space with (((rfl | rfl) | rfl) | rfl) | code
  · decide
  · decide
  · decide
  · decide
  · simp [Text.isBlank, code]

def BlanksFit (bars : Char → Bool) (enclosed : Bool) (ps : List Piece) : Prop :=
  enclosed ∨ (∀ c, isSpace c → bars c = false) ∨ BlanksEnclosed ps

theorem BlanksFit.of_append {enclosed : Bool} {first rest : List Piece} (fit : BlanksFit bars enclosed (first ++ rest))
    (even : (tokensIn first).countP Token.isClosing = (tokensIn first).countP Token.isOpening) :
    BlanksFit bars enclosed rest :=
  fit.imp_right (Or.imp_right fun blanks => blanks.of_append even)

theorem isSkipped_of_tokensIn {ps : List Piece} (clean : Clean ps) (none : tokensIn ps = []) :
    ∀ piece ∈ ps, piece.kind.isSkipped := by
  intro piece member
  have lexed := clean.lexed piece member
  rw [tokensIn, List.filterMap_map, List.filterMap_eq_nil_iff] at none
  have noToken := none piece member
  cases kind : piece.kind with
  | token t => simp [kind, PieceKind.token?] at noToken
  | skipped => rfl
  | bad => simp [kind, PieceKind.isBad] at lexed

theorem isSpace_of_tokensIn {ps : List Piece} (clean : Clean ps) (none : tokensIn ps = []) :
    ∀ c ∈ ps.flatMap Piece.text, isSpace c := by
  intro c member
  obtain ⟨piece, inside, here⟩ := List.mem_flatMap.mp member
  exact clean.blank piece inside (isSkipped_of_tokensIn clean none piece inside) c here

theorem paired_blanks {enclosed : Bool} {ps : List Piece} (clean : Clean ps) (rest : List Piece) (none : tokensIn ps = [])
    (fit : BlanksFit bars enclosed (ps ++ rest)) : Paired bars enclosed (ps.flatMap Piece.text) := by
  have spaces := isSpace_of_tokensIn clean none
  refine Paired.of_solid (fun c member => Template.isSolid_of_isBlank (isBlank_of_isSpace (spaces c member))) fun c member => ?_
  rcases fit with inside | free | enclosed
  · exact .inl inside
  · exact .inr (free c (spaces c member))
  · -- The first blank would stand behind no bracket.
    cases ps with
    | nil => cases member
    | cons piece more =>
      have skipped := isSkipped_of_tokensIn clean none piece List.mem_cons_self
      have deep := enclosed ⟨0, Nat.succ_pos _⟩ skipped
      simp [tokensIn] at deep

theorem paired_token {enclosed : Bool} {token : Token} {text : List Char}
    (bound : ∀ c, bars c → c = ',' ∨ Text.isBlank c) (spells : Spells token text) (plain : token.isPlain enclosed) :
    Paired bars enclosed text := by
  -- What is barred is a comma or blank, and only a comma is visible.
  have free {c : Char} (visible : isVisible c) (other : c ≠ ',') : bars c = false := by
    cases bar : bars c with
    | false => rfl
    | true =>
      rcases bound c bar with comma | blank
      · exact absurd comma other
      · rw [isBlank_of_isVisible visible] at blank
        cases blank
  cases spells with
  | word _ parts =>
    exact .of_solid (fun c member => (plain_of_isWordChar (parts c member)).1) fun c member =>
      .inr (free (plain_of_isWordChar (parts c member)).2.1 (plain_of_isWordChar (parts c member)).2.2)
  | string quotes inside => exact .string quotes inside .nil
  | symbol sign =>
    obtain ⟨notOpening, notClosing, comma⟩ := Token.isPlain_iff.mp plain
    have solid : ∀ c ∈ sign.text.toList, isSolid c := by
      cases sign <;> first | exact absurd rfl notOpening | exact absurd rfl notClosing | decide
    have visible : ∀ c ∈ sign.text.toList, isVisible c := by
      cases sign <;> decide
    have others : sign ≠ .comma → ∀ c ∈ sign.text.toList, c ≠ ',' := by
      cases sign <;> simp [Symbol.text]
    refine .of_solid solid fun c member => comma.imp_right fun other => ?_
    exact free (visible c member) (others (fun same => other (same ▸ rfl)) c member)

theorem exists_of_mem_bracketPairs {opening closing : Symbol} (pair : (opening, closing) ∈ bracketPairs)
    {first second : List Char} (spells : Spells (.symbol opening) first) (spells' : Spells (.symbol closing) second) :
    ∃ c d, first = [c] ∧ second = [d] ∧ Template.closingOf? c = some d := by
  have text {sign : Symbol} {text : List Char} (spells : Spells (.symbol sign) text) : text = sign.text.toList := by
    cases spells with
    | word other => exact absurd rfl (other sign)
    | symbol => rfl
  simp only [bracketPairs, List.mem_cons, Prod.mk.injEq, List.not_mem_nil, or_false] at pair
  rcases pair with ⟨rfl, rfl⟩ | ⟨rfl, rfl⟩
  · exact ⟨'(', ')', text spells, text spells', rfl⟩
  · exact ⟨'[', ']', text spells, text spells', rfl⟩

/-- The text of balanced tokens is paired. -/
theorem Balanced.paired (bound : ∀ c, bars c → c = ',' ∨ Text.isBlank c) {enclosed : Bool} {tokens : List Token}
    (balanced : Balanced enclosed tokens) {ps : List Piece} (clean : Clean ps) (same : tokensIn ps = tokens)
    (fit : BlanksFit bars enclosed ps) : Paired bars enclosed (ps.flatMap Piece.text) := by
  -- The induction is on the brackets of the tokens. What stands in front of each token are pieces without one.
  induction balanced generalizing ps with
  | nil => exact paired_blanks clean [] same (by rwa [List.append_nil])
  | @plain enclosed token rest plain after ih =>
    obtain ⟨blanks, piece, more, rfl, none, kind, same⟩ := exists_of_tokensIn [] same
    obtain ⟨notOpening, notClosing, -⟩ := Token.isPlain_iff.mp plain
    have whole : blanks ++ piece :: more = (blanks ++ [piece]) ++ more := by simp
    have tokens : tokensIn (blanks ++ [piece]) = [token] := by
      rw [tokensIn_append, none, tokensIn_cons kind]
      rfl
    have front : Paired bars enclosed (blanks.flatMap Piece.text) :=
      paired_blanks (clean.part ⟨[], _, rfl⟩) _ none fit
    have here : Paired bars enclosed piece.text := paired_token bound (clean.spelled piece (by simp) token kind) plain
    have behind : Paired bars enclosed (more.flatMap Piece.text) := by
      refine ih (clean.part ⟨blanks ++ [piece], [], by simp⟩) same ?_
      rw [whole] at fit
      exact fit.of_append (by simp [tokens, notOpening, notClosing])
    rw [List.flatMap_append, List.flatMap_cons]
    exact front.append (here.append behind)
  | @group enclosed opening closing inner rest pair inside after ih ih' =>
    obtain ⟨blanks, open_, more, rfl, none, kind, same⟩ := exists_of_tokensIn [] same
    obtain ⟨within, close, more, rfl, same, kind', same'⟩ := exists_of_tokensIn _ same
    have whole : blanks ++ open_ :: (within ++ close :: more) = (blanks ++ open_ :: (within ++ [close])) ++ more := by
      simp
    have tokens : tokensIn (blanks ++ open_ :: (within ++ [close])) = .symbol opening :: (inner ++ [.symbol closing]) := by
      rw [tokensIn_append, none, tokensIn_cons kind, tokensIn_append, same, tokensIn_cons kind']
      rfl
    have front : Paired bars enclosed (blanks.flatMap Piece.text) :=
      paired_blanks (clean.part ⟨[], _, rfl⟩) _ none fit
    have middle : Paired bars true (within.flatMap Piece.text) :=
      ih (clean.part ⟨blanks ++ [open_], close :: more, by simp⟩) same (.inl rfl)
    have behind : Paired bars enclosed (more.flatMap Piece.text) := by
      refine ih' (clean.part ⟨blanks ++ open_ :: (within ++ [close]), [], by simp⟩) same' ?_
      rw [whole] at fit
      refine fit.of_append ?_
      rw [tokens]
      have here : Balanced true (.symbol opening :: (inner ++ [.symbol closing])) := .group pair inside .nil
      exact here.countP_eq
    obtain ⟨c, d, text, text', pair'⟩ := exists_of_mem_bracketPairs pair
      (clean.spelled open_ (by simp) _ kind) (clean.spelled close (by simp) _ kind')
    simp only [List.flatMap_append, List.flatMap_cons, text, text', List.singleton_append]
    exact front.append (.group pair' middle behind)

end

/-! ### The text of an expression -/

def BeginsWithString (text : List Char) : Prop :=
  ∃ value rest, (tokenize (String.ofList text)).1.map Lexeme.token = .string value :: rest

theorem readExpr_nil (scope : Scope) (e : Expr) : (readExpr scope []).outcome ≠ .ok e := by
  simp [readExpr, readLevel, operandLevel, readUnary, Reading.andThen, Reading.fail, Reading.refuse]

/-- A token begins with a visible character, and only a string with a quote. -/
theorem Spells.exists_front {token : Token} {text : List Char} (spells : Spells token text) :
    ∃ c tail, text = c :: tail ∧ isVisible c ∧ (isQuote c → ∃ value, token = .string value) := by
  cases spells with
  | @word _ c tail _ parts =>
    obtain ⟨solid, visible, -⟩ := plain_of_isWordChar (parts c List.mem_cons_self)
    exact ⟨c, tail, rfl, visible, fun quotes => by simp [isSolid, quotes] at solid⟩
  | @string value quote content quotes _ =>
    refine ⟨quote, content ++ [quote], rfl, ?_, fun _ => ⟨value, rfl⟩⟩
    rcases Template.quote_cases quotes with rfl | rfl <;> decide
  | symbol sign =>
    have some_ : sign.text.toList ≠ [] := by cases sign <;> decide
    have plain : ∀ c ∈ sign.text.toList, isVisible c ∧ ¬ isQuote c := by cases sign <;> decide
    obtain ⟨c, tail, text⟩ := List.exists_cons_of_ne_nil some_
    obtain ⟨visible, other⟩ := plain c (text ▸ List.mem_cons_self)
    exact ⟨c, tail, text, visible, fun quotes => absurd quotes other⟩

theorem Spells.exists_back {token : Token} {text : List Char} (spells : Spells token text) :
    ∃ front c, text = front ++ [c] ∧ isVisible c := by
  have last {text : List Char} (some_ : text ≠ []) (visible : ∀ c ∈ text, isVisible c) :
      ∃ front c, text = front ++ [c] ∧ isVisible c :=
    ⟨text.dropLast, text.getLast some_, (List.dropLast_concat_getLast some_).symm, visible _ (List.getLast_mem some_)⟩
  cases spells with
  | word _ parts => exact last (List.cons_ne_nil _ _) fun c member => (plain_of_isWordChar (parts c member)).2.1
  | @string value quote content quotes _ =>
    refine ⟨quote :: content, quote, rfl, ?_⟩
    rcases Template.quote_cases quotes with rfl | rfl <;> decide
  | symbol sign => exact last (by cases sign <;> decide) (by cases sign <;> decide)

theorem tokens_eq (text : List Char) :
    (tokenize (String.ofList text)).1.map Lexeme.token = tokensIn (pieces text) := by
  simp only [tokenize, tokens_placed, tokensIn, String.toList_ofList]

namespace Parses

variable {scope : Scope} {text : List Char} {e : Expr} {problems : List Problem}

theorem clean (parses : Parses scope text e problems) : Clean (pieces text) := by
  have lexes : (placed 0 (pieces (String.ofList text).toList)).filterMap lexError? = [] := parses.lexes
  rw [errors_placed, String.toList_ofList, List.forall_mem_map] at lexes
  exact ⟨spells_of_mem_pieces, lexes, parses.uncommented⟩

theorem balanced (parses : Parses scope text e problems) : Balanced false (tokensIn (pieces text)) := by
  rw [← tokens_eq]
  exact balanced_of_readExpr scope parses.reads parses.whole

theorem tokens_ne_nil (parses : Parses scope text e problems) : tokensIn (pieces text) ≠ [] := by
  intro none
  rw [← tokens_eq, List.map_eq_nil_iff] at none
  have reads := parses.reads
  rw [none] at reads
  exact readExpr_nil scope e reads

end Parses

namespace IsExpressionText

variable {scope : Scope} {text : List Char}

theorem parses (is : IsExpressionText scope text) : ∃ e problems, Parses scope text e problems := by
  obtain ⟨e, reads⟩ := is.reads
  exact ⟨e, _, is.lexes, is.uncommented, reads, rfl, is.whole⟩

theorem of_tokens {lexemes : List Lexeme} (tokens : tokenize (String.ofList text) = (lexemes, []))
    (line : '\n' ∉ text) (uncommented : ∀ piece ∈ pieces text, piece.kind.isSkipped → ∀ c ∈ piece.text, isSpace c)
    (reads : (readExpr scope lexemes).outcome.isOk) (whole : (readExpr scope lexemes).rest.isEmpty) :
    IsExpressionText scope text where
  line := line
  lexes := by rw [tokens]
  uncommented := uncommented
  reads := by
    rw [tokens]
    cases outcome : (readExpr scope lexemes).outcome with
    | ok e => exact ⟨e, rfl⟩
    | error fault =>
      rw [outcome] at reads
      cases reads
  whole := by
    rw [tokens]
    exact List.isEmpty_iff.mp whole

theorem paired (is : IsExpressionText scope text) {bars : Char → Bool} (bound : ∀ c, bars c → c = ',' ∨ Text.isBlank c)
    (fit : BlanksFit bars false (pieces text)) : Paired bars false text := by
  obtain ⟨e, problems, parses⟩ := is.parses
  have paired := parses.balanced.paired bound parses.clean rfl fit
  rwa [flatMap_pieces] at paired

/-- Behind the blanks in front of it, an expression begins with a visible character, and with a quote only where its
first token is a string. -/
theorem exists_front (is : IsExpressionText scope text) :
    ∃ c rest, Text.trimStart text = c :: rest ∧ Text.isBlank c = false ∧ (isQuote c → BeginsWithString text) := by
  obtain ⟨e, problems, parses⟩ := is.parses
  obtain ⟨token, others, tokens⟩ := List.exists_cons_of_ne_nil parses.tokens_ne_nil
  obtain ⟨blanks, piece, more, parts, none, kind, -⟩ := exists_of_tokensIn [] tokens
  have clean := parts ▸ parses.clean
  obtain ⟨c, tail, front, visible, quotes⟩ := (clean.spelled piece (by simp) token kind).exists_front
  have spaces := isSpace_of_tokensIn (clean.part ⟨[], _, rfl⟩) none
  have whole : text = blanks.flatMap Piece.text ++ (c :: (tail ++ more.flatMap Piece.text)) := by
    rw [← flatMap_pieces text, parts, List.flatMap_append, List.flatMap_cons, front, List.cons_append]
  refine ⟨c, tail ++ more.flatMap Piece.text, ?_, isBlank_of_isVisible visible, fun quote => ?_⟩
  · have blank : ∀ d ∈ blanks.flatMap Piece.text, Text.isBlank d := fun d member =>
      isBlank_of_isSpace (spaces d member)
    rw [whole, Text.trimStart_append_cons (isBlank_of_isVisible visible), Text.trimStart,
      List.dropWhile_eq_nil_iff.mpr blank, List.nil_append]
  · obtain ⟨value, rfl⟩ := quotes quote
    exact ⟨value, others, by rw [tokens_eq, tokens]⟩

theorem trim_ne_nil (is : IsExpressionText scope text) : Text.trim text ≠ [] := by
  obtain ⟨c, rest, front, visible, -⟩ := is.exists_front
  rw [Text.trim, front, Text.trimEnd_cons_visible visible]
  exact List.cons_ne_nil _ _

end IsExpressionText

end Stencil.Program
