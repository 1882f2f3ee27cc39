import Stencil.Proofs.Program.Lexing
import Stencil.Proofs.Units

/-! The tokens of the program text of a batch.

Each unit gives the tokens of a function's head, those of its code as they are when the code is lexed alone,
and a closing brace. It takes a unit that leaves no string open and a name that is lexed as a name.
-/

set_option autoImplicit false

namespace Stencil

namespace Program

theorem isSpace_of_isNameStart {c : Char} (start : isNameStart c) : isSpace c = false := by
  cases space : isSpace c with
  | false => rfl
  | true =>
    simp only [isSpace, Bool.or_eq_true, decide_eq_true_eq] at space
    rcases space with (((rfl | rfl) | rfl) | rfl) | code
    · cases start
    · cases start
    · cases start
    · cases start
    · have same : c = '\x0c' := Char.ext (UInt32.toNat_inj.mp code)
      rw [same] at start
      cases start

def bracket? : Char → Option Symbol
  | '(' => some .openParen
  | ')' => some .closeParen
  | '\x7b' => some .openBrace
  | '\x7d' => some .closeBrace
  | _ => none

theorem marks_bracket (c : Char) (rest : List Char) {sign : Symbol} (bracket : bracket? c = some sign) :
    marks (c :: rest) = .token (.symbol sign) :: marks rest := by
  unfold bracket? at bracket
  split at bracket <;> cases bracket <;> rw [marks_cons] <;> cases rest <;> rfl

section

variable (rest : List Char)

theorem marks_word {c stop : Char} {tail : List Char} (start : isNameStart c)
    (parts : ∀ d ∈ tail, isNamePart d) (stops : isNamePart stop = false) :
    marks (c :: (tail ++ stop :: rest)) =
      .token (wordToken (String.ofList (c :: tail))) :: marks (stop :: rest) := by
  have cut : nextPiece c (tail ++ stop :: rest) =
      ⟨.token (wordToken (String.ofList (c :: tail))), tail, stop :: rest⟩ := by
    simp only [nextPiece, isSpace_of_isNameStart start, start, Bool.false_eq_true, if_false, if_true,
      cutWhile, List.takeWhile_append_of_pos parts, List.dropWhile_append_of_pos parts,
      List.takeWhile_cons, List.dropWhile_cons, stops, List.append_nil]
  rw [marks_cons, cut]
  rfl

theorem marks_arrow : marks ('-' :: '>' :: rest) = .token (.symbol .arrow) :: marks rest := by
  rw [marks_cons]
  rfl

theorem marks_comment {words : List Char} (line : '\n' ∉ words) :
    marks ('/' :: '/' :: (words ++ '\n' :: rest)) = marks rest := by
  have plain : ∀ c ∈ words, decide (c ≠ '\n') = true := by
    intro c member
    apply decide_eq_true
    rintro rfl
    exact line member
  have cut : nextPiece '/' ('/' :: (words ++ '\n' :: rest)) = ⟨.skipped, '/' :: words, '\n' :: rest⟩ := by
    show symbolPiece '/' ('/' :: (words ++ '\n' :: rest)) = _
    simp only [symbolPiece, and_self, if_true, List.takeWhile_append_of_pos plain,
      List.dropWhile_append_of_pos plain]
    simp
  rw [marks_cons, cut, marks_cons_space rfl]
  rfl

/-- Names of units begin with an underscore, so that none of them is a keyword. -/
theorem wordToken_underscore (tail : List Char) :
    wordToken (String.ofList ('_' :: tail)) = .name (String.ofList ('_' :: tail)) := by
  have plain : Keyword.ofText? (String.ofList ('_' :: tail)) = none := by
    rw [Keyword.ofText?, List.find?_eq_none]
    intro word _ same
    -- No keyword begins with an underscore.
    have same := congrArg String.toList (of_decide_eq_true same)
    rw [String.toList_ofList] at same
    cases word <;> cases same
  rw [wordToken, plain]

end

end Program

namespace CodeUnit

open Program

def head (unit : CodeUnit) : List Token :=
  [.keyword .fn, .name unit.name, .symbol .openParen, .name "model", .symbol .closeParen, .symbol .arrow,
    .name unit.kind.keyword, .symbol .openBrace]

def marks (unit : CodeUnit) : List PieceKind :=
  unit.head.map .token ++ (Program.marks unit.source.toList ++ [.token (.symbol .closeBrace)])

/-- The head of a unit's declaration is lexed by itself, whatever the unit's code holds. -/
theorem marks_declaration_source {unit : CodeUnit} (named : IsUnitName unit.name) (more : List Char) :
    Program.marks (unit.declaration.toList ++ more) =
      unit.head.map .token ++ Program.marks (unit.source.toList ++ '\n' :: '\x7d' :: '\n' :: more) := by
  obtain ⟨tail, name, parts⟩ := named
  have text : unit.declaration.toList ++ more =
      '\n' :: 'f' :: (['n'] ++ ' ' :: '_' :: (tail ++ '(' :: 'm' :: (['o', 'd', 'e', 'l'] ++ ')' :: ' ' ::
        '-' :: '>' :: ' ' :: (unit.kind.keyword.toList ++ ' ' :: '\x7b' :: '\n' :: ' ' :: ' ' :: ' ' :: ' ' ::
          (unit.source.toList ++ '\n' :: '\x7d' :: '\n' :: more))))) := by
    simp [declaration, name]
  -- The word for the kind is the only part of the head that is neither fixed nor a name.
  have kind : Program.marks (unit.kind.keyword.toList ++ ' ' :: '\x7b' :: '\n' :: ' ' :: ' ' :: ' ' :: ' ' ::
      (unit.source.toList ++ '\n' :: '\x7d' :: '\n' :: more)) =
      .token (.name unit.kind.keyword) :: .token (.symbol .openBrace) ::
        Program.marks (unit.source.toList ++ '\n' :: '\x7d' :: '\n' :: more) := by
    have word : ∀ c tail rest, isNameStart c → (∀ d ∈ tail, isNamePart d) →
        Program.marks (c :: (tail ++ ' ' :: '\x7b' :: '\n' :: ' ' :: ' ' :: ' ' :: ' ' :: rest)) =
          .token (wordToken (String.ofList (c :: tail))) :: .token (.symbol .openBrace) ::
            Program.marks rest := by
      intro c tail rest start parts
      rw [marks_word _ start parts rfl, marks_cons_space rfl, marks_bracket '\x7b' _ rfl]
      iterate 5 rw [marks_cons_space rfl]
    cases unit.kind with
    | text => exact word 't' ['e', 'x', 't'] _ rfl (List.all_eq_true.mp rfl)
    | boolean => exact word 'b' ['o', 'o', 'l'] _ rfl (List.all_eq_true.mp rfl)
  rw [text, marks_cons_space rfl, marks_word _ rfl (List.all_eq_true.mp rfl) rfl, marks_cons_space rfl,
    marks_word _ rfl parts rfl, marks_bracket '(' _ rfl, marks_word _ rfl (List.all_eq_true.mp rfl) rfl,
    marks_bracket ')' _ rfl, marks_cons_space rfl, marks_arrow, marks_cons_space rfl, kind,
    wordToken_underscore, ← name, String.ofList_toList]
  rfl

theorem marks_declaration {unit : CodeUnit} (named : IsUnitName unit.name)
    (closed : ¬ leavesOpen unit.source.toList) (more : List Char) :
    Program.marks (unit.declaration.toList ++ more) = unit.marks ++ Program.marks more := by
  rw [marks_declaration_source named, marks_append_newline closed, marks_bracket '\x7d' _ rfl,
    marks_cons_space rfl, CodeUnit.marks, List.append_assoc, List.append_assoc, List.singleton_append]

end CodeUnit

namespace UnitTable

open Program

/-- The tokens of the program text are those of the units, from the first on, up to a unit that leaves a
string open. -/
theorem marks_programText {table : UnitTable} (line : '\n' ∉ table.modelType.toList)
    {first rest : List CodeUnit} (units : table.units = first ++ rest)
    (named : ∀ unit ∈ first, IsUnitName unit.name)
    (closed : ∀ unit ∈ first, ¬ leavesOpen unit.source.toList) :
    Program.marks table.programText.toList =
      first.flatMap CodeUnit.marks ++ Program.marks (rest.flatMap fun unit => unit.declaration.toList) := by
  have declarations : ∀ more, Program.marks ((first.flatMap fun unit => unit.declaration.toList) ++ more) =
      first.flatMap CodeUnit.marks ++ Program.marks more := by
    intro more
    -- The induction is on the units in front; that they are those of the table holds of none but all of them.
    clear units
    induction first with
    | nil => rfl
    | cons unit others ih =>
      have ih := ih (fun u member => named u (List.mem_cons_of_mem _ member))
        (fun u member => closed u (List.mem_cons_of_mem _ member))
      rw [List.flatMap_cons, List.append_assoc,
        CodeUnit.marks_declaration (named unit List.mem_cons_self) (closed unit List.mem_cons_self), ih,
        List.flatMap_cons, List.append_assoc]
  have head : "// generated by nhaml\n// model: ".toList =
      '/' :: '/' :: (" generated by nhaml".toList ++ '\n' :: '/' :: '/' :: " model: ".toList) := by
    rfl
  have lineFeed : "\n".toList = ['\n'] := rfl
  have text : table.programText.toList =
      '/' :: '/' :: (" generated by nhaml".toList ++ '\n' :: '/' :: '/' ::
        ((" model: ".toList ++ table.modelType.toList) ++ '\n' ::
          ((first.flatMap fun unit => unit.declaration.toList) ++
            rest.flatMap fun unit => unit.declaration.toList))) := by
    have whole : table.programText = "// generated by nhaml\n// model: " ++ table.modelType ++ "\n" ++
        String.join (table.units.map CodeUnit.declaration) := rfl
    simp only [whole, units, String.toList_append, String.toList_join, head, lineFeed,
      List.flatMap_map, List.flatMap_append, List.cons_append, List.nil_append, List.append_assoc]
  have generated : '\n' ∉ " generated by nhaml".toList := by decide
  have model : '\n' ∉ " model: ".toList ++ table.modelType.toList := by
    rw [List.mem_append, not_or]
    exact ⟨by decide, line⟩
  rw [text, marks_comment _ generated, marks_comment _ model, declarations]

end UnitTable

namespace Program

section

variable (offset : Nat) (cut : List Piece)

theorem tokens_placed :
    ((placed offset cut).filterMap lexeme?).map Lexeme.token =
      (cut.map Piece.kind).filterMap PieceKind.token? := by
  induction cut generalizing offset with
  | nil => rfl
  | cons piece rest ih =>
    obtain ⟨kind, text⟩ := piece
    cases kind <;>
      simp only [placed, List.map_cons, List.filterMap_cons, lexeme?, PieceKind.token?, ih]

theorem errors_placed :
    (placed offset cut).filterMap lexError? = [] ↔ ∀ kind ∈ cut.map Piece.kind, ¬ kind.isBad := by
  induction cut generalizing offset with
  | nil => simp [placed]
  | cons piece rest ih =>
    obtain ⟨kind, text⟩ := piece
    rw [List.map_cons, List.forall_mem_cons]
    cases kind with
    | bad => simp [placed, lexError?, PieceKind.isBad]
    | _ =>
      simp only [placed, List.filterMap_cons, lexError?, ih]
      simp [PieceKind.isBad]

end

def tokensOf (marks : List PieceKind) : List Token := marks.filterMap PieceKind.token?

theorem tokens_tokenize (source : String) :
    (tokenize source).1.map Lexeme.token = tokensOf (marks source.toList) := by
  simp only [tokenize, tokens_placed, tokensOf, marks, List.filterMap_filter]
  congr 1
  funext kind
  cases kind <;> rfl

theorem errors_tokenize (source : String) :
    (tokenize source).2 = [] ↔ ∀ kind ∈ marks source.toList, ¬ kind.isBad := by
  simp only [tokenize, errors_placed, marks, List.mem_filter]
  constructor
  · intro clean kind member
    exact clean kind member.1
  · intro clean kind member bad
    refine clean kind ⟨member, ?_⟩ bad
    cases kind <;> first | rfl | cases bad

end Program

end Stencil
