import Stencil.Proofs.Program.Places
import Stencil.Proofs.Program.Surveys

/-! What reading a program text brings to light, block by block.

The declarations of units that leave no string open are blocks: each is lexed by itself and ends with its own
closing brace. So the account of a program is that of its blocks, one behind the other; and stretches that are
no token belong to a function of the block that they are in.
-/

set_option autoImplicit false

namespace Stencil.Program

/-! ### Blocks -/

/-- Whether a text is lexed the same whatever follows it. -/
def IsSeparate (text : List Char) : Prop :=
  ∀ offset more, solids offset (text ++ more) = solids offset text ++ solids (offset + byteLength text) more

/-- Whether there is nothing, or the head of a function comes first. -/
def IsHeaded (kinds : List PieceKind) : Prop :=
  kinds = [] ∨ ∃ name others, kinds = .token (.keyword .fn) :: .token (.name name) :: others

/-- A text of whole functions, each with its head and its closing brace, that leaves no string open. -/
structure IsBlock (text : List Char) : Prop where
  separate : IsSeparate text
  headed : IsHeaded (marks text)
  braced : marks text = [] ∨ (marks text).getLast? = some (.token (.symbol .closeBrace))

section

variable {first rest : List Char}

theorem isSeparate_of_closed (closed : ¬ leavesOpen first) : IsSeparate (first ++ ['\n']) := by
  intro offset more
  rw [List.append_assoc, List.singleton_append, solids_append_newline offset closed,
    solids_append_newline offset closed, solids_nil, List.append_nil]

theorem IsSeparate.append (a : IsSeparate first) (b : IsSeparate rest) : IsSeparate (first ++ rest) := by
  intro offset more
  rw [List.append_assoc, a, a, b, byteLength_append, List.append_assoc, Nat.add_assoc]

theorem IsSeparate.marks_append (separate : IsSeparate first) (rest : List Char) :
    marks (first ++ rest) = marks first ++ marks rest := by
  rw [← kinds_solids 0, separate, List.map_append, kinds_solids, kinds_solids]

theorem IsHeaded.append {a b : List PieceKind} (first : IsHeaded a) (rest : IsHeaded b) : IsHeaded (a ++ b) := by
  rcases first with rfl | ⟨name, others, rfl⟩
  · exact rest
  · exact .inr ⟨name, others ++ b, rfl⟩

theorem isBlock_nil : IsBlock [] :=
  ⟨fun offset more => by rw [solids_nil]; rfl, .inl marks_nil, .inl marks_nil⟩

theorem IsBlock.append (a : IsBlock first) (b : IsBlock rest) : IsBlock (first ++ rest) where
  separate := a.separate.append b.separate
  headed := by
    rw [a.separate.marks_append]
    exact a.headed.append b.headed
  braced := by
    rw [a.separate.marks_append, List.append_eq_nil_iff, List.getLast?_append]
    rcases b.braced with none | last
    · rw [none]
      simpa using a.braced
    · exact .inr (by rw [last, Option.some_or])

end

end Program

namespace CodeUnit

open Program

theorem isHeaded_declaration {unit : CodeUnit} (named : IsUnitName unit.name) (more : List Char) :
    IsHeaded (Program.marks (unit.declaration.toList ++ more)) :=
  .inr ⟨unit.name, _, unit.marks_declaration_source named more⟩

theorem isSeparate_declaration {unit : CodeUnit} (named : IsUnitName unit.name)
    (closed : ¬ leavesOpen unit.source.toList) : IsSeparate unit.declaration.toList := by
  obtain ⟨tail, name, parts⟩ := named
  let head := "\nfn _".toList ++ tail ++ "(model) -> ".toList ++ unit.kind.keyword.toList ++ [' ', '\x7b']
  have text : unit.declaration.toList =
      (head ++ '\n' :: ' ' :: ' ' :: ' ' :: ' ' :: (unit.source.toList ++ '\n' :: ['\x7d'])) ++ ['\n'] := by
    simp [head, declaration, name]
  -- Nothing of the head of a function begins a string.
  have plain : ∀ c ∈ head, c ≠ '"' ∧ c ≠ '\'' := by
    have words : ("\nfn _".toList ++ "(model) -> ".toList ++ unit.kind.keyword.toList ++ [' ', '\x7b']).all
        fun c => c ≠ '"' ∧ c ≠ '\'' := by
      cases unit.kind <;> rfl
    have parts : ∀ c ∈ tail, c ≠ '"' ∧ c ≠ '\'' := by
      intro c member
      have part := parts c member
      constructor <;> rintro rfl <;> cases part
    simp only [List.all_eq_true, List.mem_append, decide_eq_true_eq] at words
    simp only [head, List.mem_append]
    rintro c ((((start | name) | middle) | kind) | last)
    · exact words c (.inl (.inl (.inl start)))
    · exact parts c name
    · exact words c (.inl (.inl (.inr middle)))
    · exact words c (.inl (.inr kind))
    · exact words c (.inr last)
  rw [text]
  apply isSeparate_of_closed
  rw [leavesOpen_append_newline (not_leavesOpen_of_quoteless plain)]
  iterate 4 rw [leavesOpen_cons_space rfl]
  rw [leavesOpen_append_newline closed]
  exact not_leavesOpen_of_quoteless (by simp)

theorem isBlock_declaration {unit : CodeUnit} (named : IsUnitName unit.name)
    (closed : ¬ leavesOpen unit.source.toList) : IsBlock unit.declaration.toList where
  separate := isSeparate_declaration named closed
  headed := by
    rw [← List.append_nil unit.declaration.toList]
    exact isHeaded_declaration named []
  braced := by
    right
    rw [← List.append_nil unit.declaration.toList, marks_declaration named closed, marks_nil, List.append_nil,
      CodeUnit.marks, ← List.append_assoc, List.getLast?_concat]

def declarations (units : List CodeUnit) : List Char := units.flatMap fun unit => unit.declaration.toList

theorem isBlock_declarations {units : List CodeUnit} (named : ∀ unit ∈ units, IsUnitName unit.name)
    (closed : ∀ unit ∈ units, ¬ leavesOpen unit.source.toList) : IsBlock (declarations units) := by
  induction units with
  | nil => exact isBlock_nil
  | cons unit rest ih =>
    have first := isBlock_declaration (named unit List.mem_cons_self) (closed unit List.mem_cons_self)
    exact first.append (ih (fun u member => named u (List.mem_cons_of_mem _ member))
      fun u member => closed u (List.mem_cons_of_mem _ member))

theorem isHeaded_declarations {units : List CodeUnit} (named : ∀ unit ∈ units, IsUnitName unit.name) :
    IsHeaded (Program.marks (declarations units)) := by
  cases units with
  | nil => exact .inl marks_nil
  | cons unit rest => exact isHeaded_declaration (named unit List.mem_cons_self) _

end CodeUnit

namespace Program

theorem not_leavesOpen_comment {words : List Char} (line : '\n' ∉ words) : ¬ leavesOpen ('/' :: '/' :: words) := by
  have plain : ∀ c ∈ words, decide (c ≠ '\n') = true := by
    intro c member
    apply decide_eq_true
    rintro rfl
    exact line member
  have cut : nextPiece '/' ('/' :: words) = ⟨.skipped, '/' :: words, []⟩ := by
    show symbolPiece '/' ('/' :: words) = _
    simp only [symbolPiece, and_self, if_true, List.takeWhile_eq_self_iff.mpr plain,
      List.dropWhile_eq_nil_iff.mpr plain]
  rw [leavesOpen_cons, cut, if_pos rfl]
  simp [PieceKind.isBad]

def header (modelType : String) : List Char := ("// generated by nhaml\n// model: " ++ modelType ++ "\n").toList

theorem isBlock_header {modelType : String} (line : '\n' ∉ modelType.toList) :
    IsBlock (header modelType) ∧ marks (header modelType) = [] := by
  have head : "// generated by nhaml\n// model: ".toList =
      '/' :: '/' :: (" generated by nhaml".toList ++ '\n' :: '/' :: '/' :: " model: ".toList) := by
    rfl
  have lineFeed : "\n".toList = ['\n'] := rfl
  have text : header modelType =
      ('/' :: '/' :: " generated by nhaml".toList ++
        '\n' :: '/' :: '/' :: (" model: ".toList ++ modelType.toList)) ++ ['\n'] := by
    simp [header, head, lineFeed]
  have generated : '\n' ∉ " generated by nhaml".toList := by decide
  have model : '\n' ∉ " model: ".toList ++ modelType.toList := by
    rw [List.mem_append, not_or]
    exact ⟨by decide, line⟩
  have none : marks (header modelType) = [] := by
    rw [text, List.append_assoc, List.cons_append, List.cons_append, List.cons_append, marks_comment _ generated]
    exact (marks_comment [] model).trans marks_nil
  refine ⟨⟨?_, .inl none, .inl none⟩, none⟩
  rw [text]
  apply isSeparate_of_closed
  rw [leavesOpen_append_newline (not_leavesOpen_comment generated)]
  exact not_leavesOpen_comment model

end Program

theorem UnitTable.toList_programText (table : UnitTable) :
    table.programText.toList = Program.header table.modelType ++ CodeUnit.declarations table.units := by
  have whole : table.programText = "// generated by nhaml\n// model: " ++ table.modelType ++ "\n" ++
      String.join (table.units.map CodeUnit.declaration) := rfl
  rw [whole, String.toList_append, String.toList_join, List.flatMap_map]
  rfl

theorem UnitTable.marks_programText_declarations {table : UnitTable} (line : '\n' ∉ table.modelType.toList) :
    Program.marks table.programText.toList = Program.marks (CodeUnit.declarations table.units) :=
  marks_programText line (List.nil_append table.units).symm (by simp) (by simp)

namespace Program

/-! ### Accounts -/

def lexemesOf (text : List Char) : List Lexeme := (solids 0 text).filterMap lexeme?

def errorsOf (text : List Char) : List LexError := (solids 0 text).filterMap lexError?

theorem tokenize_eq (source : String) : tokenize source = (lexemesOf source.toList, errorsOf source.toList) := by
  have keeps : ∀ all : List (Span × Piece),
      (all.filter fun at_ => !at_.2.kind.isSkipped).filterMap lexeme? = all.filterMap lexeme? ∧
        (all.filter fun at_ => !at_.2.kind.isSkipped).filterMap lexError? = all.filterMap lexError? := by
    intro all
    rw [List.filterMap_filter, List.filterMap_filter]
    constructor <;> congr 1 <;> funext ⟨span, kind, text⟩ <;> cases kind <;> rfl
  obtain ⟨lexemes, errors⟩ := keeps (placed 0 (pieces source.toList))
  rw [lexemesOf, errorsOf, solids, lexemes, errors]
  rfl

def LexError.move (distance : Nat) (e : LexError) : LexError := { e with span := e.span.move distance }

theorem lexeme?_movePiece (distance : Nat) (at_ : Span × Piece) :
    lexeme? (movePiece distance at_) = (lexeme? at_).map (Lexeme.move distance) := by
  obtain ⟨span, kind, text⟩ := at_
  cases kind <;> rfl

theorem lexError?_movePiece (distance : Nat) (at_ : Span × Piece) :
    lexError? (movePiece distance at_) = (lexError? at_).map (LexError.move distance) := by
  obtain ⟨span, kind, text⟩ := at_
  cases kind <;> rfl

section

variable {first rest : List Char}

theorem solids_append (separate : IsSeparate first) (rest : List Char) :
    solids 0 (first ++ rest) = solids 0 first ++ (solids 0 rest).map (movePiece (byteLength first)) := by
  rw [separate, solids_move]

theorem lexemesOf_append (separate : IsSeparate first) (rest : List Char) :
    lexemesOf (first ++ rest) = lexemesOf first ++ (lexemesOf rest).map (Lexeme.move (byteLength first)) := by
  rw [lexemesOf, solids_append separate, List.filterMap_append, List.filterMap_map, lexemesOf, lexemesOf,
    List.map_filterMap]
  congr 2
  funext at_
  exact lexeme?_movePiece _ at_

theorem errorsOf_append (separate : IsSeparate first) (rest : List Char) :
    errorsOf (first ++ rest) = errorsOf first ++ (errorsOf rest).map (LexError.move (byteLength first)) := by
  rw [errorsOf, solids_append separate, List.filterMap_append, List.filterMap_map, errorsOf, errorsOf,
    List.map_filterMap]
  congr 2
  funext at_
  exact lexError?_movePiece _ at_

theorem mem_solids_of_lexeme {text : List Char} {t : Lexeme} (member : t ∈ lexemesOf text) :
    ∃ at_ ∈ solids 0 text, at_.1 = t.span := by
  obtain ⟨at_, inside, is⟩ := List.mem_filterMap.mp member
  obtain ⟨span, kind, text⟩ := at_
  cases kind <;> cases is
  exact ⟨_, inside, rfl⟩

theorem mem_solids_of_error {text : List Char} {e : LexError} (member : e ∈ errorsOf text) :
    ∃ at_ ∈ solids 0 text, at_.1 = e.span := by
  obtain ⟨at_, inside, is⟩ := List.mem_filterMap.mp member
  obtain ⟨span, kind, text⟩ := at_
  cases kind <;> cases is
  exact ⟨_, inside, rfl⟩

theorem tokens_lexemesOf (text : List Char) : (lexemesOf text).map Lexeme.token = tokensOf (marks text) := by
  rw [lexemesOf, tokensOf, ← kinds_solids 0, List.map_filterMap, List.filterMap_map]
  congr 1
  funext entry
  obtain ⟨span, kind, text⟩ := entry
  cases kind <;> rfl

end

/-! ### Accounts -/

/-- All that reading a text brings to light: what the tokens tell, and the findings for the other stretches. -/
structure Account where
  survey : Survey
  strays : List Finding

namespace Account

def append (a b : Account) : Account := ⟨a.survey.append b.survey, a.strays ++ b.strays⟩

def move (distance : Nat) (a : Account) : Account :=
  ⟨a.survey.move distance, a.strays.map (Finding.move distance)⟩

def findings (a : Account) : List Finding := a.survey.findings ++ a.strays

theorem move_append (distance : Nat) (a b : Account) :
    (a.append b).move distance = (a.move distance).append (b.move distance) := by
  rw [append, move, Survey.append_move, List.map_append]
  rfl

theorem move_move (first second : Nat) (a : Account) : (a.move first).move second = a.move (first + second) := by
  have spans : Span.move second ∘ Span.move first = Span.move (first + second) := by
    funext span
    simp only [Function.comp_def, Span.move, Nat.add_assoc]
  have findings : Finding.move second ∘ Finding.move first = Finding.move (first + second) := by
    funext finding
    simp only [Function.comp_def, Finding.move, Fault.move, Option.map_map, ← spans]
  have declarations : Declaration.move second ∘ Declaration.move first = Declaration.move (first + second) := by
    funext d
    simp only [Function.comp_def, Declaration.move, ← spans]
  simp only [move, Survey.move, List.map_map, findings, declarations]
  simp only [Function.comp_def, Nat.add_assoc]

theorem append_empty (a : Account) : (⟨.empty, []⟩ : Account).append a = a := rfl

end Account

def accountOf (functions : List Function) (text : List Char) : Account :=
  let found := survey functions (lexemesOf text)
  ⟨found, (errorsOf text).map (lexFinding found.headers)⟩

section

variable {a b : List (String × Nat)} {offset : Nat}

theorem ownerAt?_append_of_le (behind : ∃ header ∈ b, header.2 ≤ offset) :
    ownerAt? (a ++ b) offset = ownerAt? b offset := by
  obtain ⟨header, member, le⟩ := behind
  have some : (b.reverse.find? fun h => h.2 ≤ offset).isSome := by
    rw [List.find?_isSome]
    exact ⟨header, List.mem_reverse.mpr member, by simpa using le⟩
  obtain ⟨found, is⟩ := Option.isSome_iff_exists.mp some
  rw [ownerAt?, ownerAt?, List.reverse_append, List.find?_append, is, Option.some_or]

theorem ownerAt?_append_of_lt (before : ∀ header ∈ b, offset < header.2) :
    ownerAt? (a ++ b) offset = ownerAt? a offset := by
  have none : (b.reverse.find? fun h => h.2 ≤ offset) = none := by
    rw [List.find?_eq_none]
    intro header member
    have := before header (List.mem_reverse.mp member)
    simpa using this
  rw [ownerAt?, ownerAt?, List.reverse_append, List.find?_append, none, Option.none_or]

theorem ownerAt?_move (distance : Nat) :
    ownerAt? (a.map fun (name, start) => (name, start + distance)) (offset + distance) = ownerAt? a offset := by
  rw [ownerAt?, ownerAt?, ← List.map_reverse, List.find?_map, Option.map_map]
  simp only [Function.comp_def, Nat.add_le_add_iff_right]

end

section

variable {functions : List Function} {first rest : List Char}

theorem Survey.move_zero (s : Survey) : s.move 0 = s := by
  have faults : Fault.move 0 = id := by
    funext ⟨span, problem⟩
    cases span <;> rfl
  have findings : Finding.move 0 = id := by
    funext finding
    rw [Finding.move, faults]
    rfl
  have declarations : Declaration.move 0 = id := rfl
  rw [Survey.move, findings, declarations, List.map_id, List.map_id]
  simp

theorem survey_move (functions : List Function) (distance : Nat) (tokens : List Lexeme) :
    survey functions (tokens.map (Lexeme.move distance)) = (survey functions tokens).move distance := by
  have moved : survey functions (onward distance [] tokens) =
      ((survey functions tokens).move distance).append (survey functions []) :=
    survey_onward functions distance nofun (.inr (.inl rfl))
  rw [onward, List.append_nil, survey.eq_def functions []] at moved
  simpa [Survey.append, Survey.empty] using moved

theorem IsBlock.sealed (block : IsBlock first) (more : List Lexeme) :
    lexemesOf first = [] ∨ Sealed more (lexemesOf first) := by
  have tokens := tokens_lexemesOf first
  rcases block.braced with none | last
  · left
    rw [none] at tokens
    exact List.map_eq_nil_iff.mp tokens
  · right
    obtain ⟨front, whole⟩ := List.getLast?_eq_some_iff.mp last
    rw [whole, tokensOf, List.filterMap_append] at tokens
    obtain ⟨front, back, whole, _, brace⟩ := List.map_eq_append_iff.mp tokens
    obtain ⟨t, none, rfl, closes, nil⟩ := List.map_eq_cons_iff.mp brace
    obtain rfl := List.map_eq_nil_iff.mp nil
    exact .inr ⟨t, by rw [whole, List.getLast?_concat], closes⟩

theorem IsHeaded.lexemes (headed : IsHeaded (marks rest)) :
    solids 0 rest = [] ∨ ∃ f n name others, solids 0 rest = f :: n :: others ∧
      lexemesOf rest = ⟨.keyword .fn, f.1⟩ :: ⟨.name name, n.1⟩ :: others.filterMap lexeme? := by
  rw [← kinds_solids 0] at headed
  rcases headed with none | ⟨name, kinds, whole⟩
  · exact .inl (List.map_eq_nil_iff.mp none)
  · obtain ⟨⟨fSpan, _, fText⟩, after, all, rfl, more⟩ := List.map_eq_cons_iff.mp whole
    obtain ⟨⟨nSpan, _, nText⟩, others, rfl, rfl, _⟩ := List.map_eq_cons_iff.mp more
    refine .inr ⟨_, _, name, others, all, ?_⟩
    rw [lexemesOf, all]
    rfl

theorem IsHeaded.startsFunction (headed : IsHeaded (marks rest)) (distance : Nat) :
    StartsFunction ((lexemesOf rest).map (Lexeme.move distance)) := by
  rcases headed.lexemes with none | ⟨f, n, name, others, _, whole⟩
  · rw [lexemesOf, none]
    exact nofun
  · rw [whole]
    rintro t ⟨⟩
    rfl

variable (functions) in
theorem IsHeaded.exists_header (headed : IsHeaded (marks rest)) {e : LexError} (member : e ∈ errorsOf rest) :
    ∃ header ∈ (survey functions (lexemesOf rest)).headers, header.2 ≤ e.span.start := by
  obtain ⟨at_, inside, same⟩ := mem_solids_of_error member
  rcases headed.lexemes with none | ⟨f, n, name, others, all, whole⟩
  · rw [none] at inside
    cases inside
  · have first : f.1.start ≤ at_.1.start := by
      have sorted := (solids_places 0 rest).1
      rw [all] at inside sorted
      rcases List.mem_cons.mp inside with rfl | later
      · exact Nat.le_refl _
      · exact List.rel_of_pairwise_cons sorted later
    refine ⟨(name, f.1.start), ?_, same ▸ first⟩
    rw [whole, survey_function functions _ rfl rfl]
    refine List.mem_append_left _ ?_
    unfold surveyOf
    dsimp only
    split <;> exact List.mem_cons_self

theorem survey_append (block : IsBlock first) (headed : IsHeaded (marks rest)) :
    survey functions (lexemesOf (first ++ rest)) =
      (survey functions (lexemesOf first)).append
        ((survey functions (lexemesOf rest)).move (byteLength first)) := by
  have next := headed.startsFunction (byteLength first)
  have whole := survey_onward functions 0 next (block.sealed _)
  have still : Lexeme.move 0 = id := rfl
  rw [onward, still, List.map_id, Survey.move_zero, survey_move] at whole
  rw [lexemesOf_append block.separate, whole]

/-- The account of a block with more behind it is that of the block and then that of the rest. -/
theorem accountOf_append (block : IsBlock first) (headed : IsHeaded (marks rest)) :
    accountOf functions (first ++ rest) =
      (accountOf functions first).append ((accountOf functions rest).move (byteLength first)) := by
  have front : ∀ e ∈ errorsOf first,
      lexFinding (survey functions (lexemesOf (first ++ rest))).headers e =
        lexFinding (survey functions (lexemesOf first)).headers e := by
    intro e member
    obtain ⟨at_, inside, same⟩ := mem_solids_of_error member
    have within := ((solids_places 0 first).2 at_ inside).2
    -- The functions of the rest begin behind the block.
    have before : ∀ header ∈ ((survey functions (lexemesOf rest)).move (byteLength first)).headers,
        e.span.start < header.2 := by
      simp only [Survey.move, List.mem_map]
      rintro _ ⟨header, _, rfl⟩
      rw [← same]
      dsimp only
      omega
    rw [survey_append block headed, lexFinding, lexFinding, Survey.append, ownerAt?_append_of_lt before]
  have back : ∀ e ∈ errorsOf rest,
      lexFinding (survey functions (lexemesOf (first ++ rest))).headers (e.move (byteLength first)) =
        (lexFinding (survey functions (lexemesOf rest)).headers e).move (byteLength first) := by
    intro e member
    obtain ⟨header, inside, le⟩ := headed.exists_header functions member
    have behind : ∃ header ∈ ((survey functions (lexemesOf rest)).move (byteLength first)).headers,
        header.2 ≤ (e.move (byteLength first)).span.start := by
      refine ⟨(header.1, header.2 + byteLength first), ?_, Nat.add_le_add_right le _⟩
      exact List.mem_map.mpr ⟨header, inside, rfl⟩
    rw [survey_append block headed, lexFinding, lexFinding, Survey.append, ownerAt?_append_of_le behind]
    have owner : ownerAt? ((survey functions (lexemesOf rest)).move (byteLength first)).headers
        (e.move (byteLength first)).span.start =
          ownerAt? (survey functions (lexemesOf rest)).headers e.span.start := ownerAt?_move _
    rw [owner]
    rfl
  unfold accountOf Account.append Account.move
  dsimp only
  rw [errorsOf_append block.separate, List.map_append, List.map_congr_left front, List.map_map, List.map_map,
    ← survey_append block headed]
  congr 2
  exact List.map_congr_left back

theorem accountOf_of_marks_nil {text : List Char} (none : marks text = []) :
    accountOf functions text = ⟨.empty, []⟩ := by
  rw [← kinds_solids 0, List.map_eq_nil_iff] at none
  rw [accountOf, lexemesOf, errorsOf, none, List.filterMap_nil, List.filterMap_nil, survey]
  rfl

/-- The findings of a text are about functions that it names, and at places of the text. -/
theorem finding_accountOf {text : List Char} {finding : Finding}
    (member : finding ∈ (accountOf functions text).findings) :
    (∀ unit ∈ finding.unit, unit ∈ namedIn text) ∧
      ∀ span ∈ finding.fault.span, span.start < byteLength text := by
  have stems := survey_stems functions (lexemesOf text)
  have names : ∀ unit ∈ (survey functions (lexemesOf text)).headers.map Prod.fst,
      unit ∈ namedIn text := by
    intro unit inside
    rw [namedIn, ← tokens_lexemesOf]
    exact stems.headers.subset inside
  rcases List.mem_append.mp member with found | stray
  · refine ⟨fun unit is => names unit (stems.found finding found unit is), fun span is => ?_⟩
    obtain ⟨t, inside, same⟩ := (stems.places finding found).place span is
    obtain ⟨at_, inside, place⟩ := mem_solids_of_lexeme inside
    rw [← same, ← place]
    exact ((solids_places 0 text).2 at_ inside).2.trans_eq (Nat.zero_add _)
  · -- A stray belongs to the last function that begins in front of it.
    obtain ⟨e, inside, rfl⟩ := List.mem_map.mp stray
    refine ⟨fun unit is => names unit ?_, ?_⟩
    · obtain ⟨header, found, rfl⟩ := Option.map_eq_some_iff.mp is
      exact List.mem_map_of_mem (List.mem_reverse.mp (List.mem_of_find?_eq_some found))
    · rintro span ⟨⟩
      obtain ⟨at_, inside, place⟩ := mem_solids_of_error inside
      rw [← place]
      exact ((solids_places 0 text).2 at_ inside).2.trans_eq (Nat.zero_add _)

theorem single_accountOf {text : List Char} {finding : Finding}
    (member : finding ∈ (accountOf functions text).findings) (name : String) :
    finding.fault.problem ≠ .duplicateFunction name := by
  rcases List.mem_append.mp member with found | stray
  · exact ((survey_stems functions (lexemesOf text)).places finding found).single name
  · obtain ⟨e, _, rfl⟩ := List.mem_map.mp stray
    intro same
    cases same

theorem declared_accountOf (functions : List Function) (text : List Char) :
    ((accountOf functions text).survey.declarations.map Declaration.name).Sublist (namedIn text) := by
  have stems := survey_stems functions (lexemesOf text)
  rw [namedIn, ← tokens_lexemesOf]
  exact stems.declared.trans stems.headers

end

end Program

end Stencil
