import Mathlib.Algebra.Order.Ring.Nat
import Stencil.Proofs.Program.Messages
import Stencil.Report

/-! The place that a report points to.

A diagnostic knows its place in bytes, and a report takes it for a number of characters. So the report of a problem
points to its first character just where nothing in front of it is longer than a byte.
-/

set_option autoImplicit false

namespace Stencil

open Program

/-! ### Lines and columns -/

/-- The line and the column behind a text that begins at a place; a carriage return and a line feed behind it are one
end of a line. -/
def placeBehind : (line column : Nat) → List Char → Nat × Nat
  | line, column, [] => (line, column)
  | line, _, '\r' :: '\n' :: rest => placeBehind (line + 1) 1 rest
  | line, column, c :: rest =>
    if endsLine c then placeBehind (line + 1) 1 rest else placeBehind line (column + 1) rest

/-- Whether line feeds end all the lines of a text, carriage returns only right in front of them. -/
def LineFed : List Char → Prop
  | [] => True
  | '\r' :: '\n' :: rest => LineFed rest
  | c :: rest => (endsLine c → c = '\n') ∧ LineFed rest

/-- Whether no character is longer than a byte. -/
def IsAscii (text : List Char) : Prop := ∀ c ∈ text, c.toNat < 128

section

variable {c : Char} {rest : List Char} (alone : ∀ behind, c = '\r' → rest = '\n' :: behind → False)

include alone

theorem lineLengths_cons (current : Nat) :
    lineLengths current (c :: rest) =
      if endsLine c then (current + 1) :: lineLengths 0 rest else lineLengths (current + 1) rest := by
  rw [lineLengths]
  exact alone

theorem placeBehind_cons (line column : Nat) :
    placeBehind line column (c :: rest) =
      if endsLine c then placeBehind (line + 1) 1 rest else placeBehind line (column + 1) rest := by
  rw [placeBehind]
  exact alone

theorem lineFed_cons : LineFed (c :: rest) ↔ (endsLine c → c = '\n') ∧ LineFed rest := by
  rw [LineFed]
  exact alone

end

theorem lineLengths_ne_nil {current : Nat} {text : List Char} (some : 0 < current ∨ text ≠ []) :
    lineLengths current text ≠ [] := by
  fun_induction lineLengths current text with
  | case1 => simp at some
  | case2 => simp
  | case3 => simp
  | case4 => simp
  | case5 current c rest _ _ ih => exact ih (.inl (Nat.succ_pos current))

theorem sum_lineLengths (current : Nat) (text : List Char) :
    (lineLengths current text).sum = current + text.length := by
  fun_induction lineLengths current text with
  | case1 => rfl
  | case2 => simp
  | case3 current rest ih =>
    simp only [List.sum_cons, ih, List.length_cons]
    omega
  | case4 current c rest _ _ ih =>
    simp only [List.sum_cons, ih, List.length_cons]
    omega
  | case5 current c rest _ _ ih =>
    simp only [ih, List.length_cons]
    omega

theorem placeIn_cons_of_lt {line offset length : Nat} {more : List Nat} (inside : offset < length) :
    placeIn line offset (length :: more) = some (line, offset + 1) := by
  cases more with
  | nil => rw [placeIn, if_pos inside.le]
  | cons next more => rw [placeIn, if_pos inside]

theorem placeIn_cons_of_le {line offset length : Nat} {more : List Nat} (behind : length ≤ offset) (some : more ≠ []) :
    placeIn line offset (length :: more) = placeIn (line + 1) (offset - length) more := by
  cases more with
  | nil => exact absurd rfl some
  | cons next more => rw [placeIn, if_neg (not_lt.mpr behind)]

theorem placeIn_lineLengths_head (line current : Nat) {text : List Char} (some : text ≠ []) :
    placeIn line current (lineLengths current text) = Option.some (line, current + 1) := by
  have first : ∀ {start : Nat} {rest : List Char}, current < start ∨ (current = start ∧ rest ≠ []) →
      ∃ length more, lineLengths start rest = length :: more ∧ current < length := by
    intro start rest before
    fun_induction lineLengths start rest with
    | case1 => simp at before
    | case2 start => exact ⟨start, [], rfl, by simpa using before⟩
    | case3 start rest => exact ⟨start + 2, _, rfl, by omega⟩
    | case4 start c rest => exact ⟨start + 1, _, rfl, by omega⟩
    | case5 start c rest _ _ ih => exact ih (.inl (by omega))
  obtain ⟨length, more, same, inside⟩ := first (.inr ⟨rfl, some⟩)
  rw [same]
  exact placeIn_cons_of_lt inside

theorem placeIn_lineLengths {before rest : List Char} (line current : Nat) (some : rest ≠ [])
    (solid : rest.head? ≠ Option.some '\n') :
    placeIn line (current + before.length) (lineLengths current (before ++ rest)) =
      Option.some (placeBehind line (current + 1) before) := by
  fun_induction lineLengths current before generalizing line with
  | case1 => exact placeIn_lineLengths_head line 0 some
  | case2 current => exact placeIn_lineLengths_head line current some
  | case3 current before ih =>
    have more : lineLengths 0 (before ++ rest) ≠ [] := lineLengths_ne_nil (.inr (by simp [some]))
    rw [List.cons_append, List.cons_append, lineLengths, placeIn_cons_of_le (by simp) more, placeBehind,
      ← ih (line + 1)]
    congr 1
    simp only [List.length_cons]
    omega
  | case4 current c before other ends ih =>
    -- The rest does not begin with a line feed, so a carriage return right in front of it is an end of its own.
    have more : lineLengths 0 (before ++ rest) ≠ [] := lineLengths_ne_nil (.inr (by simp [some]))
    have alone : ∀ behind, c = '\r' → before ++ rest = '\n' :: behind → False := by
      rintro behind rfl same
      cases before with
      | nil =>
        rw [List.nil_append] at same
        exact solid (by rw [same, List.head?_cons])
      | cons d before =>
        obtain ⟨rfl, rfl⟩ := List.cons.inj same
        exact other before rfl rfl
    rw [List.cons_append, lineLengths_cons alone, if_pos ends, placeIn_cons_of_le (by simp) more,
      placeBehind_cons other, if_pos ends, ← ih (line + 1)]
    congr 1
    simp only [List.length_cons]
    omega
  | case5 current c before other goes ih =>
    have alone : ∀ behind, c = '\r' → before ++ rest = '\n' :: behind → False := by
      rintro behind rfl
      exact absurd rfl goes
    rw [List.cons_append, lineLengths_cons alone, if_neg goes, placeBehind_cons other, if_neg goes,
      ← ih line, List.length_cons, Nat.add_right_comm, Nat.add_assoc]

theorem offset_of_placeIn {line offset line' column : Nat} {lengths : List Nat}
    (place : placeIn line offset lengths = some (line', column)) :
    line ≤ line' ∧ offset + 1 = (lengths.take (line' - line)).sum + column := by
  fun_induction placeIn line offset lengths with
  | case1 => cases place
  | case2 line offset length =>
    cases place
    simp
  | case3 => cases place
  | case4 line offset length next more =>
    cases place
    simp
  | case5 line offset length next more behind ih =>
    obtain ⟨le, same⟩ := ih place
    have lines : line' - line = line' - (line + 1) + 1 := by omega
    rw [lines, List.take_succ_cons, List.sum_cons]
    omega

theorem eq_of_placeIn {line offset offset' : Nat} {place : Nat × Nat} {lengths : List Nat}
    (first : placeIn line offset lengths = some place) (second : placeIn line offset' lengths = some place) :
    offset = offset' := by
  have first := (offset_of_placeIn first).2
  have second := (offset_of_placeIn second).2
  omega

/-- The end of a text is shown in the line of its last character. -/
theorem placeIn_lineLengths_end {text : List Char} (line current : Nat) (fed : LineFed text) (some : text ≠ []) :
    (placeIn line (current + text.length) (lineLengths current text)).map Prod.fst =
      Option.some (line + text.dropLast.count '\n') := by
  fun_induction lineLengths current text generalizing line with
  | case1 => exact absurd rfl some
  | case2 => exact absurd rfl some
  | case3 current rest ih =>
    -- A carriage return counts with the line feed behind it, so that the line is longer by two.
    rw [LineFed] at fed
    cases rest with
    | nil => simp [lineLengths, placeIn]
    | cons d rest =>
      have more : lineLengths 0 (d :: rest) ≠ [] := lineLengths_ne_nil (.inr (List.cons_ne_nil _ _))
      have behind : current + ('\r' :: '\n' :: d :: rest).length - (current + 2) = 0 + (d :: rest).length := by
        simp only [List.length_cons]
        omega
      rw [placeIn_cons_of_le (by simp) more, behind, ih (line + 1) fed (List.cons_ne_nil _ _)]
      simp [Nat.add_assoc, Nat.add_comm 1]
  | case4 current c rest alone ends ih =>
    obtain ⟨feed, fedRest⟩ := (lineFed_cons alone).mp fed
    obtain rfl := feed ends
    cases rest with
    | nil => simp [lineLengths, placeIn]
    | cons d rest =>
      have more : lineLengths 0 (d :: rest) ≠ [] := lineLengths_ne_nil (.inr (List.cons_ne_nil _ _))
      have behind : current + ('\n' :: d :: rest).length - (current + 1) = 0 + (d :: rest).length := by
        simp only [List.length_cons]
        omega
      rw [placeIn_cons_of_le (by simp) more, behind, ih (line + 1) fedRest (List.cons_ne_nil _ _)]
      simp [Nat.add_assoc, Nat.add_comm 1]
  | case5 current c rest alone goes ih =>
    obtain ⟨_, fed⟩ := (lineFed_cons alone).mp fed
    have other : c ≠ '\n' := by
      rintro rfl
      exact goes rfl
    -- The line goes on, so that what is counted so far is one more for the rest.
    cases rest with
    | nil => simp [lineLengths, placeIn]
    | cons d rest =>
      rw [List.length_cons, Nat.add_comm _ 1, ← Nat.add_assoc, ih line fed (List.cons_ne_nil _ _)]
      simp [other]

theorem line_placeBehind (line column : Nat) (text : List Char) :
    line + text.count '\n' ≤ (placeBehind line column text).1 ∧
      ((placeBehind line column text).1 = line + text.count '\n' ↔ LineFed text) := by
  fun_induction placeBehind line column text with
  | case1 line column => simp [LineFed]
  | case2 line column rest ih =>
    obtain ⟨le, same⟩ := ih
    rw [LineFed, ← same]
    simp only [List.count_cons, beq_iff_eq, Char.reduceEq, if_false, if_true]
    omega
  | case3 line column c rest alone ends ih =>
    -- An end that is no line feed puts the place one line ahead of the count, and nothing behind it makes up for that.
    obtain ⟨le, same⟩ := ih
    rw [lineFed_cons alone]
    by_cases feed : c = '\n'
    · simp only [List.count_cons, feed, beq_self_eq_true, if_true, implies_true, true_and, ← same]
      omega
    · simp only [List.count_cons, beq_iff_eq, feed, if_false, ends, forall_const, false_and, iff_false]
      omega
  | case4 line column c rest alone goes ih =>
    have other : c ≠ '\n' := by
      rintro rfl
      exact goes rfl
    rw [lineFed_cons alone]
    simpa [List.count_cons, other, goes] using ih

/-! ### Bytes and characters -/

theorem utf8Size_eq_one_iff {c : Char} : c.utf8Size = 1 ↔ c.toNat < 128 := by
  rw [Char.utf8Size_eq_one_iff, UInt32.le_iff_toNat_le]
  exact Nat.lt_succ_iff.symm

theorem byteLength_eq_length_iff {text : List Char} : byteLength text = text.length ↔ IsAscii text := by
  induction text with
  | nil => simp [byteLength, IsAscii]
  | cons c rest ih =>
    have positive := c.utf8Size_pos
    have le := length_le_byteLength rest
    rw [IsAscii, List.forall_mem_cons, ← IsAscii, ← ih, ← utf8Size_eq_one_iff, byteLength_cons, List.length_cons]
    omega

theorem lineFeedsBefore_byteLength (before rest : List Char) :
    lineFeedsBefore (byteLength before) (before ++ rest) = before.count '\n' := by
  induction before with
  | nil => cases rest <;> rfl
  | cons c before ih =>
    have positive := c.utf8Size_pos
    obtain ⟨k, size⟩ : ∃ k, byteLength (c :: before) = k + 1 := ⟨byteLength (c :: before) - 1, by
      rw [byteLength_cons]
      omega⟩
    have left : k + 1 - c.utf8Size = byteLength before := by
      rw [← size, byteLength_cons]
      omega
    rw [size, List.cons_append, lineFeedsBefore, left, ih, List.count_cons]
    simp only [beq_iff_eq]
    omega

theorem lineOf_eq {source : String} {before rest : List Char} (whole : source.toList = before ++ rest) :
    lineOf source (byteLength before) = before.count '\n' + 1 := by
  rw [lineOf, whole, lineFeedsBefore_byteLength]

/-! ### Where diagnostics stand -/

/-- A span of a text that holds something begins behind `before`, with a character that is no space or at the end, and
does not reach beyond the text. -/
structure Stands (source : String) (span : Span) (before rest : List Char) : Prop where
  whole : source.toList = before ++ rest
  full : source.toList ≠ []
  start : span.start = byteLength before
  solid : ∀ c ∈ rest.head?, isSpace c = false
  inside : span.stop ≤ byteLength source.toList

namespace Program

theorem exists_of_mem_solids {offset : Nat} {text : List Char} {at_ : Span × Piece} (member : at_ ∈ solids offset text) :
    ∃ before c rest, text = before ++ c :: rest ∧ at_.1.start = offset + byteLength before ∧ isSpace c = false ∧
      at_.1.stop ≤ offset + byteLength text := by
  induction text using pieces.induct generalizing offset with
  | case1 =>
    rw [solids_nil] at member
    cases member
  | case2 c rest ih =>
    have cut : c :: rest = (c :: (nextPiece c rest).tail) ++ (nextPiece c rest).rest := by
      rw [List.cons_append, nextPiece_append]
    have length := congrArg byteLength cut
    rw [byteLength_append] at length
    rw [solids_cons] at member
    rcases List.mem_append.mp member with first | later
    · obtain ⟨first, counts⟩ := List.mem_filter.mp first
      obtain rfl := List.mem_singleton.mp first
      refine ⟨[], c, rest, rfl, rfl, ?_, by dsimp only; omega⟩
      -- A piece that begins with a space is blank, and blanks do not count.
      by_contra space
      rw [nextPiece, if_pos (by simpa using space)] at counts
      cases counts
    · obtain ⟨before, d, rest', text, start, solid, stop⟩ := ih later
      refine ⟨(c :: (nextPiece c rest).tail) ++ before, d, rest', ?_, ?_, solid, by omega⟩
      · rw [cut, text, List.append_assoc]
      · rw [start, byteLength_append, Nat.add_assoc]

section

variable {functions : List Function} {tokens : List Lexeme}

theorem suffix_expectToken {α : Type} {expected : Expected} {select : Lexeme → Option α} :
    (expectToken expected select tokens).rest <:+ tokens := by
  cases tokens with
  | nil => exact List.suffix_rfl
  | cons t rest =>
    rw [expectToken]
    split
    · exact List.suffix_cons t rest
    · exact List.suffix_rfl

theorem suffix_readKind : (readKind tokens).rest <:+ tokens := by
  have carried : Carried 0 [] tokens id (Remains [] tokens) (readKind tokens) (readKind (onward 0 [] tokens)) :=
    .readKind ⟨List.suffix_rfl, .inl rfl⟩
  exact carried.part

theorem suffix_readExpr {scope : Scope} : (readExpr scope tokens).rest <:+ tokens :=
  (readLevel_travels scope 0 [] tokens 0 tokens ⟨List.suffix_rfl, .inl rfl⟩).part

theorem span_of_expectSymbol {sign : Symbol} {span : Span} (read : (expectSymbol sign tokens).outcome = .ok span) :
    ∃ t ∈ tokens, t.span = span := by
  cases tokens with
  | nil => cases read
  | cons t rest =>
    by_cases symbol : t.token.isSymbol sign
    · simp only [expectSymbol, expectToken, symbol, if_true] at read
      cases read
      exact ⟨t, List.mem_cons_self, rfl⟩
    · simp only [expectSymbol, expectToken, symbol] at read
      cases read

theorem span_of_readFunction {name : String} {start : Nat} {d : Declaration}
    (read : (readFunction functions name start tokens).outcome = .ok d) :
    ∃ t ∈ tokens, d.span = ⟨start, t.span.stop⟩ := by
  unfold readFunction at read
  iterate 7 obtain ⟨_, -, read⟩ := ok_of_andThen read
  obtain ⟨closing, closes, rfl⟩ := ok_of_map read
  obtain ⟨t, member, rfl⟩ := span_of_expectSymbol closes
  refine ⟨t, List.IsSuffix.mem member ?_, rfl⟩
  exact suffix_readExpr.trans (suffix_expectToken.trans (suffix_readKind.trans (suffix_expectToken.trans
    (suffix_expectToken.trans (suffix_expectToken.trans suffix_expectToken)))))

def Declaration.Spans (d : Declaration) (tokens : List Lexeme) : Prop :=
  ∃ first ∈ tokens, ∃ last ∈ tokens, d.span = ⟨first.span.start, last.span.stop⟩

theorem Declaration.Spans.mono {d : Declaration} {rest : List Lexeme} (spans : d.Spans rest) (part : rest <:+ tokens) :
    d.Spans tokens := by
  obtain ⟨first, member, last, member', same⟩ := spans
  exact ⟨first, part.mem member, last, part.mem member', same⟩

theorem spans_of_survey {d : Declaration} (declared : d ∈ (survey functions tokens).declarations) :
    d.Spans tokens := by
  induction tokens using survey.induct functions with
  | case1 =>
    rw [survey] at declared
    cases declared
  | case2 t fn =>
    rw [survey, if_pos fn] at declared
    cases declared
  | case3 t fn n rest unnamed ih =>
    have part := (List.dropWhile_suffix (fun t => !t.token.isKeyword .fn)).trans (List.suffix_cons t (n :: rest))
    rw [survey, if_pos fn] at declared
    simp only [unnamed] at declared
    exact (ih declared).mono part
  | case4 t fn n rest name span named =>
    rename_i reading ih
    -- What is read of a function ends in front of the next one at the latest.
    have carried := Carried.readFunction functions 0 name t.span.start
      ⟨List.suffix_rfl, (.inl rfl : Sealed [] rest)⟩
    have part : rest <:+ t :: n :: rest := ⟨[t, n], rfl⟩
    rw [survey_function functions rest (isKeyword_iff.mp fn) (token_of_nameOf? named)] at declared
    rcases List.mem_append.mp declared with here | later
    · cases read : (readFunction functions name t.span.start rest).outcome with
      | error fault =>
        simp only [surveyOf, read] at here
        cases here
      | ok found =>
        simp only [surveyOf, read] at here
        obtain rfl := List.mem_singleton.mp here
        obtain ⟨last, member, same⟩ := span_of_readFunction read
        exact ⟨t, List.mem_cons_self, last, part.mem member, same⟩
    · exact (ih later).mono ((resume_suffix carried).trans part)
  | case5 t after other ih =>
    have part := (List.dropWhile_suffix (fun t => !t.token.isKeyword .fn)).trans (List.suffix_cons t after)
    rw [survey.eq_def functions (t :: after)] at declared
    simp only [other, Bool.false_eq_true, if_false] at declared
    exact (ih declared).mono part

theorem mem_of_mem_repeated {d : Declaration} {seen : List String} {declarations : List Declaration}
    (again : d ∈ repeated seen declarations) : d ∈ declarations := by
  induction declarations generalizing seen with
  | nil => cases again
  | cons first rest ih =>
    rw [repeated] at again
    split at again
    · rcases List.mem_cons.mp again with rfl | later
      · exact List.mem_cons_self
      · exact List.mem_cons_of_mem _ (ih later)
    · exact List.mem_cons_of_mem _ (ih again)

end

end Program

theorem exists_stands_of_solid {source : String} {at_ : Span × Piece} (member : at_ ∈ solids 0 source.toList) :
    ∃ before rest, Stands source at_.1 before rest := by
  obtain ⟨before, c, rest, whole, start, solid, stop⟩ := exists_of_mem_solids member
  rw [Nat.zero_add] at start stop
  refine ⟨before, c :: rest, whole, by simp [whole], start, ?_, stop⟩
  rintro d ⟨⟩
  exact solid

theorem exists_stands_of_lexeme {source : String} {t : Lexeme} (member : t ∈ lexemesOf source.toList) :
    ∃ before rest, Stands source t.span before rest := by
  obtain ⟨at_, inside, same⟩ := mem_solids_of_lexeme member
  exact same ▸ exists_stands_of_solid inside

theorem exists_stands_of_finding {functions : List Function} {source : String} {finding : Finding}
    (member : finding ∈ (accountOf functions source.toList).findings) :
    ∃ before rest, Stands source (finding.fault.spanIn source) before rest := by
  cases place : finding.fault.span with
  | none =>
    have full : source.toList ≠ [] := by
      intro none
      rw [none, accountOf_of_marks_nil marks_nil] at member
      cases member
    refine ⟨source.toList, [], ?_⟩
    rw [Fault.spanIn, place, ← byteLength_toList]
    exact ⟨(List.append_nil _).symm, full, rfl, by simp, Nat.le_refl _⟩
  | some span =>
    rw [Fault.spanIn, place]
    rcases List.mem_append.mp member with found | stray
    · obtain ⟨t, inside, rfl⟩ := ((survey_stems functions _).places finding found).place span place
      exact exists_stands_of_lexeme inside
    · obtain ⟨e, inside, rfl⟩ := List.mem_map.mp stray
      obtain ⟨at_, inside, same⟩ := mem_solids_of_error inside
      obtain rfl := Option.some.inj place
      exact same ▸ exists_stands_of_solid inside

theorem exists_stands_of_declaration {functions : List Function} {source : String} {d : Declaration}
    (declared : d ∈ (survey functions (lexemesOf source.toList)).declarations) :
    ∃ before rest, Stands source d.span before rest := by
  obtain ⟨first, member, last, member', same⟩ := spans_of_survey declared
  obtain ⟨before, rest, begins⟩ := exists_stands_of_lexeme member
  obtain ⟨_, _, ends⟩ := exists_stands_of_lexeme member'
  rw [same]
  exact ⟨before, rest, begins.whole, begins.full, begins.start, begins.solid, ends.inside⟩

/-- What the interpreter tells of a place is at a place of the program, and on its line. -/
theorem exists_stands_of_diagnostic {request : Request} {d : Diagnostic} {span : Span}
    (told : d ∈ diagnosticsOf (interpreter request)) (spanned : d.span = some span) :
    ∃ before rest, Stands request.source span before rest ∧ d.line = before.count '\n' + 1 := by
  have line {before rest : List Char} (stands : Stands request.source span before rest)
      (same : d.line = lineOf request.source span.start) : d.line = before.count '\n' + 1 := by
    rw [same, stands.start, lineOf_eq stands.whole]
  rw [diagnosticsOf_interpreter, List.mem_append, List.mem_append] at told
  rcases told with (library | found) | again
  · obtain ⟨name, _, rfl⟩ := List.mem_map.mp library
    cases spanned
  · rw [diagnostics_ofText, List.mem_mergeSort] at found
    obtain ⟨finding, member, rfl⟩ := List.mem_map.mp found
    obtain rfl := Option.some.inj spanned
    obtain ⟨before, rest, stands⟩ := exists_stands_of_finding member
    exact ⟨before, rest, stands, line stands rfl⟩
  · obtain ⟨declaration, member, rfl⟩ := List.mem_map.mp again
    obtain rfl := Option.some.inj spanned
    have declared := mem_of_mem_repeated member
    rw [surveyFor_eq] at declared
    obtain ⟨before, rest, stands⟩ := exists_stands_of_declaration declared
    exact ⟨before, rest, stands, line stands rfl⟩

/-! ### Marks -/

/-- The place that a report points to. -/
def Report.shown (report : Report) : Option (Nat × Nat) := report.mark.map fun mark => (mark.line, mark.column)

theorem shown_ofDiagnostic (source : String) (d : Diagnostic) :
    (Report.ofDiagnostic source d).shown =
      if d.last ≤ source.toList.length then placeIn 1 d.start (lineLengths 0 source.toList) else none := by
  have total : (lineLengths 0 source.toList).foldl (· + ·) 0 = source.toList.length := by
    rw [← List.sum_eq_foldl, sum_lineLengths, Nat.zero_add]
  rw [Report.shown, Report.ofDiagnostic, Report.markOf, total]
  cases placeIn 1 d.start (lineLengths 0 source.toList) with
  | none => simp
  | some place => by_cases inside : d.last ≤ source.toList.length <;> simp [inside]

section

variable {source : String} {d : Diagnostic} {span : Span} {before rest : List Char}

theorem Stands.start_eq_iff (stands : Stands source span before rest) (spanned : d.span = some span) :
    d.start = before.length ↔ IsAscii before := by
  rw [Diagnostic.start, spanned, ← byteLength_eq_length_iff]
  show span.start = before.length ↔ _
  rw [stands.start]

theorem Stands.last_le (stands : Stands source span before rest) (spanned : d.span = some span) :
    d.last ≤ byteLength source.toList := by
  have length := congrArg byteLength stands.whole
  have start := stands.start
  have inside := stands.inside
  rw [byteLength_append] at length
  rw [Diagnostic.last, spanned]
  dsimp only
  split <;> omega

/-- A report that points to a character points to the one that its diagnostic begins with exactly if all the
characters in front of it are of one byte. -/
theorem Stands.shown_eq_iff (stands : Stands source span before rest) (spanned : d.span = some span)
    (more : rest ≠ []) :
    (Report.ofDiagnostic source d).shown = some (placeBehind 1 1 before) ↔
      IsAscii before ∧ d.last ≤ source.toList.length := by
  have feed : rest.head? ≠ some '\n' := by
    intro same
    cases stands.solid '\n' same
  have place : placeIn 1 before.length (lineLengths 0 source.toList) = some (placeBehind 1 1 before) := by
    rw [stands.whole, ← placeIn_lineLengths 1 0 more feed, Nat.zero_add]
  rw [shown_ofDiagnostic, ← stands.start_eq_iff spanned]
  constructor
  · intro shown
    split at shown
    · next inside => exact ⟨eq_of_placeIn shown place, inside⟩
    · cases shown
  · rintro ⟨start, inside⟩
    rw [if_pos inside, start, place]

theorem Stands.shown_end (stands : Stands source span before []) (spanned : d.span = some span) (ascii : IsAscii before)
    (fed : LineFed before) :
    (Report.ofDiagnostic source d).shown.map Prod.fst = some (before.dropLast.count '\n' + 1) := by
  have whole : source.toList = before := by rw [stands.whole, List.append_nil]
  have inside : d.last ≤ source.toList.length := by
    rw [whole, ← byteLength_eq_length_iff.mpr ascii, ← whole]
    exact stands.last_le spanned
  have last := placeIn_lineLengths_end 1 0 fed (whole ▸ stands.full)
  rw [shown_ofDiagnostic, if_pos inside, (stands.start_eq_iff spanned).mpr ascii, whole, ← Nat.zero_add before.length,
    last, Nat.add_comm]

end

/-- A diagnostic is on the line that it tells, but its report points to its first character only if all characters in
front of that are of one byte. -/
theorem report_points_to {request : Request} {d : Diagnostic} {span : Span}
    (told : d ∈ diagnosticsOf (interpreter request)) (spanned : d.span = some span) :
    ∃ before rest, Stands request.source span before rest ∧ d.line = before.count '\n' + 1 ∧
      (d.start = before.length ↔ IsAscii before) ∧
      (rest ≠ [] →
        ((Report.ofDiagnostic request.source d).shown = some (placeBehind 1 1 before) ↔
          IsAscii before ∧ d.last ≤ request.source.toList.length) ∧
        ((placeBehind 1 1 before).1 = d.line ↔ LineFed before)) ∧
      (rest = [] → IsAscii before → LineFed before →
        (Report.ofDiagnostic request.source d).shown.map Prod.fst = some (before.dropLast.count '\n' + 1)) := by
  obtain ⟨before, rest, stands, line⟩ := exists_stands_of_diagnostic told spanned
  refine ⟨before, rest, stands, line, stands.start_eq_iff spanned, fun more => ⟨stands.shown_eq_iff spanned more, ?_⟩,
    ?_⟩
  · rw [line, Nat.add_comm]
    exact (line_placeBehind 1 1 before).2
  · rintro rfl ascii fed
    exact stands.shown_end spanned ascii fed

namespace Misplaced

/-- A program of two stretches that are no function, the first of them a character of two bytes. -/
def request : Request where
  modelType := "Page"
  source := "é nope"
  references := []

def diagnostic : Diagnostic where
  unit := none
  line := 1
  span := some ⟨3, 7⟩
  templateLine := none
  message := "Expected `fn`, found identifier `nope`"

theorem tokenize_source : tokenize request.source = ([⟨.name "nope", ⟨3, 7⟩⟩], [⟨⟨0, 2⟩, ['é']⟩]) := by
  with_unfolding_all rfl

theorem told : diagnostic ∈ diagnosticsOf (interpreter request) := by
  have lexemes : lexemesOf request.source.toList = [⟨.name "nope", ⟨3, 7⟩⟩] := by
    have same := tokenize_source
    rw [tokenize_eq] at same
    exact congrArg Prod.fst same
  let finding : Finding := ⟨none, .unexpected (.keyword .fn) [⟨.name "nope", ⟨3, 7⟩⟩]⟩
  have found : finding ∈ (accountOf (functionsOf request.references) request.source.toList).findings := by
    refine List.mem_append_left _ ?_
    rw [accountOf, lexemes, survey]
    exact List.mem_cons_self
  have same : finding.diagnostic request.source = diagnostic := by rfl
  rw [diagnosticsOf_interpreter, diagnostics_ofText, List.mem_append, List.mem_append, List.mem_mergeSort]
  exact .inl (.inr (List.mem_map.mpr ⟨finding, found, same⟩))

theorem stands : Stands request.source ⟨3, 7⟩ ['é', ' '] ['n', 'o', 'p', 'e'] where
  whole := rfl
  full := by decide
  start := rfl
  solid := fun _ first => Option.some.inj first ▸ rfl
  inside := by decide

end Misplaced

open Misplaced in
/-- The report of a diagnostic behind a character of two bytes points one character too far. -/
theorem report_points_behind :
    diagnostic ∈ diagnosticsOf (interpreter request) ∧ diagnostic.span = some ⟨3, 7⟩ ∧
      Stands request.source ⟨3, 7⟩ ['é', ' '] ['n', 'o', 'p', 'e'] ∧ diagnostic.start ≠ ['é', ' '].length ∧
      placeBehind 1 1 ['é', ' '] = (1, 3) ∧ (Report.ofDiagnostic request.source diagnostic).shown = some (1, 4) :=
  ⟨told, rfl, stands, by decide, by decide, by decide⟩

open Misplaced in
theorem report_points_to_misplaced :
    (diagnostic ∈ diagnosticsOf (interpreter request) ∧ diagnostic.span = some ⟨3, 7⟩) ∧
      ∃ before rest, Stands request.source ⟨3, 7⟩ before rest ∧ diagnostic.line = before.count '\n' + 1 ∧
        (diagnostic.start = before.length ↔ IsAscii before) ∧
        (rest ≠ [] →
          ((Report.ofDiagnostic request.source diagnostic).shown = some (placeBehind 1 1 before) ↔
            IsAscii before ∧ diagnostic.last ≤ request.source.toList.length) ∧
          ((placeBehind 1 1 before).1 = diagnostic.line ↔ LineFed before)) ∧
        (rest = [] → IsAscii before → LineFed before →
          (Report.ofDiagnostic request.source diagnostic).shown.map Prod.fst =
            some (before.dropLast.count '\n' + 1)) :=
  ⟨⟨told, rfl⟩, report_points_to told rfl⟩

end Stencil
