import Stencil.Program.Lexer

/-! Lexing is compositional at line feeds and at closing brackets.

A line feed ends every piece but a blank and a string. So the tokens of a text with a line feed in it are
those of the two parts, as long as the first part leaves no string open, and blanks count for nothing. A closing
bracket does the same behind a text that has no comment in it and nothing that is no token.
-/

set_option autoImplicit false

namespace Stencil.Program

def PieceKind.isSkipped : PieceKind → Bool
  | .skipped => true
  | _ => false

def PieceKind.token? : PieceKind → Option Token
  | .token t => some t
  | _ => none

def PieceKind.isBad : PieceKind → Bool
  | .bad => true
  | _ => false

/-- The pieces of a text that count: its tokens, and the stretches that are none. -/
def marks (text : List Char) : List PieceKind :=
  ((pieces text).map Piece.kind).filter fun kind => !kind.isSkipped

/-- Whether the last piece of a text is a string without an end. -/
def leavesOpen (text : List Char) : Bool :=
  match (pieces text).getLast? with
  | some ⟨.bad, c :: _⟩ => c = '"' || c = '\''
  | _ => false

theorem exists_bad_of_leavesOpen {text : List Char} (open_ : leavesOpen text) :
    ∃ kind ∈ marks text, kind.isBad := by
  unfold leavesOpen at open_
  split at open_
  · rename_i c rest last
    refine ⟨.bad, ?_, rfl⟩
    rw [marks, List.mem_filter]
    exact ⟨List.mem_map.mpr ⟨_, List.mem_of_getLast? last, rfl⟩, rfl⟩
  · cases open_

section

variable (c : Char) (rest : List Char)

theorem marks_nil : marks [] = [] := by
  rw [marks, pieces]
  rfl

theorem marks_cons :
    marks (c :: rest) =
      [(nextPiece c rest).kind].filter (fun kind => !kind.isSkipped) ++ marks (nextPiece c rest).rest := by
  rw [marks, pieces, List.map_cons, ← List.singleton_append, List.filter_append]
  rfl

theorem leavesOpen_rest (open_ : leavesOpen (nextPiece c rest).rest) : leavesOpen (c :: rest) := by
  unfold leavesOpen at *
  rw [pieces]
  -- The last piece of the rest is the last one of all.
  cases after : pieces (nextPiece c rest).rest with
  | nil =>
    rw [after] at open_
    cases open_
  | cons piece others =>
    rw [after] at open_
    simpa only [List.getLast?_cons_cons] using open_

theorem leavesOpen_of_cutString {c : Char} {rest : List Char} (quote : c = '"' ∨ c = '\'')
    (unended : (cutString c rest).2 = []) : leavesOpen (c :: rest) := by
  have piece : nextPiece c rest = ⟨.bad, (cutString c rest).1, []⟩ := by
    have cut : stringPiece c rest = ⟨.bad, (cutString c rest).1, []⟩ := by
      unfold stringPiece
      split
      · rename_i same
        rw [same] at unended
        cases unended
      · rename_i same
        rw [same]
    rcases quote with rfl | rfl <;> exact cut
  rw [leavesOpen, pieces, piece, pieces]
  simpa using quote

end

section

variable (p : Char → Bool) {stop : Char} (stops : p stop = false) (text more : List Char)

include stops

theorem takeWhile_append_stop : (text ++ stop :: more).takeWhile p = text.takeWhile p := by
  induction text with
  | nil => simp [stops]
  | cons c rest ih => simp only [List.cons_append, List.takeWhile_cons, ih]

theorem dropWhile_append_stop : (text ++ stop :: more).dropWhile p = text.dropWhile p ++ stop :: more := by
  induction text with
  | nil => simp [stops]
  | cons c rest ih =>
    simp only [List.cons_append, List.dropWhile_cons, ih]
    split <;> rfl

end

theorem text_of_symbolOf? {symbols : List Symbol} {text : List Char} {sign : Symbol}
    (found : symbolOf? symbols text = some sign) : sign.text.toList = text := by
  simpa using List.find?_some found

def Cut.extend (cut : Cut) (more : List Char) : Cut := { cut with rest := cut.rest ++ more }

structure EndsPieces (stop : Char) : Prop where
  part : isNamePart stop = false
  digit : stop.isDigit = false
  point : stop ≠ '.'
  slash : stop ≠ '/'
  alone : ∀ c, symbolOf? Symbol.long [c, stop] = none

theorem endsPieces_newline : EndsPieces '\n' where
  part := rfl
  digit := rfl
  point := by decide
  slash := by decide
  alone c := by simp [symbolOf?, Symbol.long, Symbol.text]

section

variable {stop : Char} (ends : EndsPieces stop)

theorem cutWhile_append_stop {kind : List Char → PieceKind} (p : Char → Bool) (stops : p stop = false)
    (rest more : List Char) :
    cutWhile kind p (rest ++ stop :: more) = (cutWhile kind p rest).extend (stop :: more) := by
  simp only [cutWhile, Cut.extend, takeWhile_append_stop p stops, dropWhile_append_stop p stops]

theorem numberPiece_of_pointless (whole tail : List Char) {after : List Char}
    (pointless : ∀ d others, after = '.' :: d :: others → ¬ d.isDigit) :
    numberPiece whole tail after = ⟨integerKind whole, tail, after⟩ := by
  unfold numberPiece
  split
  · rw [if_neg (pointless _ _ rfl)]
  · rfl

include ends

theorem numberPiece_append_stop (whole tail after more : List Char) :
    numberPiece whole tail (after ++ stop :: more) = (numberPiece whole tail after).extend (stop :: more) := by
  by_cases fraction : ∃ d others, after = '.' :: d :: others ∧ d.isDigit
  · obtain ⟨d, others, rfl, digit⟩ := fraction
    simp only [numberPiece, List.cons_append, digit, if_true, Cut.extend,
      takeWhile_append_stop Char.isDigit ends.digit, dropWhile_append_stop Char.isDigit ends.digit]
  · rw [numberPiece_of_pointless, numberPiece_of_pointless]
    · rfl
    · rintro d others rfl digit
      exact fraction ⟨d, others, rfl, digit⟩
    · -- The character at the end is neither a point nor a digit.
      intro d others same digit
      match after with
      | [] => exact ends.point (List.cons.inj same).1
      | [_] =>
        obtain ⟨-, same⟩ := List.cons.inj same
        rw [← (List.cons.inj same).1, ends.digit] at digit
        cases digit
      | _ :: _ :: rest =>
        cases same
        exact fraction ⟨d, rest, rfl, digit⟩

end

theorem cutString_cons {quote c : Char} (plain : c ≠ '\\') (rest : List Char) :
    cutString quote (c :: rest) =
      if c = quote then ([], c :: rest)
      else (c :: (cutString quote rest).1, (cutString quote rest).2) := by
  rw [cutString]
  · exact fun slash => absurd slash plain
  · exact fun _ _ slash => absurd slash plain

theorem ne_backslash {c : Char} {rest : List Char} (last : c = '\\' → rest = [] → False)
    (escape : ∀ d others, c = '\\' → rest = d :: others → False) : c ≠ '\\' := by
  intro slash
  cases rest with
  | nil => exact last slash rfl
  | cons d others => exact escape d others slash rfl

theorem cutString_append_newline {quote : Char} {text : List Char} (ended : (cutString quote text).2 ≠ [])
    (more : List Char) :
    cutString quote (text ++ '\n' :: more) =
      ((cutString quote text).1, (cutString quote text).2 ++ '\n' :: more) := by
  fun_induction cutString quote text with
  | case1 => exact absurd rfl ended
  | case2 => rfl
  | case3 rest => simp [cutString]
  | case4 c rest other ih => simp only [List.cons_append, cutString, if_neg other, ih ended]
  | case5 rest last escape =>
    rw [List.cons_append, cutString_cons (ne_backslash last escape), if_pos rfl]
  | case6 c rest last escape other ih =>
    rw [List.cons_append, cutString_cons (ne_backslash last escape), if_neg other, ih ended]

theorem stringPiece_append_newline {quote : Char} {rest : List Char}
    (ended : (cutString quote rest).2 ≠ []) (more : List Char) :
    stringPiece quote (rest ++ '\n' :: more) = (stringPiece quote rest).extend ('\n' :: more) := by
  unfold stringPiece
  rw [cutString_append_newline ended]
  cases found : cutString quote rest with
  | mk inner after =>
    rw [found] at ended
    cases after with
    | nil => exact absurd rfl ended
    | cons q after =>
      simp only [List.cons_append]
      split <;> rfl

theorem shortPiece_extend (c : Char) (rest more : List Char) :
    shortPiece c (rest ++ more) = (shortPiece c rest).extend more := by
  unfold shortPiece
  split <;> rfl

section

variable {stop : Char} (ends : EndsPieces stop) {c : Char} {rest : List Char} (more : List Char)

include ends

theorem symbolPiece_append_stop (comment : c = '/' → rest.head? = some '/' → stop = '\n') :
    symbolPiece c (rest ++ stop :: more) = (symbolPiece c rest).extend (stop :: more) := by
  cases rest with
  | nil =>
    simp only [List.nil_append, symbolPiece, ends.alone]
    rw [if_neg fun slashes => ends.slash slashes.2]
    exact shortPiece_extend c [] (stop :: more)
  | cons d others =>
    simp only [List.cons_append, symbolPiece]
    split
    · rename_i slashes
      obtain rfl := comment slashes.1 (congrArg some slashes.2)
      have stops : decide ('\n' ≠ '\n') = false := rfl
      simp only [Cut.extend, takeWhile_append_stop (fun d => decide (d ≠ '\n')) stops,
        dropWhile_append_stop (fun d => decide (d ≠ '\n')) stops]
    · split
      · rfl
      · exact shortPiece_extend c (d :: others) (stop :: more)

theorem nextPiece_append_stop (solid : isSpace c = false)
    (comment : c = '/' → rest.head? = some '/' → stop = '\n')
    (string : c = '"' ∨ c = '\'' → stringPiece c (rest ++ stop :: more) = (stringPiece c rest).extend (stop :: more)) :
    nextPiece c (rest ++ stop :: more) = (nextPiece c rest).extend (stop :: more) := by
  -- The kinds of pieces, in the order in which the lexer tries them.
  by_cases name : isNameStart c
  · simp only [nextPiece, solid, name, Bool.false_eq_true, if_false, if_true]
    exact cutWhile_append_stop isNamePart ends.part rest more
  by_cases digit : c.isDigit
  · simp only [nextPiece, solid, name, digit, Bool.false_eq_true, if_false, if_true,
      takeWhile_append_stop Char.isDigit ends.digit, dropWhile_append_stop Char.isDigit ends.digit]
    exact numberPiece_append_stop ends _ _ _ more
  by_cases quote : c = '"' ∨ c = '\''
  · simp only [nextPiece, solid, name, digit, quote, Bool.false_eq_true, if_false, if_true]
    exact string quote
  · simp only [nextPiece, solid, name, digit, quote, Bool.false_eq_true, if_false]
    exact symbolPiece_append_stop ends more comment

end

/-- A piece that is neither blank nor an open string ends before a line feed at the latest. -/
theorem nextPiece_append_newline {c : Char} {rest : List Char} (solid : isSpace c = false)
    (closed : ¬ leavesOpen (c :: rest)) (more : List Char) :
    nextPiece c (rest ++ '\n' :: more) = (nextPiece c rest).extend ('\n' :: more) :=
  nextPiece_append_stop endsPieces_newline more solid (fun _ _ => rfl) fun quote =>
    stringPiece_append_newline (fun unended => closed (leavesOpen_of_cutString quote unended)) more

/-! ### Blanks count for nothing -/

theorem marks_space {c : Char} (space : isSpace c) (rest : List Char) :
    marks (c :: rest) = marks (rest.dropWhile isSpace) := by
  rw [marks_cons, nextPiece, if_pos space]
  rfl

theorem marks_dropWhile_space (text : List Char) : marks (text.dropWhile isSpace) = marks text := by
  cases text with
  | nil => rfl
  | cons c rest =>
    by_cases space : isSpace c
    · rw [List.dropWhile_cons_of_pos space, marks_space space]
    · rw [List.dropWhile_cons_of_neg space]

theorem marks_cons_space {c : Char} (space : isSpace c) (rest : List Char) :
    marks (c :: rest) = marks rest := by
  rw [marks_space space, marks_dropWhile_space]

/-- Behind a text that leaves no string open, the next line is lexed as it is by itself. -/
theorem marks_append_newline {text : List Char} (closed : ¬ leavesOpen text) (more : List Char) :
    marks (text ++ '\n' :: more) = marks text ++ marks more := by
  induction text using pieces.induct with
  | case1 => rw [List.nil_append, marks_cons_space rfl, marks_nil, List.nil_append]
  | case2 c rest ih =>
    have ih := ih fun open_ => closed (leavesOpen_rest c rest open_)
    by_cases space : isSpace c
    · -- A blank may go on into the next line, so that its rest is not the same in both texts.
      have after : (nextPiece c rest).rest = rest.dropWhile isSpace := by
        rw [nextPiece, if_pos space]
        rfl
      rw [after] at ih
      rw [List.cons_append, marks_space space, marks_space space, ← ih, List.dropWhile_append]
      split
      · rename_i none
        rw [List.isEmpty_iff.mp none, marks_dropWhile_space]
        rfl
      · rfl
    · rw [List.cons_append, marks_cons, marks_cons c rest,
        nextPiece_append_newline (Bool.eq_false_iff.mpr space) closed, List.append_assoc, ← ih]
      rfl

/-! ### Behind a closing bracket -/

theorem endsPieces_closeParen : EndsPieces ')' where
  part := rfl
  digit := rfl
  point := by decide
  slash := by decide
  alone c := by simp [symbolOf?, Symbol.long, Symbol.text]

theorem cutString_append_of_closed {quote : Char} (plain : quote ≠ '\\') {text : List Char}
    (closed : (cutString quote text).2.head? = some quote) (more : List Char) :
    cutString quote (text ++ more) = ((cutString quote text).1, (cutString quote text).2 ++ more) := by
  fun_induction cutString quote text with
  | case1 => cases closed
  | case2 => exact absurd (Option.some.inj closed).symm plain
  | case3 rest => exact absurd (Option.some.inj closed).symm plain
  | case4 c rest other ih => simp only [List.cons_append, cutString, if_neg other, ih closed]
  | case5 rest last escape =>
    rw [List.cons_append, cutString_cons (ne_backslash last escape), if_pos rfl]
  | case6 c rest last escape other ih =>
    rw [List.cons_append, cutString_cons (ne_backslash last escape), if_neg other, ih closed]

theorem stringPiece_append_of_token {quote : Char} (plain : quote ≠ '\\') {rest : List Char} {token : Token}
    (kind : (stringPiece quote rest).kind = .token token) (more : List Char) :
    stringPiece quote (rest ++ more) = (stringPiece quote rest).extend more := by
  unfold stringPiece at kind ⊢
  cases cut : cutString quote rest with
  | mk inner after =>
    rw [cut] at kind
    cases after with
    | nil => cases kind
    | cons q after =>
      dsimp only at kind
      split at kind
      · rename_i same
        have closed : (cutString quote rest).2.head? = some quote := by rw [cut, same]; rfl
        rw [cutString_append_of_closed plain closed, cut]
        simp only [List.cons_append, if_pos same]
        rfl
      · cases kind

theorem nextPiece_append_closing {c : Char} {rest : List Char} {token : Token}
    (kind : (nextPiece c rest).kind = .token token) (more : List Char) :
    nextPiece c (rest ++ ')' :: more) = (nextPiece c rest).extend (')' :: more) := by
  have solid : isSpace c = false := by
    cases space : isSpace c with
    | false => rfl
    | true =>
      rw [nextPiece, if_pos space] at kind
      cases kind
  refine nextPiece_append_stop endsPieces_closeParen more solid (fun slash first => ?_) fun quote => ?_
  · cases rest with
    | nil => cases first
    | cons d others =>
      cases slash
      cases first
      cases kind
  · have plain : c ≠ '\\' := by rcases quote with rfl | rfl <;> decide
    have string : (stringPiece c rest).kind = .token token := by rcases quote with rfl | rfl <;> exact kind
    exact stringPiece_append_of_token plain string _

/-- In front of a closing bracket, a text is lexed as it is alone. -/
theorem marks_append_closing {text : List Char} (lexed : ∀ piece ∈ pieces text, ¬ piece.kind.isBad)
    (uncommented : ∀ piece ∈ pieces text, piece.kind.isSkipped → ∀ c ∈ piece.text, isSpace c) (more : List Char) :
    marks (text ++ ')' :: more) = marks text ++ marks (')' :: more) := by
  induction text using pieces.induct with
  | case1 => rw [List.nil_append, marks_nil, List.nil_append]
  | case2 c rest ih =>
    rw [pieces, List.forall_mem_cons] at lexed uncommented
    have ih := ih lexed.2 uncommented.2
    by_cases space : isSpace c
    · have after : (nextPiece c rest).rest = rest.dropWhile isSpace := by
        rw [nextPiece, if_pos space]
        rfl
      rw [after] at ih
      rw [List.cons_append, marks_space space, marks_space space, ← ih, dropWhile_append_stop isSpace rfl]
    · -- Neither a comment nor a stretch that is none of the tokens stands here.
      cases kind : (nextPiece c rest).kind with
      | token token =>
        rw [List.cons_append, marks_cons, marks_cons c rest, nextPiece_append_closing kind, List.append_assoc, ← ih]
        rfl
      | skipped => exact absurd (uncommented.1 (by rw [kind]; rfl) c List.mem_cons_self) space
      | bad => exact absurd (by rw [kind]; rfl) lexed.1

/-! ### Open strings -/

theorem leavesOpen_nil : leavesOpen [] = false := by
  rw [leavesOpen, pieces]
  rfl

theorem leavesOpen_cons (c : Char) (rest : List Char) :
    leavesOpen (c :: rest) =
      if (nextPiece c rest).rest = [] then (nextPiece c rest).kind.isBad && (c = '"' || c = '\'')
      else leavesOpen (nextPiece c rest).rest := by
  unfold leavesOpen
  rw [pieces]
  cases after : (nextPiece c rest).rest with
  | nil =>
    rw [pieces, List.getLast?_singleton, if_pos rfl]
    cases (nextPiece c rest).kind <;> rfl
  | cons d others => rw [pieces, List.getLast?_cons_cons, if_neg (List.cons_ne_nil d others)]

theorem leavesOpen_space {c : Char} (space : isSpace c) (rest : List Char) :
    leavesOpen (c :: rest) = leavesOpen (rest.dropWhile isSpace) := by
  rw [leavesOpen_cons, nextPiece, if_pos space, cutWhile]
  dsimp only
  split
  · rename_i none
    rw [none, leavesOpen_nil]
    rfl
  · rfl

theorem leavesOpen_dropWhile_space (text : List Char) :
    leavesOpen (text.dropWhile isSpace) = leavesOpen text := by
  cases text with
  | nil => rfl
  | cons c rest =>
    by_cases space : isSpace c
    · rw [List.dropWhile_cons_of_pos space, leavesOpen_space space]
    · rw [List.dropWhile_cons_of_neg space]

theorem leavesOpen_cons_space {c : Char} (space : isSpace c) (rest : List Char) :
    leavesOpen (c :: rest) = leavesOpen rest := by
  rw [leavesOpen_space space, leavesOpen_dropWhile_space]

/-- Behind a text that leaves no string open, only the next line can. -/
theorem leavesOpen_append_newline {text : List Char} (closed : ¬ leavesOpen text) (more : List Char) :
    leavesOpen (text ++ '\n' :: more) = leavesOpen more := by
  induction text using pieces.induct with
  | case1 => exact leavesOpen_cons_space rfl more
  | case2 c rest ih =>
    have ih := ih fun open_ => closed (leavesOpen_rest c rest open_)
    by_cases space : isSpace c
    · have after : (nextPiece c rest).rest = rest.dropWhile isSpace := by
        rw [nextPiece, if_pos space]
        rfl
      rw [after] at ih
      rw [List.cons_append, leavesOpen_space space, ← ih, List.dropWhile_append]
      split
      · rename_i none
        rw [List.isEmpty_iff.mp none, leavesOpen_dropWhile_space]
        rfl
      · rfl
    · rw [List.cons_append, leavesOpen_cons, nextPiece_append_newline (Bool.eq_false_iff.mpr space) closed,
        if_neg (by simp [Cut.extend])]
      exact ih

theorem not_leavesOpen_of_quoteless {text : List Char} (plain : ∀ c ∈ text, c ≠ '"' ∧ c ≠ '\'') :
    ¬ leavesOpen text := by
  intro open_
  unfold leavesOpen at open_
  split at open_
  · rename_i c rest last
    -- The last piece begins with one of the characters of the text.
    have member : c ∈ text := by
      rw [← flatMap_pieces text, List.mem_flatMap]
      exact ⟨_, List.mem_of_getLast? last, List.mem_cons_self⟩
    simp only [Bool.or_eq_true, decide_eq_true_eq] at open_
    exact open_.elim (plain c member).1 (plain c member).2
  · cases open_

end Stencil.Program
