import Stencil.Proofs.Program.Lexing

/-! Pieces are cut alike wherever they stand.

The lexer looks at most two characters beyond a piece, and it looks there only to find that the piece ends. So where all
of a piece stands in front of some place in the text, the rest of the text behind that place can go without changing the
piece. Strings that break off are an exception: a backslash with a line feed behind it ends one, and one without does not.
-/

set_option autoImplicit false

namespace Stencil.Program

section

variable (p : Char → Bool) {text more : List Char}

theorem takeWhile_of_append (within : ((text ++ more).takeWhile p).length ≤ text.length) :
    (text ++ more).takeWhile p = text.takeWhile p ∧ (text ++ more).dropWhile p = text.dropWhile p ++ more := by
  have taken : (text ++ more).takeWhile p = text.takeWhile p := by
    rw [List.takeWhile_append]
    split
    · rename_i all
      rw [List.takeWhile_append, if_pos all, List.length_append] at within
      have none : more.takeWhile p = [] := List.length_eq_zero_iff.mp (by omega)
      rw [none, List.append_nil, (List.takeWhile_prefix p).eq_of_length all]
    · rfl
  have whole : text.takeWhile p ++ (text ++ more).dropWhile p = text.takeWhile p ++ (text.dropWhile p ++ more) := by
    rw [← List.append_assoc, List.takeWhile_append_dropWhile, ← taken, List.takeWhile_append_dropWhile]
  exact ⟨taken, List.append_cancel_left whole⟩

end

section

variable {rest more : List Char}

theorem cutWhile_of_append {kind : List Char → PieceKind} {p : Char → Bool}
    (within : (cutWhile kind p (rest ++ more)).tail.length ≤ rest.length) :
    cutWhile kind p (rest ++ more) = (cutWhile kind p rest).extend more := by
  obtain ⟨taken, dropped⟩ := takeWhile_of_append p within
  simp only [cutWhile, Cut.extend, taken, dropped]

theorem numberPiece_of_append {whole tail after : List Char}
    (within : (numberPiece whole tail (after ++ more)).tail.length ≤ tail.length + after.length) :
    numberPiece whole tail (after ++ more) = (numberPiece whole tail after).extend more := by
  by_cases fraction : ∃ d others, after ++ more = '.' :: d :: others ∧ d.isDigit
  · obtain ⟨d, others, same, digit⟩ := fraction
    rw [same] at within ⊢
    simp only [numberPiece, digit, if_true, List.length_append, List.length_cons] at within ⊢
    -- All of the fraction stands in front, the point and the first digit of it too.
    obtain _ | ⟨_, _ | ⟨_, front⟩⟩ := after
    · simp only [List.length_nil] at within
      omega
    · simp only [List.length_cons, List.length_nil] at within
      omega
    · rw [List.cons_append, List.cons_append, List.cons.injEq, List.cons.injEq] at same
      obtain ⟨rfl, rfl, rfl⟩ := same
      simp only [List.length_cons] at within
      have short : ((front ++ more).takeWhile Char.isDigit).length ≤ front.length := by omega
      obtain ⟨taken, dropped⟩ := takeWhile_of_append Char.isDigit short
      simp only [digit, if_true, Cut.extend, taken, dropped]
  · rw [numberPiece_of_pointless, numberPiece_of_pointless]
    · rfl
    · rintro d others rfl digit
      exact fraction ⟨d, others ++ more, rfl, digit⟩
    · intro d others same digit
      exact fraction ⟨d, others, same, digit⟩

theorem length_le_numberPiece (whole tail after : List Char) :
    tail.length ≤ (numberPiece whole tail after).tail.length := by
  unfold numberPiece
  split
  · split
    · simp
    · exact Nat.le_refl _
  · exact Nat.le_refl _

theorem cutString_of_append {quote : Char} (plain : quote ≠ '\\') {inner after : List Char}
    (cut : cutString quote (rest ++ more) = (inner, quote :: after)) (within : inner.length < rest.length) :
    ∃ last, cutString quote rest = (inner, quote :: last) ∧ after = last ++ more := by
  -- Where the string breaks off in front of a backslash, the backslash would have to be the quote.
  fun_induction cutString quote rest generalizing inner with
  | case1 => cases within
  | case2 =>
    obtain rfl := List.length_eq_zero_iff.mp (Nat.lt_one_iff.mp within)
    cases more with
    | nil =>
      cases cut
      exact absurd rfl plain
    | cons c more =>
      rw [List.singleton_append, cutString] at cut
      split at cut
      · cases cut
        exact absurd rfl plain
      · cases cut
  | case3 rest =>
    rw [List.cons_append, List.cons_append, cutString, if_pos rfl] at cut
    cases cut
    exact absurd rfl plain
  | case4 c rest other ih =>
    rw [List.cons_append, List.cons_append, cutString, if_neg other] at cut
    obtain ⟨rfl, tail⟩ := Prod.mk.inj cut
    obtain ⟨last, cut, rest⟩ := ih (Prod.ext rfl tail) (by simpa using within)
    exact ⟨last, by rw [cut], rest⟩
  | case5 rest last escape =>
    rw [List.cons_append, cutString_cons (ne_backslash last escape), if_pos rfl] at cut
    cases cut
    exact ⟨rest, rfl, rfl⟩
  | case6 c rest last escape other ih =>
    rw [List.cons_append, cutString_cons (ne_backslash last escape), if_neg other] at cut
    obtain ⟨rfl, tail⟩ := Prod.mk.inj cut
    obtain ⟨last, cut, rest⟩ := ih (Prod.ext rfl tail) (by simpa using within)
    exact ⟨last, by rw [cut], rest⟩

theorem stringPiece_of_append {quote : Char} (plain : quote ≠ '\\')
    (lexed : ¬ (stringPiece quote (rest ++ more)).kind.isBad)
    (within : (stringPiece quote (rest ++ more)).tail.length ≤ rest.length) :
    stringPiece quote (rest ++ more) = (stringPiece quote rest).extend more := by
  unfold stringPiece at lexed within ⊢
  cases cut : cutString quote (rest ++ more) with
  | mk inner after =>
    rw [cut] at lexed within
    cases after with
    | nil => exact absurd rfl lexed
    | cons q after =>
      dsimp only at lexed within ⊢
      split at lexed
      · rename_i same
        subst same
        rw [if_pos rfl] at within
        have shorter : inner.length + 1 ≤ rest.length := by
          simpa only [List.length_append, List.length_singleton] using within
        obtain ⟨last, cut', rfl⟩ := cutString_of_append plain cut shorter
        simp only [cut', if_true]
        rfl
      · exact absurd rfl lexed

theorem symbolPiece_of_append {c : Char} (within : (symbolPiece c (rest ++ more)).tail.length ≤ rest.length) :
    symbolPiece c (rest ++ more) = (symbolPiece c rest).extend more := by
  cases rest with
  | nil =>
    cases more with
    | nil => exact shortPiece_extend c [] []
    | cons d more =>
      -- Nothing stands in front, so that the piece has only one character.
      simp only [List.nil_append, symbolPiece] at within ⊢
      split at within
      · cases within
      · rename_i noComment
        rw [if_neg noComment]
        cases found : symbolOf? Symbol.long [c, d] with
        | some sign =>
          rw [found] at within
          cases within
        | none => exact shortPiece_extend c [] (d :: more)
  | cons d others =>
    simp only [List.cons_append, symbolPiece] at within ⊢
    split
    · rename_i slashes
      rw [if_pos slashes] at within
      obtain ⟨taken, dropped⟩ := takeWhile_of_append (fun d => decide (d ≠ '\n')) (Nat.le_of_succ_le_succ within)
      simp only [Cut.extend, taken, dropped]
    · split
      · rfl
      · exact shortPiece_extend c (d :: others) more

/-- What all stands in front of a place is cut alike without what stands behind it. -/
theorem nextPiece_of_append {c : Char} (lexed : ¬ (nextPiece c (rest ++ more)).kind.isBad)
    (within : (nextPiece c (rest ++ more)).tail.length ≤ rest.length) :
    nextPiece c (rest ++ more) = (nextPiece c rest).extend more := by
  -- The kinds of pieces, in the order in which the lexer tries them.
  unfold nextPiece at lexed within ⊢
  split
  · rename_i space
    rw [if_pos space] at within
    exact cutWhile_of_append within
  rename_i solid
  rw [if_neg solid] at lexed within
  split
  · rename_i name
    rw [if_pos name] at within
    exact cutWhile_of_append within
  rename_i noName
  rw [if_neg noName] at lexed within
  split
  · rename_i digit
    rw [if_pos digit] at within
    -- The whole part is taken first, and the fraction from what is left.
    have whole : ((rest ++ more).takeWhile Char.isDigit).length ≤ rest.length :=
      Nat.le_trans (length_le_numberPiece _ _ _) within
    obtain ⟨taken, dropped⟩ := takeWhile_of_append Char.isDigit whole
    rw [taken, dropped] at within ⊢
    exact numberPiece_of_append (by rwa [← List.length_append, List.takeWhile_append_dropWhile])
  rename_i noDigit
  rw [if_neg noDigit] at lexed within
  split
  · rename_i quote
    rw [if_pos quote] at lexed within
    exact stringPiece_of_append (by rcases quote with rfl | rfl <;> decide) lexed within
  · rename_i noQuote
    rw [if_neg noQuote] at within
    exact symbolPiece_of_append within

end

theorem pieces_of_suffix {text : List Char} {first last : List Piece} (all : pieces text = first ++ last) :
    pieces (last.flatMap Piece.text) = last := by
  induction text using pieces.induct generalizing first with
  | case1 =>
    rw [pieces] at all
    obtain ⟨-, rfl⟩ := List.append_eq_nil_iff.mp all.symm
    rw [List.flatMap_nil, pieces]
  | case2 c rest ih =>
    cases first with
    | nil => rw [← List.nil_append last, ← all, flatMap_pieces]
    | cons piece first =>
      rw [pieces, List.cons_append, List.cons.injEq] at all
      exact ih all.2

theorem pieces_of_prefix {text : List Char} {first last : List Piece} (all : pieces text = first ++ last)
    (lexed : ∀ piece ∈ first, ¬ piece.kind.isBad) : pieces (first.flatMap Piece.text) = first := by
  induction first generalizing text with
  | nil => rw [List.flatMap_nil, pieces]
  | cons piece first ih =>
    cases text with
    | nil =>
      rw [pieces] at all
      cases all
    | cons c rest =>
      rw [pieces, List.cons_append, List.cons.injEq] at all
      obtain ⟨rfl, all⟩ := all
      rw [List.forall_mem_cons] at lexed
      have ih := ih all lexed.2
      have whole : rest = ((nextPiece c rest).tail ++ first.flatMap Piece.text) ++ last.flatMap Piece.text := by
        rw [List.append_assoc, ← List.flatMap_append, ← all, flatMap_pieces, nextPiece_append]
      -- The first piece ends in front of what is cut off, so that it is the same without it.
      have same := nextPiece_of_append (whole ▸ lexed.1) (by
        rw [← whole, List.length_append]
        exact Nat.le_add_right _ _)
      rw [← whole] at same
      have kind := congrArg Cut.kind same
      have tail := congrArg Cut.tail same
      simp only [Cut.extend] at kind tail
      have parts := nextPiece_append c ((nextPiece c rest).tail ++ first.flatMap Piece.text)
      rw [← tail] at parts
      rw [List.flatMap_cons, List.cons_append, pieces, List.append_cancel_left parts, ← kind, ← tail, ih]

end Stencil.Program
