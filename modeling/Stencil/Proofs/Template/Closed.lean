import Stencil.Proofs.Template.Paired
import Stencil.Proofs.Template.SingleLine

/-! Texts that are closed as to strings and to brackets of one kind.

The end of an interpolation and the end of a condition are found by a scan that minds strings and the brackets of one
kind only. What it finds is told without the scan: it stops in front of the first closing bracket behind a closed text.
-/

set_option autoImplicit false

namespace Stencil.Template

/-- Strings are closed, and outside strings so are the brackets of one kind. -/
inductive Closed (opening closing : Char) : List Char → Prop
  | nil : Closed opening closing []
  | plain {c : Char} {rest : List Char} (unquoted : isQuote c = false) (opens : c ≠ opening) (closes : c ≠ closing)
    (after : Closed opening closing rest) : Closed opening closing (c :: rest)
  | string {quote : Char} {content rest : List Char} (quotes : isQuote quote) (inside : Quoted quote content)
    (after : Closed opening closing rest) : Closed opening closing (quote :: (content ++ quote :: rest))
  | group {inner rest : List Char} (inside : Closed opening closing inner) (after : Closed opening closing rest) :
    Closed opening closing (opening :: (inner ++ closing :: rest))

theorem ne_of_pair {opening closing : Char} (pair : closingOf? opening = some closing) :
    isQuote opening = false ∧ isQuote closing = false ∧ opening ≠ closing ∧
      Text.isBlank opening = false ∧ Text.isBlank closing = false := by
  rcases pair_cases pair with ⟨rfl, rfl⟩ | ⟨rfl, rfl⟩ | ⟨rfl, rfl⟩ <;> decide

theorem isBlank_of_isQuote {c : Char} (quotes : isQuote c) : Text.isBlank c = false := by
  rcases quote_cases quotes with rfl | rfl <;> decide

namespace Closed

variable {opening closing : Char} {first second : List Char}

theorem append (before : Closed opening closing first) (after : Closed opening closing second) :
    Closed opening closing (first ++ second) := by
  induction before with
  | nil => exact after
  | plain unquoted opens closes _ ih => exact .plain unquoted opens closes ih
  | string quotes inside _ ih =>
    rw [List.cons_append, List.append_assoc, List.cons_append]
    exact .string quotes inside ih
  | group inside _ _ ih =>
    rw [List.cons_append, List.append_assoc, List.cons_append]
    exact .group inside ih

variable (pair : closingOf? opening = some closing)

include pair

theorem trimStart {text : List Char} (closed : Closed opening closing text) :
    Closed opening closing (Text.trimStart text) := by
  induction closed with
  | nil => exact .nil
  | @plain c rest unquoted opens closes after ih =>
    cases blank : Text.isBlank c with
    | true =>
      rw [Text.trimStart_cons_blank blank]
      exact ih
    | false =>
      rw [Text.trimStart_cons blank]
      exact .plain unquoted opens closes after
  | string quotes inside after _ =>
    rw [Text.trimStart_cons (isBlank_of_isQuote quotes)]
    exact .string quotes inside after
  | group inside after _ _ =>
    rw [Text.trimStart_cons (ne_of_pair pair).2.2.2.1]
    exact .group inside after

theorem trimEnd {text : List Char} (closed : Closed opening closing text) :
    Closed opening closing (Text.trimEnd text) := by
  induction closed with
  | nil => exact .nil
  | @plain c rest unquoted opens closes _ ih =>
    cases blank : Text.isBlank c with
    | false =>
      rw [Text.trimEnd_cons_visible blank]
      exact .plain unquoted opens closes ih
    | true =>
      by_cases none : Text.trimEnd rest = []
      · -- Nothing is left of blanks.
        have all : Text.trimEnd (c :: rest) = [] :=
          List.rdropWhile_eq_nil_iff.mpr (List.forall_mem_cons.mpr ⟨blank, List.rdropWhile_eq_nil_iff.mp none⟩)
        rw [all]
        exact .nil
      · have more : Text.trimEnd ([c] ++ rest) = [c] ++ Text.trimEnd rest := Text.trimEnd_append none
        rw [List.singleton_append, List.singleton_append] at more
        rw [more]
        exact .plain unquoted opens closes ih
  | string quotes inside _ ih =>
    rw [← List.cons_append, Text.trimEnd_append_cons (isBlank_of_isQuote quotes), List.cons_append]
    exact .string quotes inside ih
  | group inside _ _ ih =>
    rw [← List.cons_append, Text.trimEnd_append_cons (ne_of_pair pair).2.2.2.2, List.cons_append]
    exact .group inside ih

theorem trim {text : List Char} (closed : Closed opening closing text) : Closed opening closing (Text.trim text) :=
  trimEnd pair (trimStart pair closed)

end Closed

theorem Paired.closed {bars : Char → Bool} {enclosed : Bool} {text : List Char} (paired : Paired bars enclosed text)
    {opening closing : Char} (pair : closingOf? opening = some closing) : Closed opening closing text := by
  have plain {c : Char} {rest : List Char} (unquoted : isQuote c = false) (opens : c ≠ opening) (closes : c ≠ closing)
      (after : Closed opening closing rest) : Closed opening closing (c :: rest) := .plain unquoted opens closes after
  induction paired with
  | nil => exact .nil
  | @solid _ c rest solid _ _ ih =>
    obtain ⟨unquoted, opens, closes⟩ := ne_of_isSolid solid
    refine plain unquoted ?_ ?_ ih
    · rintro rfl
      rw [pair] at opens
      cases opens
    · rintro rfl
      rcases pair_cases pair with ⟨_, rfl⟩ | ⟨_, rfl⟩ | ⟨_, rfl⟩ <;> cases closes
  | string quotes inside _ ih => exact .string quotes inside ih
  | @group _ opening' closing' inner rest pair' _ _ ih ih' =>
    by_cases same : opening' = opening
    · subst same
      obtain rfl : closing' = closing := Option.some.inj (pair'.symm.trans pair)
      exact .group ih ih'
    · -- The brackets of another kind count for nothing.
      obtain ⟨unquoted, unquoted', -⟩ := ne_of_pair pair'
      have others : opening' ≠ closing ∧ closing' ≠ opening ∧ closing' ≠ closing := by
        rcases pair_cases pair with ⟨rfl, rfl⟩ | ⟨rfl, rfl⟩ | ⟨rfl, rfl⟩ <;>
          rcases pair_cases pair' with ⟨rfl, rfl⟩ | ⟨rfl, rfl⟩ | ⟨rfl, rfl⟩ <;>
            first | exact absurd rfl same | decide
      exact plain unquoted same others.1 (ih.append (plain unquoted' others.2.1 others.2.2 ih'))

/-! ### The scan for the closing bracket -/

section
variable {opening closing : Char} (pair : closingOf? opening = some closing)

include pair

/-- The scan goes through a closed text and comes back to where it was. -/
theorem Closed.passes {text : List Char} (closed : Closed opening closing text) (depth : Nat) :
    Passes (fun n c => n.isBare && c = closing) (Nesting.step (· = opening) (· = closing)) ⟨depth, .outside⟩ text
      ⟨depth, .outside⟩ := by
  obtain ⟨unquoted, unquoted', differ, -⟩ := ne_of_pair pair
  induction closed generalizing depth with
  | nil => exact .nil _
  | plain plain opens closes _ ih =>
    refine .cons (by simp [closes]) ?_
    simpa [Nesting.step, Quoting.step, plain, opens, closes] using ih depth
  | @string quote content rest quotes inside _ ih =>
    have other : quote ≠ opening ∧ quote ≠ closing ∧ quote ≠ '\\' := by
      refine ⟨?_, ?_, ?_⟩ <;> rintro rfl <;> simp_all [isQuote]
    have through : Passes (fun n c => n.isBare && c = closing) (Nesting.step (· = opening) (· = closing))
        ⟨depth, .inside quote⟩ content ⟨depth, .inside quote⟩ :=
      inside.passes (Nesting.mk depth) quotes fun q c within _ =>
        ⟨by simp [Nesting.isBare, within], by simp [Nesting.step, within]⟩
    refine .cons (by simp [other.2.1]) ?_
    have next : Nesting.step (· = opening) (· = closing) ⟨depth, .outside⟩ quote = ⟨depth, .inside quote⟩ := by
      simp [Nesting.step, Quoting.step, quotes, other.1, other.2.1]
    rw [next]
    refine through.append (.cons (by simp [other.2.1]) ?_)
    simpa [Nesting.step, Quoting.step, other.2.2] using ih depth
  | group _ _ ih ih' =>
    -- Inside of the group the depth is one more, so that the bracket that closes it does not stop the scan.
    refine .cons (by simp [differ]) ?_
    have next : Nesting.step (· = opening) (· = closing) ⟨depth, .outside⟩ opening = ⟨depth + 1, .outside⟩ := by
      simp [Nesting.step, Quoting.step, unquoted]
    rw [next]
    refine (ih (depth + 1)).append (.cons (by simp [Nesting.isBare]) ?_)
    simpa [Nesting.step, Quoting.step, unquoted', Ne.symm differ] using ih' depth

theorem closeBracket_closed {text : List Char} (closed : Closed opening closing text) (rest : List Char) :
    closeBracket opening closing (text ++ closing :: rest) = some (text, rest) := by
  unfold closeBracket Nesting.start
  rw [(closed.passes pair 0).cutAt_append]
  simp [cutAt, Nesting.isBare]

end

/-- A text that closes a number of brackets besides its own. -/
inductive Owing (opening closing : Char) : Nat → List Char → Prop
  | none {text : List Char} (closed : Closed opening closing text) : Owing opening closing 0 text
  | more {depth : Nat} {first rest : List Char} (closed : Closed opening closing first)
    (after : Owing opening closing depth rest) : Owing opening closing (depth + 1) (first ++ closing :: rest)

namespace Owing

variable {opening closing : Char} {depth : Nat} {first text : List Char}

theorem behind (before : Closed opening closing first) (owing : Owing opening closing depth text) :
    Owing opening closing depth (first ++ text) := by
  cases owing with
  | none closed => exact .none (before.append closed)
  | more closed after =>
    rw [← List.append_assoc]
    exact .more (before.append closed) after

theorem opened (owing : Owing opening closing (depth + 1) text) : Owing opening closing depth (opening :: text) := by
  cases owing with
  | @more _ first rest closed after =>
    have group : Closed opening closing (opening :: (first ++ [closing])) := .group closed .nil
    have whole : opening :: (first ++ closing :: rest) = (opening :: (first ++ [closing])) ++ rest := by simp
    rw [whole]
    exact after.behind group

theorem plain {c : Char} (unquoted : isQuote c = false) (opens : c ≠ opening) (closes : c ≠ closing)
    (owing : Owing opening closing depth text) : Owing opening closing depth (c :: text) :=
  owing.behind (.plain unquoted opens closes .nil)

theorem string {quote : Char} {content : List Char} (quotes : isQuote quote) (inside : Quoted quote content)
    (owing : Owing opening closing depth text) :
    Owing opening closing depth (quote :: (content ++ quote :: text)) := by
  have string : Closed opening closing (quote :: (content ++ [quote])) := .string quotes inside .nil
  have whole : quote :: (content ++ quote :: text) = (quote :: (content ++ [quote])) ++ text := by simp
  rw [whole]
  exact owing.behind string

end Owing

/-- What the scan has gone through from some state to the stop: the end of the string that it stood in, and then a text
that closes as many brackets as were open. -/
def Finishes (opening closing : Char) (n : Nesting) (text : List Char) : Prop :=
  match n.quoting with
  | .outside => Owing opening closing n.depth text
  | .inside quote => isQuote quote → ∃ content rest, text = content ++ quote :: rest ∧ Quoted quote content ∧
      Owing opening closing n.depth rest
  | .escaped quote => isQuote quote → ∃ c content rest, text = c :: (content ++ quote :: rest) ∧ Quoted quote content ∧
      Owing opening closing n.depth rest

section
variable {opening closing : Char} (pair : closingOf? opening = some closing)

include pair

/-- One step back outside strings: a string begins, a bracket opens or closes, or the character is none of these. -/
theorem Finishes.back_outside {depth : Nat} {c : Char} {text : List Char}
    (goes : (Nesting.isBare ⟨depth, .outside⟩ && c = closing) = false)
    (after : Finishes opening closing (Nesting.step (· = opening) (· = closing) ⟨depth, .outside⟩ c) text) :
    Owing opening closing depth (c :: text) := by
  obtain ⟨unquoted, unquoted', -, -⟩ := ne_of_pair pair
  by_cases quotes : isQuote c
  · have other : c ≠ opening ∧ c ≠ closing := by
      constructor <;> rintro rfl <;> simp_all
    simp only [Finishes, Nesting.step, Quoting.step, quotes, other, if_true, if_false, decide_false,
      Bool.false_eq_true, forall_const] at after
    obtain ⟨content, rest, rfl, inside, owing⟩ := after
    exact owing.string quotes inside
  simp only [Finishes, Nesting.step, Quoting.step, quotes, if_true, if_false, Bool.false_eq_true] at after
  by_cases opens : c = opening
  · subst opens
    simp only [decide_true, if_true] at after
    exact after.opened
  by_cases closes : c = closing
  · subst closes
    simp only [Nesting.isBare, decide_true, Bool.and_true, Bool.true_and, decide_eq_false_iff_not] at goes
    -- The bracket did not stop the scan, so that it closes one that was open.
    obtain ⟨more, rfl⟩ := Nat.exists_eq_succ_of_ne_zero goes
    simp only [opens, decide_false, decide_true, Bool.false_eq_true, if_true, if_false] at after
    exact .more .nil after
  · simp only [opens, closes, decide_false, Bool.false_eq_true, if_false] at after
    exact after.plain (Bool.eq_false_iff.mpr quotes) opens closes

theorem Finishes.back {n : Nesting} {c : Char} {text : List Char} (goes : (n.isBare && c = closing) = false)
    (after : Finishes opening closing (n.step (· = opening) (· = closing) c) text) :
    Finishes opening closing n (c :: text) := by
  obtain ⟨depth, quoting⟩ := n
  cases quoting with
  | outside => exact Finishes.back_outside pair goes after
  | inside quote =>
    intro quotes
    by_cases slash : c = '\\'
    · subst slash
      simp only [Finishes, Nesting.step, Quoting.step, if_true, if_false, reduceCtorEq] at after
      obtain ⟨d, content, rest, rfl, inside, owing⟩ := after quotes
      exact ⟨'\\' :: d :: content, rest, rfl, .escape d inside, owing⟩
    by_cases same : c = quote
    · subst same
      simp only [Finishes, Nesting.step, Quoting.step, slash, if_true, if_false, reduceCtorEq] at after
      exact ⟨[], text, rfl, .nil, after⟩
    · simp only [Finishes, Nesting.step, Quoting.step, slash, same, if_false, reduceCtorEq] at after
      obtain ⟨content, rest, rfl, inside, owing⟩ := after quotes
      exact ⟨c :: content, rest, rfl, .plain slash same inside, owing⟩
  | escaped quote =>
    intro quotes
    simp only [Finishes, Nesting.step, Quoting.step, if_false, reduceCtorEq] at after
    obtain ⟨content, rest, rfl, inside, owing⟩ := after quotes
    exact ⟨c, content, rest, rfl, inside, owing⟩

/-- What the scan stops in front of is the bracket, and what it has gone through finishes what was open. -/
theorem finishes_of_cutAt {n state : Nesting} {text front rest : List Char} {c : Char}
    (cut : cutAt (fun n c => n.isBare && c = closing) (Nesting.step (· = opening) (· = closing)) n text =
      (front, state, c :: rest)) : Finishes opening closing n front ∧ c = closing := by
  induction text generalizing n front with
  | nil => cases cut
  | cons d text ih =>
    rw [cutAt] at cut
    split at cut
    · rename_i stops
      cases cut
      simp only [Bool.and_eq_true, decide_eq_true_eq, Nesting.isBare] at stops
      obtain ⟨depth, quoting⟩ := state
      obtain ⟨⟨rfl, rfl⟩, closes⟩ := stops
      exact ⟨.none .nil, closes⟩
    · -- The scan is told from its end: one step back, a character is put in front of what finishes the rest.
      rename_i goes
      obtain ⟨rfl, others⟩ := Prod.mk.inj cut
      obtain ⟨finishes, closes⟩ := ih (Prod.ext rfl others)
      exact ⟨finishes.back pair (Bool.eq_false_iff.mpr goes), closes⟩

/-- The scan finds the end of a closed text, and of nothing else. -/
theorem closeBracket_eq_some_iff {text inner rest : List Char} :
    closeBracket opening closing text = some (inner, rest) ↔
      Closed opening closing inner ∧ text = inner ++ closing :: rest := by
  constructor
  · intro found
    have whole := append_of_closeBracket found
    unfold closeBracket at found
    split at found
    · rename_i front state c more cut
      cases found
      obtain ⟨finishes, _⟩ := finishes_of_cutAt pair cut
      cases finishes with
      | none closed => exact ⟨closed, whole.symm⟩
    · cases found
  · rintro ⟨closed, rfl⟩
    exact closeBracket_closed pair closed rest

end

end Stencil.Template
