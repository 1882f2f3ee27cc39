import Stencil.Proofs.Template.Offsets.Attributes

/-! Tags are read by offsets as on characters.

The signs that begin a shorthand and the brackets around a collection are of one byte.
-/

set_option autoImplicit false

namespace Stencil

open Program (byteLength)

namespace Template.ByOffset

theorem utf8Size_of_shorthand {c : Char} {kind : Shorthand} (known : Shorthand.ofChar? c = some kind) :
    c.utf8Size = 1 := by
  unfold Shorthand.ofChar? at known
  split at known
  · next same => exact same ▸ rfl
  · split at known
    · next same => exact same ▸ rfl
    · cases known

theorem readShorthands_eq (line : Nat) (text : List Char) :
    readShorthands line text = settled (Template.readShorthands line text) := by
  fun_induction Template.readShorthands line text with
  | case1 =>
    rw [readShorthands]
    rfl
  | case2 c rest other =>
    rw [readShorthands, readShorthand]
    simp only [List.head?_cons, Option.bind_some, other]
    rfl
  | case3 c rest kind known name empty =>
    obtain ⟨whole, begun, behind⟩ := cut?_one (utf8Size_of_shorthand known) rest
    obtain ⟨short, taken⟩ := takeName_eq isNameChar rest
    rw [readShorthands, readShorthand]
    simp only [List.head?_cons, Option.bind_some, known, behind, cutting_some_bind, taken, settled_ok_bind]
    rw [dif_pos (List.isEmpty_iff.mp empty)]
    rfl
  | case4 c rest kind known name some ih =>
    obtain ⟨whole, begun, behind⟩ := cut?_one (utf8Size_of_shorthand known) rest
    obtain ⟨short, taken⟩ := takeName_eq isNameChar rest
    rw [readShorthands, readShorthand]
    simp only [List.head?_cons, Option.bind_some, known, behind, cutting_some_bind, taken, settled_ok_bind]
    rw [dif_neg (fun none => some (List.isEmpty_iff.mpr none)), pure_eq, settled_ok_bind]
    simp only [ih]
    cases Template.readShorthands line (rest.dropWhile isNameChar) <;> rfl

theorem opens_of_ofChar? {c closing : Char} {style : AttributeStyle}
    (known : AttributeStyle.ofChar? c = some (style, closing)) :
    c.utf8Size = 1 ∧ closingOf? c = some closing ∧ isClosing c = false ∧ isQuote c = false := by
  unfold AttributeStyle.ofChar? at known
  split at known
  · next same =>
    subst same
    cases known
    decide
  · split at known
    · next same =>
      subst same
      cases known
      decide
    · cases known

theorem utf8Size_of_isClosing {c : Char} (closes : isClosing c) : c.utf8Size = 1 := by
  simp only [isClosing, Bool.or_eq_true, decide_eq_true_eq] at closes
  rcases closes with (rfl | rfl) | rfl <;> rfl

theorem collectionEnd_eq (line : Nat) {c closing : Char} {style : AttributeStyle}
    (known : AttributeStyle.ofChar? c = some (style, closing)) (rest : List Char) :
    collectionEnd line (c :: rest) =
      (closeCollection line closing rest).map fun cut => 1 + byteLength cut.1 := by
  obtain ⟨single, opens, stays, plain⟩ := opens_of_ofChar? known
  have first : Brackets.stops ⟨[], .outside⟩ c = false := by simp [Brackets.stops, stays]
  have state : Brackets.step ⟨[], .outside⟩ c = ⟨[closing], .outside⟩ := by
    simp [Brackets.step, opens, Quoting.step, plain]
  rw [collectionEnd, seek, first, state, single, closeCollection, seek_eq]
  simp only [Bool.false_eq_true, if_false, Nat.zero_add]
  rcases cutAt Brackets.stops Brackets.step ⟨[closing], .outside⟩ rest with ⟨inner, state, _ | ⟨d, after⟩⟩
  · rfl
  · simp only [List.head?_cons, Option.map_some]
    split <;> rfl

theorem readCollections_eq (line : Nat) (text : List Char) :
    readCollections line text = settled (Template.readCollections line text) := by
  fun_induction Template.readCollections line text with
  | case1 =>
    rw [readCollections]
    rfl
  | case2 c rest other =>
    rw [readCollections, readCollection]
    simp only [List.head?_cons, Option.bind_some, other]
    rfl
  | case3 c rest style closing known e failed =>
    rw [readCollections, readCollection]
    simp only [List.head?_cons, Option.bind_some, known]
    rw [collectionEnd_eq line known, failed]
    rfl
  | case4 c rest style closing known inner after closed e failed =>
    obtain ⟨last, closes, whole⟩ := append_of_closeCollection closed
    rw [readCollections, readCollection]
    simp only [List.head?_cons, Option.bind_some, known]
    rw [collectionEnd_eq line known, closed]
    simp only [Except.map, settled_ok_bind, slice?_enclosed (opens_of_ofChar? known).1 whole, cutting_some_bind,
      readAttributes_eq, failed]
    rfl
  | case5 c rest style closing known inner after closed attributes read ih =>
    obtain ⟨last, closes, whole⟩ := append_of_closeCollection closed
    have single := (opens_of_ofChar? known).1
    obtain ⟨whole', begun, behind⟩ := cut?_enclosed single whole (utf8Size_of_isClosing closes)
    rw [readCollections, readCollection]
    simp only [List.head?_cons, Option.bind_some, known]
    rw [collectionEnd_eq line known, closed]
    simp only [Except.map, settled_ok_bind, slice?_enclosed single whole, cutting_some_bind, readAttributes_eq, read,
      behind, pure_eq, ih]
    cases Template.readCollections line after <;> rfl

theorem readHead_eq (line : Nat) (text : List Char) : readHead line text = settled (Template.readHead line text) := by
  fun_cases Template.readHead line text with
  | case1 rest isPart name empty =>
    obtain ⟨short, taken⟩ := takeName_eq isPart rest
    rw [readHead, taken, settled_ok_bind, if_pos empty]
  | case2 rest isPart name some =>
    obtain ⟨short, taken⟩ := takeName_eq isPart rest
    rw [readHead, taken, settled_ok_bind, if_neg some]
    cases headOfName line name <;> rfl
  | case3 text other =>
    rw [readHead]
    · rfl
    · exact other

theorem readInline_eq (head : TagHead) (rest : List Char) :
    readInline head rest = settled (Template.readInline head rest) := by
  have one (x : Except ParseError Node) :
      (settled x >>= fun node => (pure (head, [node]) : Sliced (TagHead × List Node))) =
        settled (x.map fun node => (head, [node])) := by
    cases x <;> rfl
  fun_cases Template.readInline head rest with
  | case1 => rfl
  | case2 after blank =>
    rw [readInline.eq_def]
    exact if_pos blank
  | case3 after visible =>
    rw [readInline.eq_def]
    exact if_neg visible
  | case4 c after other goes inline =>
    rw [readInline.eq_def]
    dsimp only
    split
    · cases ‹c :: after = []›
    · next same =>
      cases same
      exact (other rfl).elim
    · next same =>
      cases same
      rw [if_pos goes]
      subst inline
      generalize Text.trim (c :: after) = text
      rcases text with _ | ⟨d, text⟩
      · rfl
      · by_cases equals : d = '='
        · subst equals
          exact one _
        · simpa [equals, textNode_eq] using one (Template.textNode head.line (d :: text))
  | case5 c after other stays =>
    rw [readInline.eq_def]
    dsimp only
    split
    · cases ‹c :: after = []›
    · next same =>
      cases same
      exact (other rfl).elim
    · next same =>
      cases same
      rw [if_neg stays]

theorem readTag_eq (line : Nat) (text : List Char) : readTag line text = settled (Template.readTag line text) := by
  rw [readTag, Template.readTag]
  simp only [settled_bind, readHead_eq, readShorthands_eq, readCollections_eq, readInline_eq]
  rfl

end Template.ByOffset

end Stencil
