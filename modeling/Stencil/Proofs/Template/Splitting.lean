import Stencil.Proofs.Template.Interpolation
import Stencil.Proofs.Template.Lines

/-! Splitting a text gives back the segments that it was written from.

A literal is written with a backslash in front of each `#{`, and an expression between `#{` and its brace. Splitting
takes this back, as long as nothing runs together: two literals would become one, and a backslash at the end of a
literal would take away the meaning of the opening behind it. Splitting never comes to segments that would.
-/

set_option autoImplicit false

namespace Stencil.Template

def protect : List Char → List Char
  | '#' :: '{' :: rest => '\\' :: '#' :: '{' :: protect rest
  | c :: rest => c :: protect rest
  | [] => []

/-- An expression between the braces of an interpolation, as splitting gives it. -/
structure IsPath (path : List Char) : Prop where
  some_ : path ≠ []
  trimmed : Text.trim path = path
  closed : Closed '{' '}' path

namespace Segment

def written : Segment → List Char
  | .literal content => protect content
  | .variable path => '#' :: '{' :: (path ++ ['}'])

def IsSound : Segment → Prop
  | .literal content => content ≠ []
  | .variable path => IsPath path

/-- Whether a segment and the next one stay apart. -/
def Parts : Segment → Segment → Prop
  | .literal _, .literal _ => False
  | .literal content, .variable _ => content.getLast? ≠ some '\\'
  | .variable _, _ => True

end Segment

structure AreApart (segments : List Segment) : Prop where
  sound : ∀ segment ∈ segments, segment.IsSound
  chain : segments.IsChain Segment.Parts

/-! ### Protected text -/

theorem protect_cons {c : Char} {rest : List Char} (opens : ∀ more, c = '#' → rest ≠ '{' :: more) :
    protect (c :: rest) = c :: protect rest := by
  rw [protect]
  exact opens

theorem head?_protect (text : List Char) : (protect text).head? = text.head? ∨ (protect text).head? = some '\\' := by
  unfold protect
  split
  · exact .inr rfl
  · exact .inl rfl
  · exact .inl rfl

theorem protect_ne_opening (text more : List Char) : protect text ≠ '#' :: '{' :: more := by
  intro same
  unfold protect at same
  split at same
  · cases same
  · rename_i c rest unopened
    obtain ⟨rfl, behind⟩ := List.cons.inj same
    have front := head?_protect rest
    rw [behind] at front
    rcases front with front | front
    · cases rest with
      | nil => cases front
      | cons d rest =>
        cases front
        exact unopened rest rfl rfl
    · cases front
  · cases same

theorem isProtected_protect (text : List Char) : isProtected (protect text) := by
  fun_induction protect text with
  | case1 rest ih => exact ih
  | case2 c rest unopened ih =>
    rw [isProtected]
    · exact ih
    · exact fun more _ same => protect_ne_opening rest more same
    · rintro more rfl same
      have whole := protect_ne_opening ('#' :: rest) more
      rw [protect, same] at whole
      · exact whole rfl
      · exact unopened
  | case3 => rfl

theorem unprotected_protect (text : List Char) : unprotected (protect text) = text := by
  fun_induction protect text with
  | case1 rest ih => rw [unprotected, ih]
  | case2 c rest unopened ih =>
    rw [unprotected, ih]
    exact fun more _ same => protect_ne_opening rest more same
  | case3 => rfl

theorem getLast?_protect (text : List Char) : (protect text).getLast? = text.getLast? := by
  fun_induction protect text with
  | case1 rest ih => simp [List.getLast?_cons, ih]
  | case2 c rest unopened ih => rw [List.getLast?_cons, List.getLast?_cons, ih]
  | case3 => rfl

/-! ### Written segments -/

theorem literalSegments_of_ne_nil {content : List Char} (some_ : content ≠ []) :
    literalSegments content = [.literal content] := if_neg some_

/-- Segments that stay apart come out of the text that they are written as. -/
theorem splitSegments_written {segments : List Segment} (apart : AreApart segments) (line : Nat) :
    splitSegments line (segments.flatMap Segment.written) = .ok segments := by
  induction segments with
  | nil =>
    rw [List.flatMap_nil, splitSegments]
  | cons segment rest ih =>
    obtain ⟨here, others⟩ := List.forall_mem_cons.mp apart.sound
    have behind := ih ⟨others, List.isChain_of_isChain_cons apart.chain⟩
    rw [List.flatMap_cons]
    cases segment with
    | «variable» path =>
      have text : Segment.written (.variable path) ++ rest.flatMap Segment.written =
          '#' :: '{' :: (path ++ '}' :: rest.flatMap Segment.written) := by
        simp [Segment.written]
      rw [text, splitSegments_closed here.closed (here.trimmed.symm ▸ here.some_), behind, here.trimmed]
      rfl
    | literal content =>
      have next : rest.flatMap Segment.written = [] ∨
          (∃ body, rest.flatMap Segment.written = '#' :: '{' :: body) ∧ (protect content).getLast? ≠ some '\\' := by
        rw [getLast?_protect]
        cases rest with
        | nil => exact .inl rfl
        | cons second rest =>
          have parts := apart.chain.rel
          cases second with
          | literal => exact parts.elim
          | «variable» path => exact .inr ⟨⟨_, rfl⟩, parts⟩
      -- What comes next is no literal, so that this one is not joined with it.
      have joined : content.foldr consChar rest = .literal content :: rest := by
        cases rest with
        | nil => rw [foldr_consChar_nil, literalSegments_of_ne_nil here]
        | cons second rest =>
          cases second with
          | literal => exact apart.chain.rel.elim
          | «variable» path =>
            rw [foldr_consChar_variable, literalSegments_of_ne_nil here]
            rfl
      rw [Segment.written, splitSegments_protected line (isProtected_protect content) next, behind, unprotected_protect]
      exact congrArg Except.ok joined

/-! ### What splitting comes to -/

theorem AreApart.consChar {segments : List Segment} (apart : AreApart segments) {c : Char}
    (slash : c = '\\' → ∀ path rest, segments ≠ .variable path :: rest) : AreApart (consChar c segments) := by
  obtain ⟨sound, chain⟩ := apart
  cases segments with
  | nil => exact ⟨List.forall_mem_singleton.mpr (List.cons_ne_nil c []), .singleton _⟩
  | cons segment rest =>
    obtain ⟨here, others⟩ := List.forall_mem_cons.mp sound
    cases segment with
    | «variable» path =>
      refine ⟨List.forall_mem_cons.mpr ⟨List.cons_ne_nil c [], sound⟩, List.isChain_cons_cons.mpr ⟨?_, chain⟩⟩
      intro last
      exact slash (Option.some.inj last) path rest rfl
    | literal content =>
      refine ⟨List.forall_mem_cons.mpr ⟨List.cons_ne_nil c content, others⟩, ?_⟩
      cases rest with
      | nil => exact .singleton _
      | cons second rest =>
        obtain ⟨parts, chain⟩ := List.isChain_cons_cons.mp chain
        refine List.isChain_cons_cons.mpr ⟨?_, chain⟩
        cases second with
        | literal => exact parts
        | «variable» path =>
          obtain ⟨d, content, rfl⟩ := List.exists_cons_of_ne_nil here
          intro last
          exact parts (by rwa [List.getLast?_cons_cons] at last)

theorem opening_of_splitSegments {line : Nat} {text path : List Char} {rest : List Segment}
    (split : splitSegments line text = .ok (.variable path :: rest)) : ∃ more, text = '#' :: '{' :: more := by
  have literal {c : Char} {segments : List Segment} : consChar c segments ≠ .variable path :: rest := by
    unfold consChar
    split <;> nofun
  unfold splitSegments at split
  split at split
  · cases split
  · obtain ⟨segments, -, same⟩ := ok_of_map split
    exact absurd same literal
  · exact ⟨_, rfl⟩
  · obtain ⟨segments, -, same⟩ := ok_of_map split
    exact absurd same literal

/-- Splitting comes to no other segments. -/
theorem areApart_of_splitSegments {line : Nat} {text : List Char} {segments : List Segment}
    (split : splitSegments line text = .ok segments) : AreApart segments := by
  fun_induction splitSegments line text generalizing segments with
  | case1 =>
    cases split
    exact ⟨List.forall_mem_nil _, .nil⟩
  | case2 rest ih =>
    obtain ⟨segments, read, rfl⟩ := ok_of_map split
    exact ((ih read).consChar (absurd · (by decide))).consChar (absurd · (by decide))
  | case3 => cases split
  | case4 => cases split
  | case5 body inner rest found path some_ =>
    rename_i ih
    obtain ⟨segments, read, rfl⟩ := ok_of_map split
    obtain ⟨sound, chain⟩ := ih read
    have here : IsPath path := {
      some_ := by simpa using some_
      trimmed := Text.trim_trim inner
      closed := ((closeBracket_eq_some_iff (by decide)).mp found).1.trim (by decide) }
    refine ⟨List.forall_mem_cons.mpr ⟨here, sound⟩, ?_⟩
    cases segments with
    | nil => exact .singleton _
    | cons second segments => exact List.isChain_cons_cons.mpr ⟨trivial, chain⟩
  | case6 c rest escapes opens ih =>
    obtain ⟨segments, read, rfl⟩ := ok_of_map split
    refine (ih read).consChar ?_
    -- A backslash right in front of an opening would have been read as its escape.
    rintro rfl path others rfl
    obtain ⟨more, rfl⟩ := opening_of_splitSegments read
    exact escapes more rfl rfl

/-- Segments come back from the text that they are written as if none of them is empty, expressions are trimmed and
closed, and no two segments run together; and only then. -/
theorem splitSegments_written_iff {segments : List Segment} {line : Nat} :
    splitSegments line (segments.flatMap Segment.written) = .ok segments ↔ AreApart segments :=
  ⟨areApart_of_splitSegments, fun apart => splitSegments_written apart line⟩

end Stencil.Template
