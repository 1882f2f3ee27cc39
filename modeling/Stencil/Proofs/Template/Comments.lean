import Stencil.Proofs.Template.SingleLine
import Stencil.Proofs.Template.Tree

/-! Comments leave no trace.

A comment takes with it the deeper lines right below it. It still stands in a block like any other line: it may be the
line that fixes the indentation of its block, the end of what is nested under the line before it, or all that is nested
under a line. A template that can be read has such comments only where the lines around them are read alike without
them, so that they can be blanked out. No line changes its number by that.
-/

set_option autoImplicit false

namespace Stencil.Template

section
variable {α : Type} {p : α → Bool}

theorem cut_append (first rest : List α) (ends : (∀ x ∈ first, p x) → ∀ x ∈ rest.head?, ¬ p x) :
    (first ++ rest).takeWhile p = first.takeWhile p ∧ (first ++ rest).dropWhile p = first.dropWhile p ++ rest := by
  induction first with
  | nil =>
    cases rest with
    | nil => exact ⟨rfl, rfl⟩
    | cons x rest =>
      have stops : ¬ p x := ends nofun x rfl
      simp [stops]
  | cons x first ih =>
    by_cases holds : p x
    · obtain ⟨taken, dropped⟩ := ih fun all => ends (List.forall_mem_cons.mpr ⟨holds, all⟩)
      simp [holds, taken, dropped]
    · simp [holds]

end

/-! ### Outlines without a comment -/

theorem block_of_cons {indent : Option Nat} {item : Outline} {rest : List Outline} {found : Option Node}
    {more : List Node} (here : ∀ expected ∈ indent, item.line.indent = expected) (first : item.node? = .ok found)
    (others : block (some item.line.indent) rest = .ok more) :
    block indent (item :: rest) = .ok (found.toList ++ more) := by
  cases indent with
  | none => simp [block, first, others, bind, Except.bind, pure, Except.pure]
  | some expected =>
    obtain rfl := here expected rfl
    simp [block, first, others, bind, Except.bind, pure, Except.pure]

theorem block_of_some {indent : Nat} {items : List Outline} {nodes : List Node}
    (h : block (some indent) items = .ok nodes) (earlier : Option Nat) (same : ∀ expected ∈ earlier, indent = expected) :
    block earlier items = .ok nodes := by
  cases items with
  | nil => simpa [block] using h
  | cons item rest =>
    obtain ⟨found, more, first, others, rfl, here⟩ := block_cons h
    obtain rfl := here indent rfl
    exact block_of_cons same first others

theorem Outline.node?_of_nested {line : Line} {nested nested' : List Outline} {found : Option Node}
    (h : (Outline.item line nested).node? = .ok found) (empty : nested = [] → nested' = [])
    (alike : ∀ {children}, block none nested = .ok children → block none nested' = .ok children) :
    (Outline.item line nested').node? = .ok found := by
  cases Outline.readsAs h with
  | comment kind =>
    rw [Line.isComment, decide_eq_true_eq] at kind
    rw [Outline.node?, kind]
  | leaf node plain none => rwa [empty none, ← none]
  | code text children kind inside | tag tag children kind read inside =>
    rw [Outline.node?, kind] at h ⊢
    simp only [inside, alike inside] at h ⊢
    exact h

/-- Lines that are all deeper than the one in front of them are nested under it. -/
theorem outline_nested {line : Line} {inner : List Line} (deeper : ∀ l ∈ inner, line.indent < l.indent)
    (rest : List Line) :
    outline (line :: (inner ++ rest)) =
      .item line (outline (inner ++ rest.takeWhile (line.indent < ·.indent))) ::
        outline (rest.dropWhile (line.indent < ·.indent)) := by
  have all : ∀ l ∈ inner, decide (line.indent < l.indent) = true := fun l member => decide_eq_true (deeper l member)
  rw [outline, List.takeWhile_append_of_pos all, List.dropWhile_append_of_pos all]

theorem outline_ne_nil {lines : List Line} (some : lines ≠ []) : outline lines ≠ [] := by
  intro none
  exact some (by rw [← outlineLines_outline lines, none]; rfl)

theorem block_without_first {comment : Line} {under after : List Line} (dropped : comment.isComment)
    (deeper : ∀ l ∈ under, comment.indent < l.indent) (shallow : ∀ next ∈ after.head?, next.indent ≤ comment.indent)
    {indent : Option Nat} {nodes : List Node} (read : block indent (outline (comment :: (under ++ after))) = .ok nodes) :
    block indent (outline after) = .ok nodes := by
  obtain ⟨_, behind⟩ : after.takeWhile _ = [] ∧ after.dropWhile (comment.indent < ·.indent) = after :=
    cut_append [] after fun _ next first => by simpa using shallow next first
  rw [outline_nested deeper, behind] at read
  obtain ⟨found, more, first, others, rfl, here⟩ := block_cons read
  have nothing : found = none := by
    rw [Line.isComment, decide_eq_true_eq] at dropped
    rw [Outline.node?, dropped] at first
    exact (Except.ok.inj first).symm
  rw [nothing]
  exact block_of_some others indent here

/-- A comment and what it takes with it can be left out of lines that are read as a block. -/
theorem block_without {comment : Line} {under : List Line} (dropped : comment.isComment)
    (deeper : ∀ l ∈ under, comment.indent < l.indent) (before : List Line) :
    ∀ {after : List Line}, (∀ next ∈ after.head?, next.indent ≤ comment.indent) →
      ∀ {indent : Option Nat} {nodes : List Node},
        block indent (outline (before ++ comment :: (under ++ after))) = .ok nodes →
        block indent (outline (before ++ after)) = .ok nodes := by
  -- By the lines in front of the comment, cut as in their outline: the comment is nested under the first of them, or
  -- it comes behind all that is.
  induction before using outline.induct with
  | case1 =>
    intro after shallow indent nodes read
    exact block_without_first dropped deeper shallow read
  | case2 line rest nested behind =>
    intro after shallow indent nodes read
    by_cases all : ∀ l ∈ rest ++ [comment], line.indent < l.indent
    · -- The comment is nested under the line.
      obtain ⟨above, here⟩ := List.forall_mem_append.mp all
      have deep : line.indent < comment.indent := by simpa using here
      have whole : ∀ l ∈ rest ++ comment :: under, line.indent < l.indent :=
        List.forall_mem_append.mpr ⟨above, List.forall_mem_cons.mpr ⟨deep, fun l member => deep.trans (deeper l member)⟩⟩
      have split : rest ++ comment :: (under ++ after) = (rest ++ comment :: under) ++ after := by simp
      have rest_eq : rest.takeWhile (line.indent < ·.indent) = rest :=
        List.takeWhile_eq_self_iff.mpr fun l member => decide_eq_true (above l member)
      rw [List.cons_append, split, outline_nested whole] at read
      rw [List.cons_append, outline_nested above]
      rw [rest_eq] at nested
      obtain ⟨found, more, first, others, rfl, here⟩ := block_cons read
      refine block_of_cons here (Outline.node?_of_nested first (fun none => ?_) fun inside => ?_) others
      · exact absurd none (outline_ne_nil (by simp))
      · refine nested (fun next first => shallow next ?_) (by simpa using inside)
        rw [List.head?_takeWhile] at first
        exact (Option.mem_filter_iff.mp first).1
    · -- What is nested under the line ends in front of the comment.
      have ends (above : ∀ l ∈ rest, decide (line.indent < l.indent) = true) : ¬ line.indent < comment.indent :=
        fun deep => all (List.forall_mem_append.mpr
          ⟨fun l member => of_decide_eq_true (above l member), List.forall_mem_singleton.mpr deep⟩)
      obtain ⟨taken, dropped'⟩ := cut_append rest (comment :: (under ++ after)) fun above next first => by
        obtain rfl := Option.mem_some_iff.mp first
        exact decide_eq_true_iff.not.mpr (ends above)
      obtain ⟨taken', dropped''⟩ := cut_append rest after fun above next first => by
        have := shallow next first
        have := ends above
        simp only [decide_eq_true_eq]
        omega
      rw [List.cons_append, outline, taken, dropped'] at read
      rw [List.cons_append, outline, taken', dropped'']
      obtain ⟨found, more, first, others, rfl, here⟩ := block_cons read
      exact block_of_cons here first (behind shallow others)

/-! ### Texts of comments -/

def indentOf (raw : List Char) : Nat := (raw.takeWhile Text.isBlank).length

def isBlankText (raw : List Char) : Bool := raw.all Text.isBlank

/-- The text of a comment: its first visible characters are a dash and a hash, or a slash. -/
def IsCommentText (raw : List Char) : Prop :=
  (∃ rest, Text.trimStart raw = '-' :: '#' :: rest) ∨ ∃ rest, Text.trimStart raw = '/' :: rest

/-- Whether a text behind a comment of the given indentation goes with it, if those between them do: nothing can be
seen of it, or it is indented deeper. -/
def goesWith (indent : Nat) (raw : List Char) : Bool := isBlankText raw || indent < indentOf raw

/-- Texts without the one at a place and those behind it that go with it. Each leaves an empty text. -/
def blankOut (raws : List (List Char)) (index : Nat) : List (List Char) :=
  match raws.drop index with
  | [] => raws
  | raw :: rest =>
    raws.take index ++ (List.replicate ((rest.takeWhile (goesWith (indentOf raw))).length + 1) [] ++
      rest.dropWhile (goesWith (indentOf raw)))

/-- A source with empty lines in place of the line at an index, counted from zero, and of the following ones up to the
next line that can be seen and is not indented deeper. -/
def withoutBlock (source : String) (index : Nat) : String :=
  String.ofList (List.intercalate ['\n'] (blankOut (source.toList.splitOn '\n') index))

theorem blank_or_visible (raw : List Char) :
    (∀ c ∈ raw, Text.isBlank c) ∨
      ∃ before c rest, raw = before ++ c :: rest ∧ (∀ d ∈ before, Text.isBlank d) ∧ Text.isBlank c = false := by
  have blank : ∀ c ∈ raw.takeWhile Text.isBlank, Text.isBlank c := fun _ => List.mem_takeWhile_imp
  have whole : raw.takeWhile Text.isBlank ++ raw.dropWhile Text.isBlank = raw := List.takeWhile_append_dropWhile
  cases rest : raw.dropWhile Text.isBlank with
  | nil =>
    rw [rest, List.append_nil] at whole
    exact .inl (whole ▸ blank)
  | cons c rest' =>
    have visible := List.head?_dropWhile_not Text.isBlank raw
    rw [rest] at visible
    rw [rest] at whole
    exact .inr ⟨_, c, rest', whole.symm, blank, by simpa using visible⟩

section
variable {before rest : List Char} {c : Char}

theorem indentOf_visible (blank : ∀ d ∈ before, Text.isBlank d) (visible : Text.isBlank c = false) :
    indentOf (before ++ c :: rest) = before.length := by
  simp [indentOf, List.takeWhile_append_of_pos blank, visible]

theorem isBlankText_visible (visible : Text.isBlank c = false) : isBlankText (before ++ c :: rest) = false := by
  simp [isBlankText, visible]

theorem trimStart_visible (blank : ∀ d ∈ before, Text.isBlank d) (visible : Text.isBlank c = false) :
    Text.trimStart (before ++ c :: rest) = c :: rest := by
  rw [Text.trimStart, List.dropWhile_append_of_pos blank]
  exact Text.trimStart_cons visible rest

theorem Line.ofText?_of_visible (blank : ∀ d ∈ before, Text.isBlank d) (visible : Text.isBlank c = false) {number : Nat}
    {found : Option Line} (h : Line.ofText? number (before ++ c :: rest) = .ok found) :
    found = some { number, indent := before.length, content := c :: Text.trimEnd rest } := by
  have indentation : (before ++ c :: Text.trimEnd rest).takeWhile Text.isBlank = before := by
    simp [List.takeWhile_append_of_pos blank, visible]
  simp only [Line.ofText?, Text.trimEnd_append_cons visible, trimStart_visible blank visible, indentation,
    List.isEmpty_cons, Bool.false_eq_true, if_false] at h
  split at h
  · cases h
  · exact (Except.ok.inj h).symm

end

theorem Line.ofText?_of_blank {raw : List Char} (blank : ∀ c ∈ raw, Text.isBlank c) (number : Nat) :
    Line.ofText? number raw = .ok none := by
  have nothing : Text.trimEnd raw = [] := List.rdropWhile_eq_nil_iff.mpr blank
  simp [Line.ofText?, nothing, Text.trimStart]

theorem Line.of_isCommentText {raw : List Char} (comment : IsCommentText raw) {number : Nat} {found : Option Line}
    (h : Line.ofText? number raw = .ok found) :
    ∃ line, found = some line ∧ line.isComment ∧ line.indent = indentOf raw := by
  rcases blank_or_visible raw with blank | ⟨before, c, rest, rfl, blank, visible⟩
  · have nothing : Text.trimStart raw = [] := List.dropWhile_eq_nil_iff.mpr blank
    rcases comment with ⟨_, first⟩ | ⟨_, first⟩ <;> cases nothing.symm.trans first
  · refine ⟨_, Line.ofText?_of_visible blank visible h, ?_, (indentOf_visible blank visible).symm⟩
    rw [IsCommentText, trimStart_visible blank visible] at comment
    rw [Line.isComment_iff]
    rcases comment with ⟨text, first⟩ | ⟨text, first⟩
    · cases first
      have hash : Text.isBlank '#' = false := by decide
      exact .inl ⟨Text.trimEnd text, by rw [Text.trimEnd_cons_visible hash]⟩
    · cases first
      exact .inr ⟨_, rfl⟩

theorem Line.deeper_of_goesWith {indent number : Nat} {raw : List Char} {line : Line} (goes : goesWith indent raw)
    (h : Line.ofText? number raw = .ok (some line)) : indent < line.indent := by
  rcases blank_or_visible raw with blank | ⟨before, c, rest, rfl, blank, visible⟩
  · cases (Line.ofText?_of_blank blank number).symm.trans h
  · cases Line.ofText?_of_visible blank visible h
    simpa [goesWith, isBlankText_visible visible, indentOf_visible blank visible] using goes

theorem Line.shallow_of_not_goesWith {indent number : Nat} {raw : List Char} {found : Option Line}
    (stays : ¬ goesWith indent raw) (h : Line.ofText? number raw = .ok found) :
    ∃ line, found = some line ∧ line.indent ≤ indent := by
  rcases blank_or_visible raw with blank | ⟨before, c, rest, rfl, blank, visible⟩
  · simp [goesWith, isBlankText, List.all_eq_true.mpr blank] at stays
  · refine ⟨_, Line.ofText?_of_visible blank visible h, ?_⟩
    simpa [goesWith, isBlankText_visible visible, indentOf_visible blank visible] using stays

/-! ### Sources without a comment -/

theorem linesFrom_append {first rest : List (List Char)} {number : Nat} {lines : List Line} :
    linesFrom number (first ++ rest) = .ok lines ↔
      ∃ before after, linesFrom number first = .ok before ∧ linesFrom (number + first.length) rest = .ok after ∧
        lines = before ++ after := by
  induction first generalizing number lines with
  | nil => simp [linesFrom, eq_comm]
  | cons raw first ih =>
    have place : number + (raw :: first).length = number + 1 + first.length := by
      simp only [List.length_cons]
      omega
    rw [List.cons_append, place]
    constructor
    · intro h
      obtain ⟨line, more, read, others, rfl⟩ := linesFrom_cons h
      obtain ⟨before, after, front, back, rfl⟩ := ih.mp others
      refine ⟨line.toList ++ before, after, ?_, back, (List.append_assoc _ _ _).symm⟩
      simp [linesFrom, read, front, bind, Except.bind, pure, Except.pure]
    · rintro ⟨before, after, front, back, rfl⟩
      obtain ⟨line, more, read, others, rfl⟩ := linesFrom_cons front
      have both : linesFrom (number + 1) (first ++ rest) = .ok (more ++ after) := ih.mpr ⟨_, _, others, back, rfl⟩
      simp [linesFrom, read, both, bind, Except.bind, pure, Except.pure]

theorem linesFrom_replicate (count number : Nat) : linesFrom number (List.replicate count []) = .ok [] := by
  induction count generalizing number with
  | zero => rfl
  | succ count ih =>
    have nothing : Line.ofText? number [] = .ok none := rfl
    simp [List.replicate_succ, linesFrom, nothing, ih, bind, Except.bind, pure, Except.pure]

theorem exists_lines_of_blankOut {before rest : List (List Char)} {raw : List Char} (comment : IsCommentText raw)
    {number : Nat} {lines : List Line} (h : linesFrom number (before ++ raw :: rest) = .ok lines) :
    ∃ front line under back, lines = front ++ line :: (under ++ back) ∧ line.isComment ∧
      (∀ l ∈ under, line.indent < l.indent) ∧ (∀ next ∈ back.head?, next.indent ≤ line.indent) ∧
      linesFrom number (blankOut (before ++ raw :: rest) before.length) = .ok (front ++ back) := by
  obtain ⟨front, _, read, here, rfl⟩ := linesFrom_append.mp h
  obtain ⟨found, _, own, others, rfl⟩ := linesFrom_cons here
  obtain ⟨line, rfl, is, indent⟩ := Line.of_isCommentText comment own
  have whole : rest.takeWhile (goesWith (indentOf raw)) ++ rest.dropWhile (goesWith (indentOf raw)) = rest :=
    List.takeWhile_append_dropWhile
  rw [← whole] at others
  obtain ⟨under, back, below, behind, rfl⟩ := linesFrom_append.mp others
  refine ⟨front, line, under, back, rfl, is, fun l member => ?_, fun next first => ?_, ?_⟩
  · -- What goes with the comment is deeper.
    obtain ⟨index, text, place, cut⟩ := (mem_linesFrom below l).mp member
    rw [indent]
    exact Line.deeper_of_goesWith (List.mem_takeWhile_imp (List.mem_of_getElem? place)) cut
  · -- The next line does not go with it.
    cases last : rest.dropWhile (goesWith (indentOf raw)) with
    | nil =>
      rw [last, linesFrom] at behind
      cases behind
      cases first
    | cons text others =>
      have stays := List.head?_dropWhile_not (goesWith (indentOf raw)) rest
      rw [last] at behind stays
      obtain ⟨found, more, cut, _, rfl⟩ := linesFrom_cons behind
      obtain ⟨line', rfl, shallow⟩ := Line.shallow_of_not_goesWith (by simpa using stays) cut
      cases first
      rwa [indent]
  · -- Blank lines come to nothing, but count, so that no other line changes its number.
    have blank : blankOut (before ++ raw :: rest) before.length = before ++
        (List.replicate ((rest.takeWhile (goesWith (indentOf raw))).length + 1) [] ++
          rest.dropWhile (goesWith (indentOf raw))) := by
      simp [blankOut]
    rw [blank]
    refine linesFrom_append.mpr ⟨front, back, read, linesFrom_append.mpr ⟨[], back, linesFrom_replicate _ _, ?_, rfl⟩, rfl⟩
    rw [List.length_replicate, ← Nat.add_assoc, Nat.add_right_comm]
    exact behind

theorem mem_blankOut {raws : List (List Char)} {index : Nat} {raw : List Char} (member : raw ∈ blankOut raws index) :
    raw = [] ∨ raw ∈ raws := by
  unfold blankOut at member
  split at member
  · exact .inr member
  · rename_i first rest behind
    have sub : first :: rest ⊆ raws := behind ▸ List.drop_subset index raws
    rcases List.mem_append.mp member with front | member
    · exact .inr (List.mem_of_mem_take front)
    · rcases List.mem_append.mp member with blank | back
      · exact .inl (List.eq_of_mem_replicate blank)
      · exact .inr (sub (List.mem_cons_of_mem _ ((List.dropWhile_suffix _).mem back)))

theorem blankOut_ne_nil {raws : List (List Char)} (some_ : raws ≠ []) (index : Nat) : blankOut raws index ≠ [] := by
  unfold blankOut
  split
  · exact some_
  · simp

theorem splitOn_withoutBlock (source : String) (index : Nat) :
    (withoutBlock source index).toList.splitOn '\n' = blankOut (source.toList.splitOn '\n') index := by
  have apart : ∀ raw ∈ blankOut (source.toList.splitOn '\n') index, '\n' ∉ raw := fun raw member => by
    rcases mem_blankOut member with rfl | old
    · exact List.not_mem_nil
    · exact not_mem_of_mem_splitOn _ raw old
  have some_ : source.toList.splitOn '\n' ≠ [] := List.splitOn_ne_nil _ _
  rw [withoutBlock, String.toList_ofList, List.splitOn_intercalate _ apart (blankOut_ne_nil some_ index)]

/-- In a source that can be read, a comment and what goes with it may be replaced by empty lines: the source is read
as the same document, with the same line numbers. -/
theorem comment_invisible {source : String} {document : Document} (parsed : Document.ofText source = .ok document)
    {index : Nat} {raw : List Char} (line : (source.toList.splitOn '\n')[index]? = some raw)
    (comment : IsCommentText raw) : Document.ofText (withoutBlock source index) = .ok document := by
  obtain ⟨lines, cut, parsed⟩ := ok_of_bind parsed
  obtain ⟨children, read, same⟩ := ok_of_bind parsed
  cases same
  obtain ⟨bound, rfl⟩ := List.getElem?_eq_some_iff.mp line
  have whole : (source.toList.splitOn '\n').take index ++
      (source.toList.splitOn '\n')[index] :: (source.toList.splitOn '\n').drop (index + 1) =
        source.toList.splitOn '\n' := by
    rw [List.getElem_cons_drop, List.take_append_drop]
  have place : ((source.toList.splitOn '\n').take index).length = index := List.length_take_of_le bound.le
  rw [linesOf, ← whole] at cut
  obtain ⟨front, line, under, back, rfl, is, deeper, shallow, cut⟩ := exists_lines_of_blankOut comment cut
  rw [whole, place, ← splitOn_withoutBlock] at cut
  have read := block_without is deeper front shallow read
  simp only [Document.ofText, linesOf, cut, read, bind, Except.bind, pure, Except.pure]

/-- A template whose comments fix the indentation of a block, end what is nested under a line, and are all that is
nested under another one. -/
def remarks : String :=
  "%ul\n  -# items\n\n      - each\n  %li one\n    / none yet\n  %li two"

theorem comment_invisible_remarks :
    ∃ document, Document.ofText remarks = .ok document ∧
      (remarks.toList.splitOn '\n')[1]? = some "  -# items".toList ∧
      withoutBlock remarks 1 = "%ul\n\n\n\n  %li one\n    / none yet\n  %li two" ∧
      Document.ofText (withoutBlock remarks 1) = .ok document ∧
      (remarks.toList.splitOn '\n')[5]? = some "    / none yet".toList ∧
      withoutBlock remarks 5 = "%ul\n  -# items\n\n      - each\n  %li one\n\n  %li two" ∧
      Document.ofText (withoutBlock remarks 5) = .ok document := by
  have first : (remarks.toList.splitOn '\n')[1]? = some "  -# items".toList := by decide +kernel
  have second : (remarks.toList.splitOn '\n')[5]? = some "    / none yet".toList := by decide +kernel
  have readable : (Document.ofText remarks).toOption.isSome := by decide +kernel
  cases read : Document.ofText remarks with
  | error e =>
    rw [read] at readable
    cases readable
  | ok document =>
    refine ⟨document, rfl, first, by decide +kernel, ?_, second, by decide +kernel, ?_⟩
    · exact comment_invisible read first (.inl ⟨" items".toList, by decide⟩)
    · exact comment_invisible read second (.inr ⟨" none yet".toList, by decide⟩)

end Stencil.Template
