import Stencil.Proofs.Template.Comments
import Stencil.Proofs.Template.Offsets.Blocks

/-! Where the errors of a template lie.

What is read from one line fails with the number of that line. A block fails with the number of a line of its outline,
and those are the numbers of lines that show something.
-/

set_option autoImplicit false

namespace Stencil.Template

section
variable {α β : Type} {at_ : Nat → Prop}

/-- Whether a reading can fail only with line numbers of a kind. -/
def FailsAt (at_ : Nat → Prop) (x : Except ParseError α) : Prop := ∀ e, x = .error e → at_ e.line

namespace FailsAt

theorem ok (a : α) : FailsAt at_ (.ok a) := nofun

theorem error {e : ParseError} (here : at_ e.line) : FailsAt at_ (.error e : Except ParseError α) := by
  intro _ same
  cases same
  exact here

theorem bind {x : Except ParseError α} {f : α → Except ParseError β} (first : FailsAt at_ x)
    (rest : ∀ a, x = .ok a → FailsAt at_ (f a)) : FailsAt at_ (x >>= f) := by
  cases x with
  | error e => exact error (first e rfl)
  | ok a => exact rest a rfl

theorem map {x : Except ParseError α} (fails : FailsAt at_ x) (f : α → β) : FailsAt at_ (x.map f) := by
  cases x with
  | error e => exact error (fails e rfl)
  | ok a => exact ok _

end FailsAt

end

/-! ### What stands on one line -/

section
variable {number : Nat}

theorem failsAt_evalNode (source : List Char) : FailsAt (· = number) (evalNode number source) := by
  fun_cases evalNode with
  | case1 => exact .error rfl
  | case2 => exact .ok _

theorem failsAt_splitSegments (text : List Char) : FailsAt (· = number) (splitSegments number text) := by
  fun_induction splitSegments number text with
  | case1 => exact .ok _
  | case2 rest ih => exact ih.map _
  | case3 => exact .error rfl
  | case4 => exact .error rfl
  | case5 body inner rest closed path visible ih => exact ih.map _
  | case6 c rest _ _ ih => exact ih.map _

theorem failsAt_textNode (text : List Char) : FailsAt (· = number) (textNode number text) :=
  (failsAt_splitSegments text).map _

theorem failsAt_quotedValue (raw : List Char) : FailsAt (· = number) (quotedValue number raw) := by
  refine (failsAt_splitSegments raw).bind fun segments _ => ?_
  split
  · exact .ok _
  · split <;> exact .ok _

theorem failsAt_attributeName (style : AttributeStyle) (text : List Char) :
    FailsAt (· = number) (attributeName style number text) := by
  fun_cases attributeName with
  | case1 => exact .ok _
  | case2 => exact .ok _
  | case3 => exact .error rfl
  | case4 => exact .ok _
  | case5 => exact .ok _

theorem failsAt_attributeValue (style : AttributeStyle) (name text : List Char) :
    FailsAt (· = number) (attributeValue style number name text) := by
  fun_cases attributeValue with
  | case1 => exact .error rfl
  | case2 => exact (failsAt_quotedValue _).map _
  | case3 => exact .error rfl
  | case4 => exact (failsAt_evalNode _).map _

theorem failsAt_readAttribute (style : AttributeStyle) (text : List Char) :
    FailsAt (· = number) (readAttribute style number text) := by
  fun_cases readAttribute with
  | case1 => exact .error (failsAt_attributeName style text _ ‹_›)
  | case2 => exact .error rfl
  | case3 => exact .error (failsAt_attributeValue style _ _ _ ‹_›)
  | case4 => exact .ok _
  | case5 => exact .error rfl
  | case6 => exact .ok _

theorem failsAt_readAttributes (style : AttributeStyle) (text : List Char) :
    FailsAt (· = number) (readAttributes style number text) := by
  fun_induction readAttributes style number text with
  | case1 => exact .ok _
  | case2 text rest some e failed => exact .error (failsAt_readAttribute style rest e failed)
  | case3 text rest some node after read ih => exact ih.map _

theorem failsAt_readShorthands (text : List Char) : FailsAt (· = number) (readShorthands number text) := by
  fun_induction readShorthands number text with
  | case1 => exact .ok _
  | case2 => exact .ok _
  | case3 => exact .error rfl
  | case4 c rest kind known name some ih => exact ih.map _

theorem failsAt_closeCollection (closing : Char) (text : List Char) :
    FailsAt (· = number) (closeCollection number closing text) := by
  fun_cases closeCollection with
  | case1 => exact .ok _
  | case2 => exact .error rfl
  | case3 => exact .error rfl

theorem failsAt_readCollections (text : List Char) : FailsAt (· = number) (readCollections number text) := by
  fun_induction readCollections number text with
  | case1 => exact .ok _
  | case2 => exact .ok _
  | case3 c rest style closing known e failed => exact .error (failsAt_closeCollection closing rest e failed)
  | case4 c rest style closing known inner after closed e failed =>
    exact .error (failsAt_readAttributes style inner e failed)
  | case5 c rest style closing known inner after closed attributes read ih => exact ih.map _

theorem failsAt_headOfName (name : List Char) : FailsAt (· = number) (headOfName number name) := by
  fun_cases headOfName with
  | case1 => exact .ok _
  | case2 => exact .error rfl
  | case3 => exact .ok _

theorem failsAt_readHead (text : List Char) : FailsAt (· = number) (readHead number text) := by
  fun_cases readHead with
  | case1 => exact .error rfl
  | case2 => exact (failsAt_headOfName _).map _
  | case3 => exact .ok _

theorem failsAt_readInline (head : TagHead) (rest : List Char) : FailsAt (· = head.line) (readInline head rest) := by
  fun_cases readInline with
  | case1 => exact .ok _
  | case2 => exact .ok _
  | case3 => exact .error rfl
  | case4 c tail other goes inline =>
    subst inline
    split
    · exact .ok _
    · exact (failsAt_evalNode _).map _
    · exact (failsAt_textNode _).map _
  | case5 => exact .error rfl

theorem failsAt_readTag (text : List Char) : FailsAt (· = number) (readTag number text) := by
  refine (failsAt_readHead text).bind fun ⟨head, rest⟩ read => ?_
  refine (failsAt_readShorthands rest).bind fun ⟨shorthands, rest⟩ _ => ?_
  refine (failsAt_readCollections rest).bind fun ⟨collections, rest⟩ _ => ?_
  -- What stands behind the attributes fails with the number in the head, which is that of the line.
  obtain rfl := line_readHead read
  exact (failsAt_readInline head rest).bind fun _ _ => .ok _

end

/-! ### Lines and blocks -/

def IsVisibleLine (source : String) (number : Nat) : Prop :=
  ∃ index, number = index + 1 ∧ ∃ raw ∈ (source.toList.splitOn '\n')[index]?, isBlankText raw = false

theorem isBlankText_iff {raw : List Char} : isBlankText raw ↔ ∀ c ∈ raw, Text.isBlank c := List.all_eq_true

theorem not_blank_of_ofText? {number : Nat} {raw : List Char} (h : Line.ofText? number raw ≠ .ok none) :
    isBlankText raw = false := by
  cases blank : isBlankText raw with
  | true => exact absurd (Line.ofText?_of_blank (isBlankText_iff.mp blank) number) h
  | false => rfl

theorem failsAt_ofText? (number : Nat) (raw : List Char) :
    FailsAt (fun n => n = number ∧ isBlankText raw = false) (Line.ofText? number raw) := by
  intro e failed
  have some_ : Line.ofText? number raw ≠ .ok none := by rw [failed]; nofun
  refine ⟨?_, not_blank_of_ofText? some_⟩
  unfold Line.ofText? at failed
  dsimp only at failed
  split at failed
  · cases failed
  · split at failed
    · cases failed
      rfl
    · cases failed

theorem failsAt_linesFrom (number : Nat) (raws : List (List Char)) :
    FailsAt (fun n => ∃ index, n = number + index ∧ ∃ raw ∈ raws[index]?, isBlankText raw = false)
      (linesFrom number raws) := by
  induction raws generalizing number with
  | nil => exact .ok _
  | cons raw rest ih =>
    rw [linesFrom]
    refine FailsAt.bind ?_ fun line _ => FailsAt.bind ?_ fun lines _ => .ok _
    · intro e failed
      obtain ⟨here, visible⟩ := failsAt_ofText? number raw e failed
      exact ⟨0, here, raw, rfl, visible⟩
    · intro e failed
      obtain ⟨index, here, text, found, visible⟩ := ih (number + 1) e failed
      exact ⟨index + 1, by omega, text, found, visible⟩

theorem failsAt_leaf {at_ : Nat → Prop} {kind : LeafLine} {line : Line} {nested : List Outline}
    {node : Except ParseError Node} (own : FailsAt at_ node) (inner : ∀ l ∈ outlineLines nested, at_ l.number) :
    FailsAt at_ (leaf kind line nested node) := by
  cases nested with
  | nil => exact own.map _
  | cons item rest =>
    obtain ⟨line, nested⟩ := item
    exact .error (inner line (by simp [outlineLines, Outline.lines]))

mutual

theorem Outline.failsAt_node? {at_ : Nat → Prop} : ∀ {item : Outline}, (∀ l ∈ item.lines, at_ l.number) →
    FailsAt at_ item.node?
  | .item line nested, inside => by
    rw [Outline.lines, List.forall_mem_cons] at inside
    obtain ⟨here, inner⟩ := inside
    -- What fails with the number of the line fails with one of the outline.
    have own {α : Type} {x : Except ParseError α} (fails : FailsAt (· = line.number) x) : FailsAt at_ x :=
      fun e failed => fails e failed ▸ here
    rw [Outline.node?]
    cases lineKind line.content with
    | docType => exact failsAt_leaf (.ok _) inner
    | comment => exact .ok _
    | code text => exact (failsAt_block inner).bind fun children _ => .ok _
    | evaluated source => exact failsAt_leaf (own (failsAt_evalNode source)) inner
    | directive text => exact failsAt_leaf (.ok _) inner
    | text text => exact failsAt_leaf (own (failsAt_textNode text)) inner
    | tag =>
      refine (own (failsAt_readTag line.content)).bind fun tag _ => (failsAt_block inner).bind fun children _ => ?_
      split
      · exact .error here
      · exact .ok _

theorem failsAt_block {at_ : Nat → Prop} : ∀ {items : List Outline} {indent : Option Nat},
    (∀ l ∈ outlineLines items, at_ l.number) → FailsAt at_ (block indent items)
  | [], _, _ => by
    rw [block]
    exact .ok _
  | .item line nested :: rest, indent, inside => by
    rw [outlineLines, List.forall_mem_append] at inside
    rw [ByOffset.block_cons_eq]
    split
    · exact .error (inside.1 line (by simp [Outline.lines]))
    · exact (Outline.failsAt_node? inside.1).bind fun node _ => (failsAt_block inside.2).bind fun nodes _ => .ok _

end

theorem failsAt_ofText (source : String) : FailsAt (IsVisibleLine source) (Document.ofText source) := by
  refine FailsAt.bind ?_ fun lines read => (failsAt_block fun line member => ?_).bind fun children _ => .ok _
  · intro e failed
    obtain ⟨index, here, raw, found, visible⟩ := failsAt_linesFrom 1 _ e failed
    exact ⟨index, by rw [here, Nat.add_comm], raw, found, visible⟩
  · rw [outlineLines_outline] at member
    obtain ⟨index, raw, found, read⟩ := (mem_linesOf read line).mp member
    have some_ : Line.ofText? (index + 1) raw ≠ .ok none := by rw [read]; nofun
    exact ⟨index, Line.number_of_ofText? read, raw, found, not_blank_of_ofText? some_⟩

/-- Reading a template comes to an end with every cut that it tries to make: with a document, or with an error on a line
that shows something. -/
theorem documentOfText_settles (source : String) :
    ByOffset.documentOfText source = ByOffset.settled (Document.ofText source) ∧
      ∀ e, Document.ofText source = .error e → IsVisibleLine source e.line :=
  ⟨ByOffset.documentOfText_eq source, failsAt_ofText source⟩

end Stencil.Template
