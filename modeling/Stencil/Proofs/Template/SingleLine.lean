import Mathlib.Data.List.DropRight
import Stencil.Template.Reader

/-! Lines with nothing nested under them.

What such a line is read as depends on its text alone, apart from its number. It is found by trimming the text and
asking what kind of line it is; a template of one line is the node of that line and nothing else.
-/

set_option autoImplicit false

namespace Stencil

namespace Text

theorem trimStart_cons_blank {c : Char} (blank : isBlank c) (rest : List Char) :
    trimStart (c :: rest) = trimStart rest := List.dropWhile_cons_of_pos blank

theorem trimStart_cons {c : Char} (visible : isBlank c = false) (rest : List Char) :
    trimStart (c :: rest) = c :: rest := List.dropWhile_cons_of_neg (by simp [visible])

theorem trimStart_append_cons {c : Char} (visible : isBlank c = false) (text rest : List Char) :
    trimStart (text ++ c :: rest) = trimStart text ++ c :: rest := by
  induction text with
  | nil => exact trimStart_cons visible rest
  | cons d text ih =>
    cases blank : isBlank d with
    | true => rw [List.cons_append, trimStart_cons_blank blank, trimStart_cons_blank blank, ih]
    | false => rw [List.cons_append, trimStart_cons blank, trimStart_cons blank, List.cons_append]

theorem trimStart_trimStart (text : List Char) : trimStart (trimStart text) = trimStart text :=
  List.dropWhile_idempotent _ _

theorem trimEnd_append {text rest : List Char} (some_ : trimEnd rest ≠ []) :
    trimEnd (text ++ rest) = text ++ trimEnd rest := by
  have some_ : ¬ (rest.reverse.dropWhile isBlank).isEmpty := by
    simpa [trimEnd] using some_
  rw [trimEnd, List.reverse_append, List.dropWhile_append, if_neg some_, List.reverse_append, List.reverse_reverse]
  rfl

theorem trimEnd_cons_visible {c : Char} (visible : isBlank c = false) (rest : List Char) :
    trimEnd (c :: rest) = c :: trimEnd rest := by
  have front : ¬ isBlank c := by simp [visible]
  cases none : (rest.reverse.dropWhile isBlank).isEmpty <;>
    simp_all [trimEnd, List.dropWhile_append]

theorem trimEnd_append_cons {c : Char} (visible : isBlank c = false) (text rest : List Char) :
    trimEnd (text ++ c :: rest) = text ++ c :: trimEnd rest := by
  rw [trimEnd_append, trimEnd_cons_visible visible]
  rw [trimEnd_cons_visible visible]
  exact List.cons_ne_nil _ _

theorem trim_trimEnd (text : List Char) : trim (trimEnd text) = trim text := by
  induction text with
  | nil => rfl
  | cons c rest ih =>
    cases blank : isBlank c with
    | false =>
      have twice : trimEnd (trimEnd rest) = trimEnd rest := List.rdropWhile_idempotent _ _
      rw [trimEnd_cons_visible blank, trim, trim, trimStart_cons blank, trimStart_cons blank, trimEnd_cons_visible blank,
        trimEnd_cons_visible blank, twice]
    | true =>
      have behind : trim (c :: rest) = trim rest := by rw [trim, trim, trimStart_cons_blank blank]
      by_cases none : trimEnd rest = []
      · -- Nothing is left of blanks, at either end.
        have all : trimEnd (c :: rest) = [] :=
          List.rdropWhile_eq_nil_iff.mpr (List.forall_mem_cons.mpr ⟨blank, List.rdropWhile_eq_nil_iff.mp none⟩)
        rw [behind, ← ih, none, all]
      · rw [behind, ← ih, ← List.singleton_append, trimEnd_append none, List.singleton_append, trim, trim,
          trimStart_cons_blank blank]

theorem trim_trimStart (text : List Char) : trim (trimStart text) = trim text := by
  rw [trim, trimStart_trimStart, trim]

theorem trim_trim (text : List Char) : trim (trim text) = trim text := by
  have once : trim (trimEnd (trimStart text)) = trim text := by rw [trim_trimEnd, trim_trimStart]
  exact once

theorem trim_between {first last : Char} (visible : isBlank first = false) (visible' : isBlank last = false)
    (text : List Char) : trim (first :: (text ++ [last])) = first :: (text ++ [last]) := by
  rw [trim, trimStart_cons visible, ← List.cons_append, trimEnd_append_cons visible']
  rfl

theorem isBlank_of_trim_cons {c : Char} {rest : List Char} (trimmed : trim (c :: rest) = c :: rest) :
    isBlank c = false := by
  cases blank : isBlank c with
  | false => rfl
  | true =>
    have shorter := (List.rdropWhile_prefix isBlank (trimStart rest)).length_le.trans (length_trimStart_le rest)
    rw [trim, trimStart_cons_blank blank] at trimmed
    change (trimEnd (trimStart rest)).length ≤ rest.length at shorter
    rw [trimmed] at shorter
    exact absurd shorter (Nat.not_succ_le_self _)

theorem exists_trim (text : List Char) : ∃ before after, text = before ++ (trim text ++ after) ∧
    (∀ c ∈ before, isBlank c) ∧ ∀ c ∈ after, isBlank c := by
  refine ⟨text.takeWhile isBlank, (trimStart text).rtakeWhile isBlank, ?_, fun _ => List.mem_takeWhile_imp,
    fun _ => List.mem_rtakeWhile_imp⟩
  have ends : trim text ++ (trimStart text).rtakeWhile isBlank = trimStart text := List.rdropWhile_append_rtakeWhile
  rw [ends, trimStart, List.takeWhile_append_dropWhile]

end Text

namespace Template

def lineNode? (number : Nat) (raw : List Char) : Except ParseError (Option Node) := do
  match ← Line.ofText? number raw with
  | none => return none
  | some line => (Outline.item line []).node?

theorem Document.ofText_line {raw : List Char} (single : '\n' ∉ raw) :
    Document.ofText (String.ofList raw) = (lineNode? 1 raw).map fun node => { children := node.toList } := by
  have lines : linesOf (String.ofList raw) = (Line.ofText? 1 raw).map Option.toList := by
    rw [linesOf, String.toList_ofList, List.splitOn_eq_singleton single]
    cases read : Line.ofText? 1 raw <;> simp [linesFrom, read, Except.map, bind, Except.bind, pure, Except.pure]
  unfold Document.ofText lineNode?
  rw [lines]
  cases read : Line.ofText? 1 raw with
  | error e => rfl
  | ok found =>
    cases found with
    | none => simp [Except.map, bind, Except.bind, pure, Except.pure, outline, block]
    | some line =>
      simp only [Except.map, bind, Except.bind, pure, Except.pure, Option.toList_some, outline,
        List.takeWhile_nil, List.dropWhile_nil, block]
      cases (Outline.item line []).node? <;> simp

/-- A line with the given text is read as the given node wherever it stands, and makes a template of that node by
itself. -/
structure StandsFor (raw : List Char) (node : Nat → Node) : Prop where
  line : ∀ number, lineNode? number raw = .ok (some (node number))
  document : Document.ofText (String.ofList raw) = .ok { children := [node 1] }

theorem StandsFor.of_line {raw : List Char} {node : Nat → Node} (single : '\n' ∉ raw)
    (line : ∀ number, lineNode? number raw = .ok (some (node number))) : StandsFor raw node where
  line := line
  document := by
    rw [Document.ofText_line single, line 1]
    rfl

structure ComesToLine (raw : List Char) (outcome : Nat → Except ParseError Node) : Prop where
  line : ∀ number, lineNode? number raw = (outcome number).map some
  document : Document.ofText (String.ofList raw) = (outcome 1).map fun node => { children := [node] }

theorem ComesToLine.of_line {raw : List Char} {outcome : Nat → Except ParseError Node} (single : '\n' ∉ raw)
    (line : ∀ number, lineNode? number raw = (outcome number).map some) : ComesToLine raw outcome where
  line := line
  document := by
    rw [Document.ofText_line single, line 1]
    cases outcome 1 <;> rfl

theorem ComesToLine.standsFor {raw : List Char} {node : Nat → Node}
    (comes : ComesToLine raw fun number => .ok (node number)) : StandsFor raw node :=
  ⟨comes.line, comes.document⟩

theorem Line.ofText?_visible {c : Char} (visible : Text.isBlank c = false) (number : Nat) (rest : List Char) :
    Line.ofText? number (c :: rest) = .ok (some { number, indent := 0, content := c :: Text.trimEnd rest }) := by
  simp [Line.ofText?, Text.trimEnd_cons_visible visible, Text.trimStart_cons visible, visible]

end Template

end Stencil
