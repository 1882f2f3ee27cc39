import Stencil.Proofs.Template.Lines
import Stencil.Template.Reader

/-! All that is read from one line carries the number of that line, attributes and inline content included. -/

set_option autoImplicit false

namespace Stencil.Template

namespace Node

mutual

def OnLine (number : Nat) : Node → Prop
  | .tag head attributes children => head.line = number ∧ AllOnLine number attributes ∧ AllOnLine number children
  | .idShorthand children line | .classShorthand children line | .collection children line
  | .htmlAttribute _ children line | .textLine children line | .code _ children line =>
    line = number ∧ AllOnLine number children
  | .text _ line | .variable _ line | .eval _ line | .docType line | .directive _ line => line = number

def AllOnLine (number : Nat) : List Node → Prop
  | [] => True
  | node :: rest => node.OnLine number ∧ AllOnLine number rest

end

attribute [simp] OnLine AllOnLine

theorem OnLine.line_eq {number : Nat} {node : Node} (h : node.OnLine number) : node.line = number := by
  cases node <;> simp only [OnLine] at h <;> first | exact h.1 | exact h

theorem allOnLine_append {number : Nat} {first rest : List Node} :
    AllOnLine number (first ++ rest) ↔ AllOnLine number first ∧ AllOnLine number rest := by
  induction first with
  | nil => simp [AllOnLine]
  | cons node first ih => simp only [List.cons_append, AllOnLine, ih, and_assoc]

theorem allOnLine_iff {number : Nat} {nodes : List Node} :
    AllOnLine number nodes ↔ ∀ node ∈ nodes, node.OnLine number := by
  induction nodes with
  | nil => simp [AllOnLine]
  | cons node rest ih => simp [AllOnLine, ih]

end Node

open Node (OnLine AllOnLine allOnLine_append allOnLine_iff)

/-! ### What stands on one line carries its number -/

section
variable {number : Nat}

theorem eq_of_evalNode {source : List Char} {node : Node} (h : evalNode number source = .ok node) :
    ∃ content, node = .eval content number := by
  unfold evalNode at h
  dsimp only at h
  split at h
  · cases h
  · cases h
    exact ⟨_, rfl⟩

theorem onLine_evalNode {source : List Char} {node : Node} (h : evalNode number source = .ok node) :
    node.OnLine number := by
  obtain ⟨_, rfl⟩ := eq_of_evalNode h
  simp only [OnLine]

theorem onLine_segment (segment : Segment) : (segment.node number).OnLine number := by
  cases segment <;> simp only [Segment.node, OnLine]

theorem onLine_textNode {text : List Char} {node : Node} (h : textNode number text = .ok node) :
    node.OnLine number := by
  obtain ⟨segments, _, rfl⟩ := ok_of_map h
  simp only [OnLine, allOnLine_iff, List.forall_mem_map, true_and]
  exact fun segment _ => onLine_segment segment

theorem onLine_quotedValue {raw : List Char} {node : Node} (h : quotedValue number raw = .ok node) :
    node.OnLine number := by
  obtain ⟨segments, _, h⟩ := ok_of_bind h
  split at h
  · cases h
    simp only [OnLine]
  · split at h
    · cases h
      simp only [OnLine]
    · cases h
      simp only [OnLine]

theorem onLine_attributeValue {style : AttributeStyle} {name text rest : List Char} {value : Node}
    (h : attributeValue style number name text = .ok (value, rest)) : value.OnLine number := by
  unfold attributeValue at h
  split at h
  · cases h
  · split at h
    · split at h
      · obtain ⟨node, read, same⟩ := ok_of_map h
        cases same
        exact onLine_quotedValue read
      · cases h
    · obtain ⟨node, read, same⟩ := ok_of_map h
      cases same
      exact onLine_evalNode read

theorem onLine_withValue {value : Node} (name : String) (h : value.OnLine number) :
    (Node.withValue name value).OnLine number := by
  simp only [Node.withValue, OnLine, AllOnLine, h, h.line_eq, and_self]

theorem onLine_readAttribute {style : AttributeStyle} {text rest : List Char} {node : Node}
    (h : readAttribute style number text = .ok (node, rest)) : node.OnLine number := by
  unfold readAttribute at h
  split at h
  · cases h
  · split at h
    · cases h
    · dsimp only at h
      split at h
      · split at h
        · cases h
        · rename_i read
          cases h
          exact onLine_withValue _ (onLine_attributeValue read)
      · split at h
        · cases h
        · cases h
          exact onLine_withValue _ (by simp only [OnLine])

theorem onLine_readAttributes {style : AttributeStyle} {text : List Char} {nodes : List Node}
    (h : readAttributes style number text = .ok nodes) : AllOnLine number nodes := by
  fun_induction readAttributes style number text generalizing nodes with
  | case1 =>
    cases h
    simp only [AllOnLine]
  | case2 => cases h
  | case3 text rest nonempty node after read =>
    rename_i ih
    obtain ⟨more, others, rfl⟩ := ok_of_map h
    exact ⟨onLine_readAttribute read, ih others⟩

theorem onLine_shorthand (kind : Shorthand) (name : List Char) : (kind.node name number).OnLine number := by
  cases kind <;> simp [Shorthand.node, Node.withValue, Node.line, OnLine, AllOnLine]

theorem onLine_readShorthands {text rest : List Char} {nodes : List Node}
    (h : readShorthands number text = .ok (nodes, rest)) : AllOnLine number nodes := by
  fun_induction readShorthands number text generalizing nodes rest with
  | case1 =>
    cases h
    simp only [AllOnLine]
  | case2 =>
    cases h
    simp only [AllOnLine]
  | case3 => cases h
  | case4 c tail kind found name nonempty =>
    rename_i ih
    obtain ⟨answer, others, same⟩ := ok_of_map h
    cases same
    exact ⟨onLine_shorthand kind name, ih others⟩

theorem onLine_readCollections {text rest : List Char} {nodes : List Node}
    (h : readCollections number text = .ok (nodes, rest)) : AllOnLine number nodes := by
  fun_induction readCollections number text generalizing nodes rest with
  | case1 =>
    cases h
    simp only [AllOnLine]
  | case2 =>
    cases h
    simp only [AllOnLine]
  | case3 => cases h
  | case4 => cases h
  | case5 c tail style closing found inner after closed attributes read ih =>
    obtain ⟨answer, others, same⟩ := ok_of_map h
    cases same
    refine ⟨?_, ih others⟩
    simp only [OnLine, true_and]
    exact onLine_readAttributes read

theorem line_headOfName {name : List Char} {head : TagHead} (h : headOfName number name = .ok head) :
    head.line = number := by
  unfold headOfName at h
  dsimp only at h
  split at h
  · cases h
    rfl
  · split at h
    · cases h
    · cases h
      rfl

theorem line_readHead {text rest : List Char} {head : TagHead} (h : readHead number text = .ok (head, rest)) :
    head.line = number := by
  unfold readHead at h
  split at h
  · dsimp only at h
    split at h
    · cases h
    · obtain ⟨found, named, same⟩ := ok_of_map h
      cases same
      exact line_headOfName named
  · cases h
    rfl

theorem onLine_readInline {head after : TagHead} {rest : List Char} {inline : List Node}
    (h : readInline head rest = .ok (after, inline)) :
    after.line = head.line ∧ AllOnLine head.line inline := by
  have single : ∀ {read : Except ParseError Node}, (∀ {node}, read = .ok node → node.OnLine head.line) →
      (read.map fun node => (head, [node])) = .ok (after, inline) →
      after.line = head.line ∧ AllOnLine head.line inline := by
    intro read law h
    obtain ⟨node, found, same⟩ := ok_of_map h
    cases same
    exact ⟨rfl, law found, trivial⟩
  have none : (.ok (head, []) : Except ParseError (TagHead × List Node)) = .ok (after, inline) →
      after.line = head.line ∧ AllOnLine head.line inline := by
    intro h
    cases h
    exact ⟨rfl, trivial⟩
  unfold readInline at h
  dsimp only at h
  split at h
  · exact none h
  · split at h
    · cases h
      exact ⟨rfl, trivial⟩
    · cases h
  · split at h
    · -- What stands behind a blank is nothing, an expression or a text.
      split at h
      · exact none h
      · exact single onLine_evalNode h
      · exact single onLine_textNode h
    · cases h

theorem onLine_readTag {text : List Char} {tag : TagLine} (h : readTag number text = .ok tag) :
    tag.head.line = number ∧ AllOnLine number tag.attributes ∧ AllOnLine number tag.inline := by
  obtain ⟨⟨head, rest⟩, named, h⟩ := ok_of_bind h
  obtain ⟨⟨shorthands, rest⟩, short, h⟩ := ok_of_bind h
  obtain ⟨⟨collections, rest⟩, long, h⟩ := ok_of_bind h
  obtain ⟨⟨closed, inline⟩, last, h⟩ := ok_of_bind h
  cases h
  obtain ⟨same, inside⟩ := onLine_readInline last
  rw [line_readHead named] at same inside
  exact ⟨same, allOnLine_append.mpr ⟨onLine_readShorthands short, onLine_readCollections long⟩, inside⟩

end

end Stencil.Template
