import Stencil.Proofs.Choice.Ops
import Stencil.Proofs.Splice.Script
import Stencil.Proofs.Walk.Internal

/-! The nodes of a level, and what is left of them in a builder.

A level is the nodes that follow each other in a sequence of ops. A node that groups others, and a directive that leads
to a tree, have no place of their own in it: the nodes grouped, and those of the tree, have. Of all other nodes a few
emit nothing, and the last one that emits something tells whether a second branch can be attached.
-/

set_option autoImplicit false

namespace Stencil

open Template (Node TagHead)
open Walk (run runAll)

namespace Script

def ifCondition? (content : String) : Option String :=
  match afterKeyword? "if" (Text.trim content.toList) with
  | some rest => (condition rest).toOption.map String.ofList
  | none => none

def isElse (content : String) : Bool := Text.trim content.toList = "else".toList

theorem ifCondition?_of_blank {content : String} (blank : Text.trim content.toList = []) :
    ifCondition? content = none := by
  simp [ifCondition?, afterKeyword?, blank]

theorem ifCondition?_of_else {content : String} (is : isElse content) : ifCondition? content = none := by
  have text : Text.trim content.toList = "else".toList := of_decide_eq_true is
  simp [ifCondition?, afterKeyword?, text]

theorem codeScript_of_if {content source : String} (is : ifCondition? content = some source) (line : Nat)
    (body : List Instruction) : codeScript content line body = [.choose source line body] := by
  unfold ifCondition? at is
  unfold codeScript
  cases keyword : afterKeyword? "if" (Text.trim content.toList) with
  | none => simp [keyword] at is
  | some rest =>
    simp only [keyword] at is ⊢
    cases found : condition rest with
    | error fault => simp [found, Except.toOption] at is
    | ok text =>
      simp only [found, Except.toOption, Option.map_some, Option.some.injEq] at is ⊢
      have nonempty : Text.trim content.toList ≠ [] := by
        rintro blank
        rw [blank] at keyword
        simp [afterKeyword?] at keyword
      rw [if_neg nonempty, is]

theorem codeScript_of_else {content : String} (is : isElse content) (line : Nat) (body : List Instruction) :
    codeScript content line body = [.otherwise line body] := by
  have text : Text.trim content.toList = "else".toList := of_decide_eq_true is
  simp only [codeScript, text]
  rfl

theorem codeScript_cases (content : String) (line : Nat) (body : List Instruction) :
    (Text.trim content.toList = [] ∧ codeScript content line body = []) ∨
    (∃ source, ifCondition? content = some source ∧ codeScript content line body = [.choose source line body]) ∨
    (isElse content ∧ codeScript content line body = [.otherwise line body]) ∨
    ((ifCondition? content = none ∧ ¬ isElse content) ∧
      ∃ error, (∀ line, error ≠ .elseWithoutIf line) ∧ codeScript content line body = [.fail error]) := by
  by_cases blank : Text.trim content.toList = []
  · exact .inl ⟨blank, codeScript_of_blank blank line body⟩
  by_cases other : isElse content
  · exact .inr (.inr (.inl ⟨other, codeScript_of_else other line body⟩))
  cases choice : ifCondition? content with
  | some source => exact .inr (.inl ⟨source, rfl, codeScript_of_if choice line body⟩)
  | none =>
    refine .inr (.inr (.inr ⟨⟨rfl, other⟩, ?_⟩))
    simp only [isElse, decide_eq_true_eq] at other
    simp only [ifCondition?] at choice
    simp only [codeScript, if_neg blank]
    cases keyword : afterKeyword? "if" (Text.trim content.toList) with
    | none => exact ⟨_, by simp, if_neg other⟩
    | some rest =>
      simp only [keyword] at choice
      cases found : condition rest with
      | ok text => simp [found, Except.toOption] at choice
      | error fault => exact ⟨.malformedCode line fault, by simp, by simp only [found]⟩

end Script

namespace Template.Node

/-- The nodes that a node groups, with nothing of its own. -/
def grouped? : Node → Option (List Node)
  | .idShorthand children _ | .classShorthand children _ | .collection children _ | .textLine children _ =>
    some children
  | _ => none

def target? : Node → Option Target
  | .directive content _ => Script.target? content
  | _ => none

/-- Whether a node has a place of its own at its level. -/
def Stands (node : Node) : Prop := node.grouped? = none ∧ node.target? = none

def isSilent : Node → Bool
  | .text content _ => content = ""
  | .code content _ _ => Text.trim content.toList = []
  | .directive _ _ => true
  | _ => false

def ifCondition? : Node → Option String
  | .code content _ _ => Script.ifCondition? content
  | _ => none

theorem ofNode_of_grouped {node : Node} {children : List Node} (groups : node.grouped? = some children) :
    Script.ofNode node = Script.ofNodes children := by
  cases node <;> simp_all [grouped?, Script.ofNode]

theorem ofNode_of_target {node : Node} {target : Target} (pulls : node.target? = some target) :
    Script.ofNode node = [.pull target] := by
  cases node <;> simp_all [Node.target?, Script.ofNode, Script.directiveScript]

end Template.Node

def EndsWithIf (passed : List Node) : Prop :=
  ∃ (before : List Node) (node : Node) (silent : List Node),
    passed = before ++ node :: silent ∧ node.ifCondition?.isSome ∧ ∀ other ∈ silent, other.isSilent

theorem endsWithIf_concat {passed : List Node} {node : Node} :
    EndsWithIf (passed ++ [node]) ↔ node.ifCondition?.isSome ∨ node.isSilent ∧ EndsWithIf passed := by
  constructor
  · rintro ⟨before, first, silent, same, is, quiet⟩
    rcases List.eq_nil_or_concat silent with rfl | ⟨others, last, rfl⟩
    · obtain ⟨_, last⟩ := List.append_inj' same rfl
      cases last
      exact .inl is
    · rw [List.concat_eq_append, ← List.cons_append, ← List.append_assoc] at same
      obtain ⟨rfl, last⟩ := List.append_inj' same rfl
      cases last
      exact .inr ⟨quiet _ (by simp), before, first, others, rfl, is, fun other member => quiet other (by simp [member])⟩
  · rintro (is | ⟨silent, before, first, others, rfl, is, quiet⟩)
    · exact ⟨passed, node, [], rfl, is, by simp⟩
    · refine ⟨before, first, others ++ [node], by simp, is, fun other member => ?_⟩
      rcases List.mem_append.mp member with earlier | last
      · exact quiet other earlier
      · rwa [List.mem_singleton.mp last]

/-! ### Passing a node -/

namespace Walk

variable {enter : Target → WalkState → WalkResult} {s s' : WalkState}

def Brings (enter : Target → WalkState → WalkResult) (nodes : List Node) (s : WalkState) (ops : List Op) : Prop :=
  ∃ inner builder, runAll enter (Script.ofNodes nodes) s.pushScope = .ok inner ∧
    inner.builder.popScope = (builder, some ops)

theorem builder_of_popScope {context : Context} {store : Store} {depth : Nat} {opened : List Frame} {nodes : List Node}
    {inner : WalkState} {builder : Builder} {ops : List Op}
    (ran : runAll (Walk.enter context store depth opened) (Script.ofNodes nodes) s.pushScope = .ok inner)
    (popped : inner.builder.popScope = (builder, some ops)) : builder = s.builder.flush := by
  have ends := runAll_mayEnd (enter_mayEnd context store depth opened) (Script.candid_ofNodes nodes) s.pushScope
  rw [ran] at ends
  rw [Builder.popScope_of_outer ends.outer] at popped
  exact (Prod.mk.inj popped).1.symm

theorem not_attachable_of_text {instructions : List Instruction} {text : String} (some_ : text ≠ "")
    (ran : runAll enter (instructions ++ [.write text]) s = .ok s') : s'.builder.canAttachElse = false := by
  rw [runAll_append] at ran
  obtain ⟨inner, _, written⟩ := bind_eq_ok_iff.mp ran
  simp only [runAll_singleton, run, Except.ok.injEq] at written
  subst written
  apply Builder.canAttachElse_of_written
  simp [WalkState.write, Builder.write, some_]

theorem exists_closeTag (head : TagHead) (hasContent : Bool) (content : List Instruction) :
    ∃ before text, Script.closeTag head hasContent content = before ++ [.write text] ∧ text ≠ "" := by
  unfold Script.closeTag
  split
  · exact ⟨.write ">" :: content, _, rfl, by simp⟩
  · split
    · exact ⟨[], ">", rfl, by decide⟩
    · exact ⟨[], "/>", rfl, by decide⟩

/-- A code line that has been passed has emitted nothing, or it is an `if` with its choice written, or nothing can be
attached behind it. -/
theorem pass_code_cases {context : Context} {store : Store} {depth : Nat} {opened : List Frame} {content : String}
    {children : List Node} {line : Nat}
    (ran : runAll (Walk.enter context store depth opened) (Script.ofNode (.code content children line)) s = .ok s') :
    (Text.trim content.toList = [] ∧ s' = s) ∨
    (∃ source ops, Script.ifCondition? content = some source ∧
      Brings (Walk.enter context store depth opened) children (s.condition source line).2 ops ∧
      s'.builder = s.builder.conditional (s.condition source line).1 ops) ∨
    (Script.isElse content ∧ s'.builder.canAttachElse = false) := by
  rw [Script.ofNode] at ran
  rcases Script.codeScript_cases content line (Script.ofNodes children) with
    ⟨blank, script⟩ | ⟨source, is, script⟩ | ⟨is, script⟩ | ⟨_, error, _, script⟩
  · rw [script] at ran
    cases ran
    exact .inl ⟨blank, rfl⟩
  · -- The scope of the body is closed at once, and the choice is what stands there then.
    rw [script, runAll_singleton] at ran
    obtain ⟨inner, inside, ends⟩ := run_choose_eq_ok_iff.mp ran
    obtain ⟨builder, ops, popped, rfl⟩ := WalkState.endChoice_eq_ok_iff.mp ends
    have around : builder = (s.condition source line).2.builder.flush := builder_of_popScope inside popped
    refine .inr (.inl ⟨source, ops, is, ⟨inner, builder, inside, popped⟩, ?_⟩)
    simp only [around, Builder.conditional, Builder.emit_flush]
    rfl
  · -- What an `else` leaves behind is a choice that has two branches already.
    rw [script, runAll_singleton] at ran
    obtain ⟨_, inner, _, ends⟩ := run_otherwise_eq_ok_iff.mp ran
    obtain ⟨builder, ops, attached, _, attach, rfl⟩ := WalkState.endOtherwise_eq_ok_iff.mp ends
    obtain ⟨_, before, condition, body, _, rfl⟩ := Builder.attachElse?_eq_some attach
    exact .inr (.inr ⟨is, by simp [Builder.canAttachElse, Op.isOpenConditional]⟩)
  · rw [script, runAll_singleton] at ran
    cases ran

/-- A node that has been passed has emitted nothing, or it is an `if` that can take a second branch, or nothing can be
attached behind it. -/
theorem pass_cases {context : Context} {store : Store} {depth : Nat} {opened : List Frame} {node : Node}
    (stands : node.Stands) (ran : runAll (Walk.enter context store depth opened) (Script.ofNode node) s = .ok s') :
    (node.isSilent ∧ node.ifCondition? = none ∧ s'.builder = s.builder) ∨
    (∃ content children line source ops, node = .code content children line ∧
      Script.ifCondition? content = some source ∧
      Brings (Walk.enter context store depth opened) children (s.condition source line).2 ops ∧
      s'.builder = s.builder.conditional (s.condition source line).1 ops) ∨
    (¬ node.isSilent ∧ node.ifCondition? = none ∧ s'.builder.canAttachElse = false) := by
  -- Most nodes end with a text that is not empty, and that closes the sequence for a second branch.
  have text (before : List Instruction) (content : String) (some_ : content ≠ "") (loud : node.isSilent = false)
      (other : node.ifCondition? = none) (ends : Script.ofNode node = before ++ [.write content]) :
      ¬ node.isSilent ∧ node.ifCondition? = none ∧ s'.builder.canAttachElse = false := by
    rw [ends] at ran
    exact ⟨by simp [loud], other, not_attachable_of_text some_ ran⟩
  obtain ⟨alone, pullsNothing⟩ := stands
  cases node with
  | idShorthand | classShorthand | collection | textLine => cases alone
  | tag head attributes children =>
    obtain ⟨before, content, closes, some_⟩ :=
      exists_closeTag head (!children.isEmpty) (Script.ofNodes children)
    let opens := .write ("<" ++ head.qualifiedName) :: Script.attributeScript attributes
    exact .inr (.inr (text (opens ++ before) content some_ rfl rfl (by simp [opens, Script.ofNode, closes])))
  | htmlAttribute name children line =>
    let opens := .write (" " ++ name ++ "=\"") :: Script.ofNodes children
    exact .inr (.inr (text opens "\"" (by decide) rfl rfl (by simp [opens, Script.ofNode])))
  | text content line =>
    by_cases empty : content = ""
    · subst empty
      simp only [Script.ofNode, runAll_singleton, run, Except.ok.injEq] at ran
      subst ran
      exact .inl ⟨rfl, rfl, by simp [WalkState.write, Builder.write]⟩
    · exact .inr (.inr (text [] content empty (by simp [Node.isSilent, empty]) rfl rfl))
  | «variable» source line | eval source line =>
    simp only [Script.ofNode, runAll_singleton, run, Except.ok.injEq] at ran
    subst ran
    exact .inr (.inr ⟨by simp [Node.isSilent], rfl, Builder.canAttachElse_emit _ _⟩)
  | code content children line =>
    rcases pass_code_cases ran with ⟨blank, rfl⟩ | ⟨source, ops, is, brings, same⟩ | ⟨is, closed⟩
    · exact .inl ⟨by simp [Node.isSilent, blank], Script.ifCondition?_of_blank blank, rfl⟩
    · exact .inr (.inl ⟨content, children, line, source, ops, rfl, is, brings, same⟩)
    · have keyword : Text.trim content.toList = "else".toList := of_decide_eq_true is
      exact .inr (.inr ⟨by simp [Node.isSilent, keyword], Script.ifCondition?_of_else is, closed⟩)
  | docType line => exact .inr (.inr (text [] Script.docType (by decide) rfl rfl rfl))
  | directive content line =>
    have none : Script.target? content = none := pullsNothing
    simp only [Script.ofNode, Script.directiveScript, none, runAll, Except.ok.injEq] at ran
    exact .inl ⟨rfl, rfl, ran ▸ rfl⟩

end Walk

end Stencil
