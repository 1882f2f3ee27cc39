import Stencil.Proofs.Script
import Stencil.Walk

/-! Trees in place of directives.

Splicing puts, in place of a directive, a text line with the children of the tree that the directive leads to. On the
instructions of a tree it is inlining: a pull becomes the instructions of the other tree. To carry out inlined
instructions is to carry out the ones before, with the other trees' instructions wherever a tree is entered.
-/

set_option autoImplicit false

namespace Stencil

open Template (Node Document)

section
variable (tree : Target → Option Document)

mutual

/-- A node with other trees in place of the directives in it that a walk comes to: not those below a blank line of
code, nor the attributes of a tag. -/
def spliceNode : Node → Node
  | .tag head attributes children => .tag head attributes (spliceNodes children)
  | .idShorthand children line => .idShorthand (spliceNodes children) line
  | .classShorthand children line => .classShorthand (spliceNodes children) line
  | .collection children line => .collection (spliceNodes children) line
  | .htmlAttribute name children line => .htmlAttribute name (spliceNodes children) line
  | .textLine children line => .textLine (spliceNodes children) line
  | .code content children line =>
    if Text.trim content.toList = [] then .code content children line
    else .code content (spliceNodes children) line
  | .directive content line =>
    match (Script.target? content).bind tree with
    | some document => .textLine document.children line
    | none => .directive content line
  | .text content line => .text content line
  | .variable source line => .variable source line
  | .eval source line => .eval source line
  | .docType line => .docType line

def spliceNodes : List Node → List Node
  | [] => []
  | node :: rest => spliceNode node :: spliceNodes rest

end

def Template.Document.splice (document : Document) : Document := ⟨spliceNodes tree document.children⟩

def pulledScript (target : Target) : List Instruction :=
  match tree target with
  | some document => Script.ofDocument document
  | none => [.pull target]

end

section
variable (scripts : Target → List Instruction)

mutual

/-- The instructions that an instruction becomes with other ones in place of pulls. -/
def Instruction.inline : Instruction → List Instruction
  | .write text => [.write text]
  | .print source line => [.print source line]
  | .choose condition line body => [.choose condition line (inlineAll body)]
  | .otherwise line body => [.otherwise line (inlineAll body)]
  | .pull target => scripts target
  | .fail error => [.fail error]

def inlineAll : List Instruction → List Instruction
  | [] => []
  | instruction :: rest => instruction.inline ++ inlineAll rest

end

theorem inlineAll_append (first rest : List Instruction) :
    inlineAll scripts (first ++ rest) = inlineAll scripts first ++ inlineAll scripts rest := by
  induction first with
  | nil => rfl
  | cons instruction first ih => simp only [List.cons_append, inlineAll, ih, List.append_assoc]

end

mutual

theorem Instruction.inline_of_targets (scripts : Target → List Instruction) :
    ∀ instruction : Instruction, instruction.targets = [] → instruction.inline scripts = [instruction]
  | .write _, _ | .print _ _, _ | .fail _, _ => by simp only [Instruction.inline]
  | .choose condition line body, closed => by
    simp only [Instruction.targets] at closed
    simp only [Instruction.inline, inlineAll_of_targetsOf scripts body closed]
  | .otherwise line body, closed => by
    simp only [Instruction.targets] at closed
    simp only [Instruction.inline, inlineAll_of_targetsOf scripts body closed]
  | .pull target, closed => by simp [Instruction.targets] at closed

theorem inlineAll_of_targetsOf (scripts : Target → List Instruction) :
    ∀ instructions : List Instruction, targetsOf instructions = [] → inlineAll scripts instructions = instructions
  | [], _ => rfl
  | instruction :: rest, closed => by
    obtain ⟨first, others⟩ := List.append_eq_nil_iff.mp closed
    rw [inlineAll, instruction.inline_of_targets scripts first, inlineAll_of_targetsOf scripts rest others]
    rfl

end

namespace Script

theorem codeScript_of_blank {content : String} (blank : Text.trim content.toList = []) (line : Nat)
    (body : List Instruction) : codeScript content line body = [] := by
  simp only [codeScript, blank, if_true]

theorem inlineAll_codeScript (scripts : Target → List Instruction) (content : String) (line : Nat)
    (body : List Instruction) :
    inlineAll scripts (codeScript content line body) = codeScript content line (inlineAll scripts body) := by
  unfold codeScript
  generalize Text.trim content.toList = code
  by_cases nothing : code = []
  · simp only [nothing, if_true, inlineAll]
  simp only [if_neg nothing]
  split
  · split <;> simp only [inlineAll, Instruction.inline, List.append_nil]
  · split <;> simp only [inlineAll, Instruction.inline, List.append_nil]

theorem inlineAll_closeTag (scripts : Target → List Instruction) (head : Template.TagHead) (hasContent : Bool)
    (content : List Instruction) :
    inlineAll scripts (closeTag head hasContent content) = closeTag head hasContent (inlineAll scripts content) := by
  unfold closeTag
  split
  · simp only [List.cons_append, inlineAll, inlineAll_append, Instruction.inline, List.nil_append, List.append_nil]
  · split <;> rfl

variable (tree : Target → Option Document)

theorem isEmpty_spliceNodes (nodes : List Node) : (spliceNodes tree nodes).isEmpty = nodes.isEmpty := by
  cases nodes <;> rfl

mutual

/-- The instructions of a spliced node are those of the node, inlined. -/
theorem ofNode_splice : ∀ node : Node,
    ofNode (spliceNode tree node) = inlineAll (pulledScript tree) (ofNode node)
  | .tag head attributes children => by
    simp only [spliceNode, ofNode, inlineAll, Instruction.inline, inlineAll_append, inlineAll_closeTag,
      isEmpty_spliceNodes, ofNodes_splice children,
      inlineAll_of_targetsOf _ _ (targetsOf_attributeScript attributes), List.cons_append, List.nil_append]
  | .idShorthand children _ | .classShorthand children _ | .collection children _ | .textLine children _ => by
    simp only [spliceNode, ofNode, ofNodes_splice children]
  | .htmlAttribute name children _ => by
    simp only [spliceNode, ofNode, inlineAll, Instruction.inline, inlineAll_append, ofNodes_splice children,
      List.cons_append, List.nil_append, List.append_nil]
  | .text _ _ | .variable _ _ | .eval _ _ | .docType _ => rfl
  | .code content children line => by
    by_cases blank : Text.trim content.toList = []
    · simp only [spliceNode, blank, if_true, ofNode, codeScript_of_blank blank, inlineAll]
    · simp only [spliceNode, blank, if_false, ofNode, inlineAll_codeScript, ofNodes_splice children]
  | .directive content line => by
    simp only [spliceNode, ofNode, directiveScript]
    cases leads : target? content with
    | none => simp only [Option.bind_none, ofNode, directiveScript, leads, inlineAll]
    | some target =>
      cases known : tree target with
      | none =>
        simp only [Option.bind_some, known, ofNode, directiveScript, leads, inlineAll, Instruction.inline,
          pulledScript, List.append_nil]
      | some document =>
        simp only [Option.bind_some, known, ofNode, inlineAll, Instruction.inline, pulledScript, ofDocument,
          List.append_nil]

theorem ofNodes_splice : ∀ nodes : List Node,
    ofNodes (spliceNodes tree nodes) = inlineAll (pulledScript tree) (ofNodes nodes)
  | [] => rfl
  | node :: rest => by
    rw [spliceNodes, ofNodes, ofNodes, inlineAll_append, ofNode_splice node, ofNodes_splice rest]

end

theorem ofDocument_splice (document : Document) :
    ofDocument (document.splice tree) = inlineAll (pulledScript tree) (ofDocument document) :=
  ofNodes_splice tree document.children

end Script

namespace Walk

variable (enter : Target → WalkState → WalkResult)

theorem runAll_append (first rest : List Instruction) (s : WalkState) :
    runAll enter (first ++ rest) s = (runAll enter first s).bind (runAll enter rest) := by
  induction first generalizing s with
  | nil => rfl
  | cons instruction first ih =>
    simp only [List.cons_append, runAll, bind, Except.bind]
    cases run enter instruction s with
    | error failure => rfl
    | ok next => exact ih next

theorem runAll_singleton (instruction : Instruction) (s : WalkState) :
    runAll enter [instruction] s = run enter instruction s := by
  simp only [runAll, bind, Except.bind]
  cases run enter instruction s <;> rfl

mutual

/-- Inlined instructions are carried out as the ones before are, where entering a tree carries out its instructions. -/
theorem run_inline (scripts : Target → List Instruction) : ∀ (instruction : Instruction) (s : WalkState),
    runAll enter (instruction.inline scripts) s = run (fun target => runAll enter (scripts target)) instruction s
  | .write _, _ | .print _ _, _ | .fail _, _ => by simp only [Instruction.inline, runAll_singleton, run]
  | .choose condition line body, s => by
    simp only [Instruction.inline, runAll_singleton, run, runAll_inlineAll scripts body]
  | .otherwise line body, s => by
    simp only [Instruction.inline, runAll_singleton, run, runAll_inlineAll scripts body]
  | .pull target, s => by simp only [Instruction.inline, run]

theorem runAll_inlineAll (scripts : Target → List Instruction) : ∀ (instructions : List Instruction) (s : WalkState),
    runAll enter (inlineAll scripts instructions) s =
      runAll (fun target => runAll enter (scripts target)) instructions s
  | [], _ => rfl
  | instruction :: rest, s => by
    rw [inlineAll, runAll_append, run_inline scripts instruction s, runAll, funext (runAll_inlineAll scripts rest)]
    rfl

end

end Walk

end Stencil
