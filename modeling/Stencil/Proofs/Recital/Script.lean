import Stencil.Proofs.Recital.Basic

/-! What instructions say, and that the instructions of a tree say what the tree says. -/

set_option autoImplicit false

namespace Stencil.Recital

open Json (Value)
open Template (Node)

theorem write_empty (r : Recital) : r.write "" = r := by
  simp [write]

theorem write_write (r : Recital) (a b : String) : (r.write a).write b = r.write (a ++ b) := by
  by_cases empty : b = ""
  · subst empty
    simp [write]
  · have some : a ++ b ≠ "" := fun nothing => empty (String.append_eq_empty_iff.1 nothing).2
    simp [write, String.append_assoc, empty, some]

variable (m : Meaning) (model : Value)

mutual

/-- What an instruction says, with `pull` for the trees that are pulled in. -/
def tell (pull : Target → Recital → Recited) : Instruction → Recital → Recited
  | .write text, r => .ok (r.write text)
  | .print source _, r => r.print m model (Text.trimText source)
  | .choose source _ body, r => r.choose m model (Text.trimText source) fun r => tellAll pull body r
  | .otherwise _ body, r => r.otherwise fun r => tellAll pull body r
  | .pull target, r => pull target r
  | .fail _, _ => .error .senseless

def tellAll (pull : Target → Recital → Recited) : List Instruction → Recital → Recited
  | [], r => .ok r
  | instruction :: rest, r => do
    let r ← tell pull instruction r
    tellAll pull rest r

end

variable (pull : Target → Recital → Recited)

theorem tellAll_singleton (instruction : Instruction) (r : Recital) :
    tellAll m model pull [instruction] r = tell m model pull instruction r := by
  cases told : tell m model pull instruction r <;> simp [tellAll, told, bind, Except.bind]

theorem tellAll_append (first rest : List Instruction) (r : Recital) :
    tellAll m model pull (first ++ rest) r =
      (tellAll m model pull first r).bind (tellAll m model pull rest) := by
  induction first generalizing r with
  | nil => rfl
  | cons instruction first ih =>
    simp only [List.cons_append, tellAll, bind, Except.bind]
    split
    · rfl
    · exact ih _

theorem tellAll_printAll (spaced : Bool) (pieces : List (String × Nat)) (r : Recital) :
    tellAll m model pull (Script.printAll spaced pieces) r = ofExpressions m model spaced pieces r := by
  induction pieces generalizing spaced r with
  | nil => cases spaced <;> rfl
  | cons piece rest ih =>
    cases spaced with
    | true => simp only [Script.printAll, tellAll, tell, ofExpressions, ih, bind, Except.bind, if_true]
    | false =>
      simp only [Script.printAll, tellAll, tell, ofExpressions, ih, write_empty, bind, Except.bind,
        Bool.false_eq_true, if_false]

theorem tellAll_attribute (a : Script.Attribute) (r : Recital) :
    tellAll m model pull a.script r = ofAttribute m model a r := by
  simp only [Script.Attribute.script, tellAll, tell, tellAll_append, tellAll_printAll, ofAttribute, bind,
    Except.bind, pure, Except.pure]

theorem tellAll_attributes (found : List Script.Attribute) (r : Recital) :
    tellAll m model pull (found.flatMap Script.Attribute.script) r = ofAttributes m model found r := by
  induction found generalizing r with
  | nil => rfl
  | cons a rest ih =>
    rw [List.flatMap_cons, tellAll_append, tellAll_attribute]
    exact congrArg _ (funext ih)

theorem tellAll_attributeScript (nodes : List Node) (r : Recital) :
    tellAll m model pull (Script.attributeScript nodes) r = ofAttributeList m model nodes r := by
  cases read : Script.attributesOf nodes with
  | ok found =>
    simp only [Script.attributeScript, ofAttributeList, read]
    exact tellAll_attributes m model pull _ r
  | error error =>
    simp only [Script.attributeScript, ofAttributeList, read]
    exact tellAll_singleton m model pull _ r

theorem tellAll_codeScript (content : String) (line : Nat) (body : List Instruction) (r : Recital) :
    tellAll m model pull (Script.codeScript content line body) r =
      ofCode m model content (fun r => tellAll m model pull body r) r := by
  unfold Script.codeScript ofCode
  generalize Text.trim content.toList = code
  by_cases nothing : code = []
  · simp only [nothing, if_true]
    rfl
  cases keyword : Script.afterKeyword? "if" code with
  | some rest =>
    cases found : Script.condition rest <;>
      simp only [nothing, keyword, found, if_false, tellAll_singleton] <;> rfl
  | none =>
    by_cases other : code = "else".toList
    · simp only [if_neg nothing, keyword, if_pos other, tellAll_singleton]
      rfl
    · simp only [if_neg nothing, keyword, if_neg other, tellAll_singleton]
      rfl

theorem tellAll_directiveScript (content : String) (r : Recital) :
    tellAll m model pull (Script.directiveScript content) r = ofDirective pull content r := by
  cases found : Script.target? content with
  | some target =>
    simp only [Script.directiveScript, ofDirective, found, tellAll_singleton, tell]
  | none => simp only [Script.directiveScript, ofDirective, found, tellAll]

theorem tellAll_closeTag (head : Template.TagHead) (hasContent : Bool) (content : List Instruction)
    (r : Recital) :
    tellAll m model pull (Script.closeTag head hasContent content) r =
      if hasContent then
        (tellAll m model pull content (r.write ">")).map fun r => r.write ("</" ++ head.qualifiedName ++ ">")
      else .ok (r.write (if head.selfClosing then ">" else "/>")) := by
  unfold Script.closeTag
  split
  · simp only [List.cons_append, tellAll, tell, tellAll_append, bind, Except.bind, Except.map]
  · split <;> simp_all [tellAll, tell, bind, Except.bind]

mutual

theorem tellAll_ofNode : ∀ (node : Node) (r : Recital),
    tellAll m model pull (Script.ofNode node) r = ofNode m model pull node r
  | .tag head attributes children, r => by
    simp only [Script.ofNode, tellAll, tell, tellAll_append, tellAll_attributeScript, tellAll_closeTag,
      ofNode, bind, Except.bind, pure, Except.pure, Except.map]
    split
    · rfl
    · cases children with
      | nil => simp
      | cons node rest => simp [tellAll_ofNodes (node :: rest)]
  | .idShorthand children _, r => by simp only [Script.ofNode, ofNode, tellAll_ofNodes children]
  | .classShorthand children _, r => by simp only [Script.ofNode, ofNode, tellAll_ofNodes children]
  | .collection children _, r => by simp only [Script.ofNode, ofNode, tellAll_ofNodes children]
  | .textLine children _, r => by simp only [Script.ofNode, ofNode, tellAll_ofNodes children]
  | .htmlAttribute name children _, r => by
    simp only [Script.ofNode, tellAll, tell, tellAll_append, tellAll_ofNodes children, ofNode, bind,
      Except.bind, pure, Except.pure]
  | .text content _, r => by simp only [Script.ofNode, tellAll_singleton, tell, ofNode]
  | .variable source _, r => by simp only [Script.ofNode, tellAll_singleton, tell, ofNode]
  | .eval source _, r => by simp only [Script.ofNode, tellAll_singleton, tell, ofNode]
  | .code content children line, r => by
    simp only [Script.ofNode, tellAll_codeScript, ofNode, tellAll_ofNodes children]
  | .docType _, r => by simp only [Script.ofNode, tellAll_singleton, tell, ofNode]
  | .directive content _, r => by
    simp only [Script.ofNode, tellAll_directiveScript, ofNode]

theorem tellAll_ofNodes : ∀ (nodes : List Node) (r : Recital),
    tellAll m model pull (Script.ofNodes nodes) r = ofNodes m model pull nodes r
  | [], r => rfl
  | node :: rest, r => by
    simp only [Script.ofNodes, tellAll_append, tellAll_ofNode node, ofNodes, bind, Except.bind]
    split
    · rfl
    · exact tellAll_ofNodes rest _

end

end Stencil.Recital
