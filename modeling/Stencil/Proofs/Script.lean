import Stencil.Composition.Context
import Stencil.Script.Document

/-! What scripts ask for.

A script pulls in trees and fails only as its tree says. The failures that it may ask for are about what is wrong with
the tree, and those of looking up a tree about what is wrong with a file. All other errors come up when instructions
are carried out.
-/

set_option autoImplicit false

namespace Stencil

/-- Whether an error is about what stands in a file or about a file that cannot be read. -/
def CompileError.isOfFiles : CompileError → Bool
  | .template _ | .malformedCode _ _ | .unsupportedCode _ _ | .partialNotFound _ | .templateLoad _ _ => true
  | _ => false

mutual

def Instruction.failures : Instruction → List CompileError
  | .write _ | .print _ _ | .pull _ => []
  | .choose _ _ body | .otherwise _ body => failuresOf body
  | .fail error => [error]

def failuresOf : List Instruction → List CompileError
  | [] => []
  | instruction :: rest => instruction.failures ++ failuresOf rest

end

theorem targetsOf_eq_flatMap (instructions : List Instruction) :
    targetsOf instructions = instructions.flatMap Instruction.targets := by
  induction instructions with
  | nil => rfl
  | cons instruction rest ih => rw [targetsOf, ih, List.flatMap_cons]

theorem failuresOf_eq_flatMap (instructions : List Instruction) :
    failuresOf instructions = instructions.flatMap Instruction.failures := by
  induction instructions with
  | nil => rfl
  | cons instruction rest ih => rw [failuresOf, ih, List.flatMap_cons]

theorem targetsOf_append (first rest : List Instruction) :
    targetsOf (first ++ rest) = targetsOf first ++ targetsOf rest := by
  simp only [targetsOf_eq_flatMap, List.flatMap_append]

theorem failuresOf_append (first rest : List Instruction) :
    failuresOf (first ++ rest) = failuresOf first ++ failuresOf rest := by
  simp only [failuresOf_eq_flatMap, List.flatMap_append]

namespace Script

open Template (Node)

theorem failuresOf_printAll (spaced : Bool) (pieces : List (String × Nat)) :
    failuresOf (printAll spaced pieces) = [] := by
  induction pieces generalizing spaced with
  | nil => cases spaced <;> rfl
  | cons piece rest ih => cases spaced <;> simp [printAll, failuresOf, Instruction.failures, ih]

theorem targetsOf_printAll (spaced : Bool) (pieces : List (String × Nat)) :
    targetsOf (printAll spaced pieces) = [] := by
  induction pieces generalizing spaced with
  | nil => cases spaced <;> rfl
  | cons piece rest ih => cases spaced <;> simp [printAll, targetsOf, Instruction.targets, ih]

theorem targetsOf_attributeScript (nodes : List Node) : targetsOf (attributeScript nodes) = [] := by
  unfold attributeScript
  split
  · rw [targetsOf_eq_flatMap, List.flatMap_assoc, List.flatMap_eq_nil_iff]
    intro a _
    rw [← targetsOf_eq_flatMap]
    simp [Attribute.script, targetsOf, targetsOf_append, Instruction.targets, targetsOf_printAll]
  · rfl

theorem failuresOf_attribute (a : Attribute) : failuresOf a.script = [] := by
  simp [Attribute.script, failuresOf, failuresOf_append, Instruction.failures, failuresOf_printAll]

theorem isOfFiles_attributeScript (nodes : List Node) :
    ∀ error ∈ failuresOf (attributeScript nodes), error.isOfFiles := by
  unfold attributeScript
  split
  · intro error member
    rw [failuresOf_eq_flatMap, List.flatMap_assoc] at member
    obtain ⟨a, _, member⟩ := List.mem_flatMap.mp member
    rw [← failuresOf_eq_flatMap, failuresOf_attribute] at member
    cases member
  · simp [failuresOf, Instruction.failures, CompileError.isOfFiles]

theorem isOfFiles_codeScript (content : String) (line : Nat) {body : List Instruction}
    (below : ∀ error ∈ failuresOf body, error.isOfFiles) :
    ∀ error ∈ failuresOf (codeScript content line body), error.isOfFiles := by
  unfold codeScript
  generalize Text.trim content.toList = code
  by_cases nothing : code = []
  · simp [nothing, failuresOf]
  simp only [if_neg nothing]
  split
  · split
    · simpa [failuresOf, Instruction.failures] using below
    · simp [failuresOf, Instruction.failures, CompileError.isOfFiles]
  · split
    · simpa [failuresOf, Instruction.failures] using below
    · simp [failuresOf, Instruction.failures, CompileError.isOfFiles]

theorem failuresOf_directiveScript (content : String) : failuresOf (directiveScript content) = [] := by
  unfold directiveScript
  split <;> rfl

theorem failuresOf_closeTag_subset (head : Template.TagHead) (hasContent : Bool) (content : List Instruction) :
    failuresOf (closeTag head hasContent content) ⊆ failuresOf content := by
  unfold closeTag
  split
  · simp [failuresOf, failuresOf_append, Instruction.failures]
  · split <;> simp [failuresOf, Instruction.failures]

mutual

theorem isOfFiles_ofNode : ∀ node : Node, ∀ error ∈ failuresOf (ofNode node), error.isOfFiles
  | .tag head attributes children => by
    simp only [ofNode, failuresOf, failuresOf_append, Instruction.failures, List.nil_append, List.mem_append]
    rintro error (inAttributes | inContent)
    · exact isOfFiles_attributeScript attributes error inAttributes
    · exact isOfFiles_ofNodes children error (failuresOf_closeTag_subset head _ _ inContent)
  | .idShorthand children _ | .classShorthand children _ | .collection children _ | .textLine children _ => by
    simpa only [ofNode] using isOfFiles_ofNodes children
  | .htmlAttribute name children _ => by
    simpa [ofNode, failuresOf, failuresOf_append, Instruction.failures] using isOfFiles_ofNodes children
  | .text _ _ | .variable _ _ | .eval _ _ | .docType _ => by simp [ofNode, failuresOf, Instruction.failures]
  | .code content children line => by
    simpa only [ofNode] using isOfFiles_codeScript content line (isOfFiles_ofNodes children)
  | .directive content _ => by
    simp only [ofNode, failuresOf_directiveScript, List.not_mem_nil, false_implies, implies_true]

theorem isOfFiles_ofNodes : ∀ nodes : List Node, ∀ error ∈ failuresOf (ofNodes nodes), error.isOfFiles
  | [] => by simp [ofNodes, failuresOf]
  | node :: rest => by
    rw [ofNodes, failuresOf_append]
    exact List.forall_mem_append.mpr ⟨isOfFiles_ofNode node, isOfFiles_ofNodes rest⟩

end

end Script

theorem LoadError.isOfFiles_forView (path : Path) (error : LoadError) : (error.forView path).isOfFiles := by
  cases error with
  | unreadable cause => cases gone : cause.notFound <;> simp [forView, gone, CompileError.isOfFiles]
  | malformed cause => rfl

theorem Store.isOfFiles_of_loadForView {store : Store} {path : Path} {error : CompileError}
    (h : store.loadForView path = .error error) : error.isOfFiles := by
  unfold loadForView at h
  cases loaded : store.load path with
  | ok document =>
    rw [loaded] at h
    cases h
  | error cause =>
    rw [loaded] at h
    cases h
    exact LoadError.isOfFiles_forView path cause

theorem Context.isOfFiles_of_resolve {context : Context} {store : Store} {memo : Memo} {name : String}
    {error : CompileError} (h : context.resolve store memo name = .error error) : error.isOfFiles := by
  unfold resolve at h
  generalize context.partialPath name = wanted at h
  cases found : memo.find? wanted with
  | some document => simp [found] at h
  | none =>
    simp only [found] at h
    split at h
    · cases loaded : store.loadForView wanted with
      | ok document => simp [loaded, bind, Except.bind, pure, Except.pure] at h
      | error cause =>
        simp only [loaded, bind, Except.bind, Except.error.injEq] at h
        subst h
        exact Store.isOfFiles_of_loadForView loaded
    · cases h
      rfl

end Stencil
