import Stencil.Proofs.Merging.Groups
import Stencil.Proofs.Sharing.Walk
import Stencil.Proofs.Walk.Course

/-! Walks over trees whose tags have their attributes arranged in other ways.

The instructions of a tag do not tell how its attributes are spread over shorthands and collections, and of the order of
their fragments only what merging keeps. So walks over trees that differ in nothing else take the same steps, wherever
the trees come from: layout and main template, partials that are read, and partials that are remembered.
-/

set_option autoImplicit false

namespace Stencil

namespace Template

mutual

/-- Two nodes that differ only in the attributes of tags in them, which are spread in other ways or in another order. -/
inductive Node.Rearranged : Node → Node → Prop
  | same (node : Node) : Node.Rearranged node node
  | reordered (head : TagHead) {attributes attributes' children children' : List Node}
    {found found' : List Script.Attribute} (collected : Script.attributesOf attributes = .ok found)
    (collected' : Script.attributesOf attributes' = .ok found') (order : Script.Reordered found found')
    (inside : NodesRearranged children children') :
    Node.Rearranged (.tag head attributes children) (.tag head attributes' children')
  | tag (head : TagHead) (attributes : List Node) {children children' : List Node}
    (inside : NodesRearranged children children') :
    Node.Rearranged (.tag head attributes children) (.tag head attributes children')
  | idShorthand {children children' : List Node} (line : Nat) (inside : NodesRearranged children children') :
    Node.Rearranged (.idShorthand children line) (.idShorthand children' line)
  | classShorthand {children children' : List Node} (line : Nat) (inside : NodesRearranged children children') :
    Node.Rearranged (.classShorthand children line) (.classShorthand children' line)
  | collection {children children' : List Node} (line : Nat) (inside : NodesRearranged children children') :
    Node.Rearranged (.collection children line) (.collection children' line)
  | htmlAttribute (name : String) {children children' : List Node} (line : Nat)
    (inside : NodesRearranged children children') :
    Node.Rearranged (.htmlAttribute name children line) (.htmlAttribute name children' line)
  | textLine {children children' : List Node} (line : Nat) (inside : NodesRearranged children children') :
    Node.Rearranged (.textLine children line) (.textLine children' line)
  | code (content : String) {children children' : List Node} (line : Nat)
    (inside : NodesRearranged children children') :
    Node.Rearranged (.code content children line) (.code content children' line)

inductive NodesRearranged : List Node → List Node → Prop
  | nil : NodesRearranged [] []
  | cons {node node' : Node} {rest rest' : List Node} (first : node.Rearranged node')
    (more : NodesRearranged rest rest') : NodesRearranged (node :: rest) (node' :: rest')

end

theorem NodesRearranged.refl (nodes : List Node) : NodesRearranged nodes nodes := by
  induction nodes with
  | nil => exact .nil
  | cons node rest ih => exact .cons (.same node) ih

def Document.Rearranged (document document' : Document) : Prop :=
  NodesRearranged document.children document'.children

end Template

open Template (Document Node NodesRearranged)

namespace Script

mutual

theorem ofNode_of_rearranged : ∀ {node node' : Node}, node.Rearranged node' → ofNode node = ofNode node'
  | _, _, .same _ => rfl
  | _, _, .reordered head collected collected' order inside => by
    rw [ofNode, ofNode, attributeScript_of_reordered collected collected' order, ofNodes_of_rearranged inside]
    cases inside <;> rfl
  | _, _, .tag head attributes inside => by
    rw [ofNode, ofNode, ofNodes_of_rearranged inside]
    cases inside <;> rfl
  | _, _, .idShorthand _ inside | _, _, .classShorthand _ inside | _, _, .collection _ inside
  | _, _, .textLine _ inside => by rw [ofNode, ofNode, ofNodes_of_rearranged inside]
  | _, _, .htmlAttribute _ _ inside => by rw [ofNode, ofNode, ofNodes_of_rearranged inside]
  | _, _, .code _ _ inside => by rw [ofNode, ofNode, ofNodes_of_rearranged inside]

theorem ofNodes_of_rearranged : ∀ {nodes nodes' : List Node}, NodesRearranged nodes nodes' →
    ofNodes nodes = ofNodes nodes'
  | _, _, .nil => rfl
  | _, _, .cons first more => by
    rw [ofNodes, ofNodes, ofNode_of_rearranged first, ofNodes_of_rearranged more]

end

theorem ofDocument_of_rearranged {document document' : Document} (arranged : document.Rearranged document') :
    ofDocument document = ofDocument document' := ofNodes_of_rearranged arranged

end Script

def Memo.Rearranged (memo memo' : Memo) : Prop :=
  List.Forall₂ (fun entry entry' => entry.1 = entry'.1 ∧ entry.2.Rearranged entry'.2) memo.documents memo'.documents

structure Store.Rearranged (store store' : Store) : Prop where
  holds : ∀ path, store.holds path = store'.holds path
  loads : ∀ path, Matched Document.Rearranged (store.loadForView path) (store'.loadForView path)

theorem Store.Rearranged.refl (store : Store) : store.Rearranged store where
  holds _ := rfl
  loads path := by
    cases store.loadForView path with
    | ok document => exact .ok (NodesRearranged.refl document.children)
    | error failure => exact .error failure

structure Context.Rearranged (context context' : Context) : Prop where
  layout : Option.Rel Document.Rearranged context.layout context'.layout
  main : context.main.Rearranged context'.main
  folder : context.folder = context'.folder
  extension : context.extension = context'.extension

section

variable {context context' : Context} {store store' : Store} {memo memo' : Memo}

theorem Memo.Rearranged.find? (memos : memo.Rearranged memo') (path : Path) :
    Option.Rel Document.Rearranged (memo.find? path) (memo'.find? path) := by
  obtain ⟨documents⟩ := memo
  obtain ⟨documents'⟩ := memo'
  simp only [Memo.Rearranged, Memo.find?] at memos ⊢
  induction memos with
  | nil => exact .none
  | @cons entry entry' rest rest' first _ ih =>
    simp only [List.find?_cons, ← first.1]
    cases entry.1.agrees path with
    | true => exact .some first.2
    | false => exact ih

theorem Memo.Rearranged.insert (memos : memo.Rearranged memo') (path : Path) {document document' : Document}
    (documents : document.Rearranged document') :
    (memo.insert path document).Rearranged (memo'.insert path document') :=
  List.rel_append memos (.cons ⟨rfl, documents⟩ .nil)

namespace Context.Rearranged

theorem script_root (contexts : context.Rearranged context') :
    Script.ofDocument context.root = Script.ofDocument context'.root := by
  have layouts := contexts.layout
  simp only [root]
  generalize context.layout = layout, context'.layout = layout' at layouts
  cases layouts with
  | some documents => exact Script.ofDocument_of_rearranged documents
  | none => exact Script.ofDocument_of_rearranged contexts.main

theorem openedAtStart (contexts : context.Rearranged context') :
    Walk.openedAtStart context = Walk.openedAtStart context' := by
  have layouts := contexts.layout
  simp only [Walk.openedAtStart]
  generalize context.layout = layout, context'.layout = layout' at layouts
  cases layouts <;> rfl

theorem partialPath (contexts : context.Rearranged context') (name : String) :
    context.partialPath name = context'.partialPath name := by
  simp only [Context.partialPath, Context.partialFile, contexts.folder, contexts.extension]

theorem resolve (contexts : context.Rearranged context') (stores : store.Rearranged store')
    (memos : memo.Rearranged memo') (name : String) :
    Matched (fun found found' => found.1 = found'.1 ∧ found.2.1.Rearranged found'.2.1 ∧
        found.2.2.Rearranged found'.2.2)
      (context.resolve store memo name) (context'.resolve store' memo' name) := by
  simp only [Context.resolve, ← contexts.partialPath, ← stores.holds]
  generalize context.partialPath name = path
  have remembered := memos.find? path
  generalize memo.find? path = known, memo'.find? path = known' at remembered
  cases remembered with
  | some documents => exact .ok ⟨rfl, documents, memos⟩
  | none =>
    dsimp only
    split
    · exact (stores.loads path).bind fun _ _ documents => .ok ⟨rfl, documents, memos.insert path documents⟩
    · exact .error _

end Context.Rearranged

end

namespace Walk

variable {context context' : Context} {store store' : Store} {memo memo' : Memo}

/-- Only the trees that it pulls in make a step depend on where trees come from. -/
theorem step_of_local {u : Underway} (here : ∀ target rest, u.todo ≠ .carry (.pull target) :: rest) :
    u.step context store = u.step context' store' := by
  obtain ⟨frames, todo, s⟩ := u
  match todo with
  | .carry (.pull target) :: rest => exact absurd rfl (here target rest)
  | [] | .carry (.write _) :: _ | .carry (.print _ _) :: _ | .carry (.choose _ _ _) :: _ | .carry (.otherwise _ _) :: _
  | .carry (.fail _) :: _ | .endChoice _ :: _ | .endOtherwise _ :: _ | .leave :: _ => rfl

section

variable {s found : WalkState} {target : Target} {frame : Frame} {name modelType : String} {later' : Memo}
  {document document' : Document}

theorem pullIn_of_script (located : locate context store target s = .ok (frame, name, document, found))
    (located' : locate context' store' target (s.recast modelType memo') =
      .ok (frame, name, document', found.recast modelType later'))
    (script : Script.ofDocument document = Script.ofDocument document') (frames : List Frame) (rest : List Task) :
    Underway.pullIn context' store' frames target rest (s.recast modelType memo') =
      (Underway.pullIn context store frames target rest s).recast modelType later' := by
  simp only [Underway.pullIn, located, located', script]
  split <;> rfl

end

theorem pullIn_rearranged (contexts : context.Rearranged context') (stores : store.Rearranged store') {s : WalkState}
    (memos : s.memo.Rearranged memo') (modelType : String) (frames : List Frame) (target : Target) (rest : List Task) :
    ∃ later', (Underway.pullIn context store frames target rest s).memo.Rearranged later' ∧
      Underway.pullIn context' store' frames target rest (s.recast modelType memo') =
        (Underway.pullIn context store frames target rest s).recast modelType later' := by
  rw [memo_pullIn]
  cases target with
  | main => exact ⟨memo', memos, pullIn_of_script rfl rfl (Script.ofDocument_of_rearranged contexts.main) frames rest⟩
  | named name =>
    -- Both find the partial, as trees with the same instructions, or fail alike.
    have resolved := contexts.resolve stores memos name
    generalize known : context.resolve store s.memo name = here,
      known' : context'.resolve store' memo' name = there at resolved
    cases resolved with
    | @ok found found' related =>
      obtain ⟨path, document, later⟩ := found
      obtain ⟨_, document', later'⟩ := found'
      obtain ⟨rfl, documents, memos⟩ := related
      have located : locate context store (.named name) s =
          .ok (.file path.components, path.text, document, { s with memo := later }) := by simp only [locate, known]
      refine ⟨later', by rw [located]; exact memos, pullIn_of_script located ?_
        (Script.ofDocument_of_rearranged documents) frames rest⟩
      simp only [locate, WalkState.recast, known']
    | error failure =>
      have located : locate context store (.named name) s = s.fail failure := by simp only [locate, known]
      have located' : locate context' store' (.named name) (s.recast modelType memo') =
          (s.recast modelType memo').fail failure := by simp only [locate, WalkState.recast, known']
      refine ⟨memo', by rw [located]; exact memos, ?_⟩
      simp only [Underway.pullIn, located, located']
      rfl

theorem step_rearranged (contexts : context.Rearranged context') (stores : store.Rearranged store') {stage : Stage}
    (memos : stage.memo.Rearranged memo') (modelType : String) :
    ∃ later', (stage.step context store).memo.Rearranged later' ∧
      (stage.recast modelType memo').step context' store' = (stage.step context store).recast modelType later' := by
  rcases stage with u | result
  · by_cases pulls : ∃ target rest, u.todo = .carry (.pull target) :: rest
    · obtain ⟨frames, todo, s⟩ := u
      obtain ⟨target, rest, rfl⟩ := pulls
      exact pullIn_rearranged contexts stores memos modelType frames target rest
    · simp only [not_exists] at pulls
      refine ⟨memo', ?_, ?_⟩
      · rw [Stage.memo_step_of_local fun modelType memo => step_recast_of_local modelType memo pulls]
        exact memos
      · exact (step_recast_of_local modelType memo' pulls).trans
          (congrArg (Stage.recast modelType memo') (step_of_local pulls))
  · exact ⟨memo', by rcases result with failure | s <;> exact memos, rfl⟩

theorem course_rearranged (contexts : context.Rearranged context') (stores : store.Rearranged store')
    (memos : memo.Rearranged memo') (modelType : String) (sharing : Sharing) (n : Nat) :
    ∃ later', (course context store memo sharing modelType n).memo.Rearranged later' ∧
      course context' store' memo' sharing modelType n =
        (course context store memo sharing modelType n).remembering later' := by
  induction n with
  | zero =>
    refine ⟨memo', memos, ?_⟩
    simp only [course, Function.iterate_zero_apply, beginning, contexts.script_root, contexts.openedAtStart]
    rfl
  | succ n ih =>
    obtain ⟨later', memos, same⟩ := ih
    rw [course_succ, course_succ, same, remembering_course]
    obtain ⟨next', memos, step⟩ := step_rearranged contexts stores memos modelType
    refine ⟨next', memos, step.trans ?_⟩
    rw [← course_succ, remembering_course]

/-- What a walk comes to, whatever it remembers: ops, units and program text, or an error. -/
def outcome : Except WalkFailure Walked → Except CompileError (List Op × UnitTable × String)
  | .ok walked => .ok (walked.ops, walked.units, walked.units.programText)
  | .error failure => .error failure.error

theorem outcome_finish_remembering (s : WalkState) (memo : Memo) :
    outcome (s.remembering memo).finish = outcome s.finish := by
  unfold WalkState.finish WalkState.remembering
  cases s.builder.finish? <;> rfl

theorem outcome_rearranged (contexts : context.Rearranged context') (stores : store.Rearranged store')
    (memos : memo.Rearranged memo') (modelType : String) (sharing : Sharing) :
    outcome (walk context store memo modelType sharing) = outcome (walk context' store' memo' modelType sharing) := by
  obtain ⟨n, result, ended⟩ : ∃ n result, course context store memo sharing modelType n = .ended result :=
    exists_course_ended modelType
  obtain ⟨later', _, ended'⟩ := course_rearranged contexts stores memos modelType sharing n
  rw [ended] at ended'
  cases result with
  | error failure =>
    rw [walk_of_course ended, walk_of_course ended']
    rfl
  | ok s =>
    rw [walk_of_course ended, walk_of_course ended']
    exact (outcome_finish_remembering s later').symm

end Walk

/-- Spreading the attributes of a tag in other ways changes nothing that a walk comes to, if names first appear in the
same order and each name keeps that of its expressions. -/
theorem attributes_merge :
    (∀ {context context' : Context} {store store' : Store} {memo memo' : Memo}, context.Rearranged context' →
      store.Rearranged store' → memo.Rearranged memo' → ∀ (modelType : String) (sharing : Sharing),
        Walk.outcome (walk context store memo modelType sharing) =
          Walk.outcome (walk context' store' memo' modelType sharing)) ∧
    ∀ {attributes : List Node} {found : List Script.Attribute}, Script.attributesOf attributes = .ok found →
      ∃ groups, Script.Groups found groups ∧
        ∀ (head : Template.TagHead) (children : List Node) (enter : Target → WalkState → WalkResult) (s : WalkState),
          Walk.runAll enter (Script.ofNode (.tag head attributes children)) s =
            Walk.runAll enter (Script.closeTag head (!children.isEmpty) (Script.ofNodes children))
              (groups.foldl WalkState.writeGroup (s.write ("<" ++ head.qualifiedName))) :=
  ⟨Walk.outcome_rearranged, Walk.runAll_tag⟩

namespace Paragraph

def head : Template.TagHead := { space := none, name := "p", selfClosing := false, line := 1 }

/-- `%p.b#x.a(class=model.c)` -/
def spread : List Node :=
  [.classShorthand [.htmlAttribute "class" [.text "b" 1] 1] 1, .idShorthand [.htmlAttribute "id" [.text "x" 1] 1] 1,
    .classShorthand [.htmlAttribute "class" [.text "a" 1] 1] 1,
    .collection [.htmlAttribute "class" [.eval "model.c" 1] 1] 1]

/-- `%p.a(class="#{model.c}b" id="x")` -/
def together : List Node :=
  [.classShorthand [.htmlAttribute "class" [.text "a" 1] 1] 1,
    .collection [.htmlAttribute "class" [.textLine [.variable "model.c" 1, .text "b" 1] 1] 1,
      .htmlAttribute "id" [.text "x" 1] 1] 1]

def found : List Script.Attribute :=
  [⟨"class", [.literal "b"]⟩, ⟨"id", [.literal "x"]⟩, ⟨"class", [.literal "a"]⟩, ⟨"class", [.expression "model.c" 1]⟩]

def found' : List Script.Attribute :=
  [⟨"class", [.literal "a"]⟩, ⟨"class", [.expression "model.c" 1, .literal "b"]⟩, ⟨"id", [.literal "x"]⟩]

theorem reordered : Script.Reordered found found' where
  fragments := by decide
  names := by decide
  expressions := by
    intro name
    by_cases inClass : "class" = name <;> by_cases inId : "id" = name <;>
      simp [Script.expressionsUnder, Script.under, Script.fragmentsIn, found, found', inClass, inId,
        List.filterMap, Script.Fragment.expression?]

def context (attributes : List Node) : Context where
  layout := none
  main := { children := [.tag head attributes []] }
  folder := ⟨""⟩
  extension := ""

theorem contexts : (context spread).Rearranged (context together) where
  layout := .none
  main := .cons (.reordered head rfl rfl reordered .nil) .nil
  folder := rfl
  extension := rfl

end Paragraph

open Paragraph in
theorem attributes_merge_paragraph :
    Walk.outcome (walk (context spread) Files.empty.store .empty "Page" .dedupe) =
      Walk.outcome (walk (context together) Files.empty.store .empty "Page" .dedupe) ∧
    ∃ groups, Script.Groups found groups ∧
      ∀ (head : Template.TagHead) (children : List Node) (enter : Target → WalkState → WalkResult) (s : WalkState),
        Walk.runAll enter (Script.ofNode (.tag head spread children)) s =
          Walk.runAll enter (Script.closeTag head (!children.isEmpty) (Script.ofNodes children))
            (groups.foldl WalkState.writeGroup (s.write ("<" ++ head.qualifiedName))) :=
  ⟨attributes_merge.1 contexts (.refl _) .nil "Page" .dedupe, attributes_merge.2 rfl⟩

end Stencil
