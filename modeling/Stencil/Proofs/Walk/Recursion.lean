import Mathlib.Data.List.Chain
import Mathlib.Logic.Relation
import Stencil.Proofs.Script
import Stencil.Proofs.Walk.Stepwise

/-! When trees include each other.

Every tree on the stack has been pulled in by the one below it, and what is still to be done belongs to the tree on
top, up to the task that takes it off. So a tree that is pulled in while its walk is open closes a circle of trees that
include each other, and only such a tree makes a walk fail for recursion.
-/

set_option autoImplicit false

namespace Stencil

namespace Walk

open Stage (Leads Within proceed)
open Template (Document)
open WalkState (Later)

section
variable (context : Context) (store : Store) (memo : Memo)

def Includes (outer inner : Frame) : Prop :=
  ∃ document target, Holds context store memo outer document ∧ target ∈ targetsOf (Script.ofDocument document) ∧
    frameOf context target = inner

/-- An instruction is part of a tree that the frame on top stands for, if there is one. -/
def BelongsTo (frames : List Frame) (instruction : Instruction) : Prop :=
  ∃ document ∈ documents context store memo, (∀ top ∈ frames.head?, Holds context store memo top document) ∧
    instruction.targets ⊆ targetsOf (Script.ofDocument document) ∧
    instruction.failures ⊆ failuresOf (Script.ofDocument document)

/-- Instructions still to be done belong to the tree that is on top when their turn comes. -/
def Owned : List Frame → List Task → Prop
  | _, [] => True
  | frames, .carry instruction :: rest => BelongsTo context store memo frames instruction ∧ Owned frames rest
  | frames, .endChoice _ :: rest => Owned frames rest
  | frames, .endOtherwise _ :: rest => Owned frames rest
  | frames, .leave :: rest => Owned frames.tail rest

end

structure Kept (context : Context) (store : Store) (begun : WalkState) (u : Underway) : Prop where
  distinct : u.frames.Nodup
  known : u.frames ⊆ .main :: (pullable context store begun.memo).map (frameOf context)
  nested : u.frames.IsChain fun inner outer => Includes context store begun.memo outer inner
  owned : Owned context store begun.memo u.frames u.todo
  later : Later store begun u.state

def StageKept (context : Context) (store : Store) (begun : WalkState) : Stage → Prop
  | .underway u => Kept context store begun u
  | .ended _ => True

variable {context : Context} {store : Store} {begun : WalkState} {memo : Memo} {frames : List Frame} {rest : List Task}

theorem owned_tasksOf_append {instructions : List Instruction} :
    Owned context store memo frames (tasksOf instructions ++ rest) ↔
      (∀ instruction ∈ instructions, BelongsTo context store memo frames instruction) ∧
        Owned context store memo frames rest := by
  induction instructions with
  | nil => simp [tasksOf]
  | cons instruction others ih =>
    simp only [tasksOf, List.map_cons, List.cons_append, Owned, List.forall_mem_cons, and_assoc] at ih ⊢
    rw [ih]

theorem BelongsTo.body {instruction part : Instruction} {body : List Instruction}
    (belongs : BelongsTo context store memo frames instruction) (targets : instruction.targets = targetsOf body)
    (failures : instruction.failures = failuresOf body) (member : part ∈ body) :
    BelongsTo context store memo frames part := by
  obtain ⟨document, known, owner, pulls, fails⟩ := belongs
  rw [targets, targetsOf_eq_flatMap] at pulls
  rw [failures, failuresOf_eq_flatMap] at fails
  exact ⟨document, known, owner, fun target mem => pulls (List.mem_flatMap.mpr ⟨part, member, mem⟩),
    fun error mem => fails (List.mem_flatMap.mpr ⟨part, member, mem⟩)⟩

theorem belongsTo_of_mem {document : Document} (known : document ∈ documents context store memo)
    (owner : ∀ top ∈ frames.head?, Holds context store memo top document) :
    ∀ instruction ∈ Script.ofDocument document, BelongsTo context store memo frames instruction := by
  intro instruction member
  refine ⟨document, known, owner, ?_, ?_⟩
  · rw [targetsOf_eq_flatMap]
    exact fun target mem => List.mem_flatMap.mpr ⟨instruction, member, mem⟩
  · rw [failuresOf_eq_flatMap]
    exact fun error mem => List.mem_flatMap.mpr ⟨instruction, member, mem⟩

namespace Kept

variable {todo : List Task} {s : WalkState}

theorem proceed (kept : Kept context store begun { frames, todo, state := s }) (result : WalkResult)
    (owned : Owned context store begun.memo frames rest) (later : ∀ s', result = .ok s' → Later store s s') :
    StageKept context store begun (Stage.proceed frames rest result) := by
  cases result with
  | error failure => trivial
  | ok s' => exact ⟨kept.distinct, kept.known, kept.nested, owned, kept.later.trans (later s' rfl)⟩

theorem pullIn {target : Target}
    (kept : Kept context store begun { frames, todo := .carry (.pull target) :: rest, state := s }) :
    StageKept context store begun (Underway.pullIn context store frames target rest s) := by
  obtain ⟨⟨document, known, owner, pulls, _⟩, owned⟩ := kept.owned
  have pulled : target ∈ targetsOf (Script.ofDocument document) := pulls List.mem_cons_self
  unfold Underway.pullIn
  cases located : locate context store target s with
  | error failure => trivial
  | ok tree =>
    obtain ⟨frame, name, opened, found⟩ := tree
    obtain ⟨rfl, holds, later⟩ := holds_of_locate kept.later located
    dsimp only
    split
    · trivial
    · -- The new tree is included by the one on top, and its instructions belong to it until it is left.
      rename_i closed
      refine ⟨List.nodup_cons.mpr ⟨closed, kept.distinct⟩, List.cons_subset.mpr ⟨?_, kept.known⟩,
        List.isChain_cons.mpr ⟨?_, kept.nested⟩, owned_tasksOf_append.mpr ⟨?_, owned⟩, later⟩
      · cases target with
        | main => exact List.mem_cons_self
        | named partialName =>
          exact List.mem_cons_of_mem _ (List.mem_map_of_mem (List.mem_flatMap.mpr ⟨document, known, pulled⟩))
      · exact fun top member => ⟨document, target, owner top member, pulled, rfl⟩
      · refine belongsTo_of_mem (mem_documents_of_holds holds) ?_
        rintro _ ⟨⟩
        exact holds

theorem step {u : Underway} (kept : Kept context store begun u) :
    StageKept context store begun (u.step context store) := by
  obtain ⟨frames, todo, s⟩ := u
  -- Only pulling a tree in opens a frame, and only leaving it closes one; all other steps keep the frames.
  match todo with
  | [] => trivial
  | .carry (.write text) :: rest =>
    refine kept.proceed (.ok (s.write text)) kept.owned.2 fun _ same => ?_
    cases same
    exact .ofBuilder store s _
  | .carry (.print source line) :: rest =>
    refine kept.proceed (.ok (s.print source line)) kept.owned.2 fun _ same => ?_
    cases same
    exact .ofRegister store s _ source .text line
  | .carry (.choose source line body) :: rest =>
    obtain ⟨belongs, owned⟩ := kept.owned
    refine kept.proceed (.ok (s.condition source line).2.pushScope)
      (owned_tasksOf_append.mpr ⟨fun part => belongs.body rfl rfl, owned⟩) fun _ same => ?_
    cases same
    exact .ofRegister store s s.builder.pushScope source .boolean line
  | .carry (.otherwise line body) :: rest =>
    obtain ⟨belongs, owned⟩ := kept.owned
    simp only [Underway.step]
    split
    · refine kept.proceed (.ok s.pushScope)
        (owned_tasksOf_append.mpr ⟨fun part => belongs.body rfl rfl, owned⟩) fun _ same => ?_
      cases same
      exact .ofBuilder store s _
    · trivial
  | .carry (.pull target) :: rest => exact kept.pullIn
  | .carry (.fail error) :: rest => trivial
  | .endChoice unit :: rest => exact kept.proceed _ kept.owned fun _ => WalkState.later_endChoice
  | .endOtherwise line :: rest => exact kept.proceed _ kept.owned fun _ => WalkState.later_endOtherwise
  | .leave :: rest =>
    refine ⟨kept.distinct.tail, fun frame member => kept.known (List.mem_of_mem_tail member), kept.nested.tail,
      kept.owned, kept.later⟩

end Kept

/-! ### Recursion -/

theorem endChoice_not_recursive {s : WalkState} {unit : Nat} {name : String} {last : Memo} :
    s.endChoice unit ≠ .error ⟨.recursivePartial name, last⟩ := by
  unfold WalkState.endChoice WalkState.popScope
  obtain ⟨builder, popped⟩ := s.builder.popScope
  cases popped <;> simp [bind, Except.bind, WalkState.fail, pure, Except.pure]

theorem endOtherwise_not_recursive {s : WalkState} {line : Nat} {name : String} {last : Memo} :
    s.endOtherwise line ≠ .error ⟨.recursivePartial name, last⟩ := by
  unfold WalkState.endOtherwise WalkState.popScope
  obtain ⟨builder, popped⟩ := s.builder.popScope
  cases popped with
  | none => simp [bind, Except.bind, WalkState.fail]
  | some ops =>
    simp only [bind, Except.bind]
    split <;> simp [WalkState.fail, pure, Except.pure]

theorem locate_not_recursive {s : WalkState} {target : Target} {name : String} {last : Memo} :
    locate context store target s ≠ .error ⟨.recursivePartial name, last⟩ := by
  cases target with
  | main => simp [locate]
  | named partialName =>
    simp only [locate]
    split
    · simp
    · rename_i error resolved
      rintro ⟨⟩
      cases Context.isOfFiles_of_resolve resolved

theorem proceed_eq_ended_error_iff {result : WalkResult} {failure : WalkFailure} :
    proceed frames rest result = .ended (.error failure) ↔ result = .error failure := by
  cases result <;> simp [proceed]

/-- A step fails for recursion only where a directive leads to a tree whose walk is open. -/
theorem open_of_recursive {u : Underway} (kept : Kept context store begun u) {name : String} {last : Memo}
    (fails : u.step context store = .ended (.error ⟨.recursivePartial name, last⟩)) :
    ∃ target rest document found, u.todo = .carry (.pull target) :: rest ∧
      locate context store target u.state = .ok (frameOf context target, name, document, found) ∧
      frameOf context target ∈ u.frames := by
  obtain ⟨frames, todo, s⟩ := u
  match todo with
  | [] => cases fails
  | .carry (.write text) :: rest => cases fails
  | .carry (.print source line) :: rest => cases fails
  | .carry (.choose source line body) :: rest => cases fails
  | .carry (.otherwise line body) :: rest =>
    simp only [Underway.step] at fails
    split at fails <;> cases fails
  | .carry (.pull target) :: rest =>
    simp only [Underway.step, Underway.pullIn] at fails
    split at fails
    · rename_i failure located
      cases fails
      exact absurd located locate_not_recursive
    · rename_i frame shown document found located
      obtain ⟨rfl, _, _⟩ := holds_of_locate kept.later located
      split at fails
      · rename_i open_
        cases fails
        exact ⟨target, rest, document, found, rfl, located, open_⟩
      · cases fails
  | .carry (.fail error) :: rest =>
    -- The failures of a script are those of its tree.
    cases fails
    obtain ⟨⟨document, _, _, _, failures⟩, _⟩ := kept.owned
    cases Script.isOfFiles_ofNodes document.children _ (failures List.mem_cons_self)
  | .endChoice unit :: rest => exact absurd (proceed_eq_ended_error_iff.mp fails) endChoice_not_recursive
  | .endOtherwise line :: rest => exact absurd (proceed_eq_ended_error_iff.mp fails) endOtherwise_not_recursive
  | .leave :: rest => cases fails

/-- A tree on the stack includes the one on top, through the trees between them. -/
theorem transGen_of_mem {top frame : Frame} {others : List Frame}
    (nested : (top :: others).IsChain fun inner outer => Includes context store memo outer inner)
    (member : frame ∈ others) : Relation.TransGen (Includes context store memo) frame top := by
  have chain : (top :: others).IsChain (Relation.TransGen fun inner outer => Includes context store memo outer inner) :=
    nested.imp fun _ _ => .single
  have below := (List.pairwise_cons.mp (List.isChain_iff_pairwise.mp chain)).1 frame member
  exact Relation.transGen_swap.mp below

/-- A directive that leads to an open tree closes a circle. -/
theorem circle_of_open {target : Target} {s : WalkState}
    (kept : Kept context store begun { frames, todo := .carry (.pull target) :: rest, state := s })
    (open_ : frameOf context target ∈ frames) :
    ∃ frame, Relation.TransGen (Includes context store begun.memo) frame frame := by
  obtain ⟨⟨document, _, owner, pulls, _⟩, _⟩ := kept.owned
  cases frames with
  | nil => cases open_
  | cons top others =>
    have includes : Includes context store begun.memo top (frameOf context target) :=
      ⟨document, target, owner top rfl, pulls List.mem_cons_self, rfl⟩
    rcases List.mem_cons.mp open_ with same | below
    · exact ⟨top, .single (same ▸ includes)⟩
    · exact ⟨top, .head includes (transGen_of_mem kept.nested below)⟩

/-- A directive that is next is carried out, by steps that leave the trees below it open. -/
theorem Kept.comesTo {u : Underway} (kept : Kept context store begun u) {target : Target}
    (next : u.todo = .carry (.pull target) :: rest) :
    ComesTo context store u.frames rest (.underway u)
      (enter context store ((pullable context store begun.memo).length + 2) u.frames target u.state) := by
  obtain ⟨frames, todo, s⟩ := u
  cases next
  obtain ⟨⟨document, known, _, pulls, _⟩, _⟩ := kept.owned
  have room : Room context store begun.memo frames ((pullable context store begun.memo).length + 2) :=
    ⟨kept.distinct, kept.known, by omega⟩
  exact enter_follows _ frames room target rest s
    (List.mem_flatMap.mpr ⟨document, known, pulls List.mem_cons_self⟩) kept.later

/-! ### Whole walks -/

theorem kept_beginning (context : Context) (store : Store) (memo : Memo) (modelType : String) (sharing : Sharing) :
    StageKept context store (.start modelType sharing memo) (beginning context memo modelType sharing) := by
  have root : context.root ∈ documents context store memo := List.mem_cons_self
  have owned (owner : ∀ top ∈ (openedAtStart context).head?, Holds context store memo top context.root) :
      Owned context store memo (openedAtStart context) (tasksOf (Script.ofDocument context.root)) := by
    rw [← List.append_nil (tasksOf _)]
    exact owned_tasksOf_append.mpr ⟨belongsTo_of_mem root owner, trivial⟩
  unfold openedAtStart at owned
  unfold beginning openedAtStart
  cases layout : context.layout with
  | some document =>
    simp only [layout] at owned
    exact ⟨List.nodup_nil, List.nil_subset _, .nil, owned (by simp), .refl store _⟩
  | none =>
    simp only [layout] at owned
    refine ⟨List.pairwise_singleton _ _, by simp, .singleton _, owned ?_, .refl store _⟩
    -- Without a layout the main template is the root, and it is open from the beginning.
    rintro _ ⟨⟩
    simp [Holds, Context.root, layout]

/-- The bounded walk and the steps come to the same. -/
theorem leads_to_result (context : Context) (store : Store) (memo : Memo) (modelType : String) (sharing : Sharing) :
    Leads context store (fun _ => True) (beginning context memo modelType sharing)
      (.ended (runAll (enter context store (depthBound context store memo) (openedAtStart context))
        (Script.ofDocument context.root) (.start modelType sharing memo))) := by
  have kept : Kept context store (.start modelType sharing memo) _ :=
    kept_beginning context store memo modelType sharing
  have room : Room context store memo (openedAtStart context) (depthBound context store memo) := by
    refine ⟨kept.distinct, kept.known, ?_⟩
    simp only [depthBound, pullable]
    omega
  have targets : targetsOf (Script.ofDocument context.root) ⊆ pullable context store memo :=
    fun target member => List.mem_flatMap.mpr ⟨context.root, List.mem_cons_self, member⟩
  have comes := runAll_comesTo (enter_follows _ _ room) (Script.ofDocument context.root) [] _ targets
    (Later.refl store (.start modelType sharing memo))
  rw [List.append_nil] at comes
  refine (comes.mono fun _ _ => trivial).trans ?_
  cases runAll (enter context store (depthBound context store memo) (openedAtStart context))
      (Script.ofDocument context.root) (.start modelType sharing memo) with
  | ok s => exact .single trivial trivial
  | error failure => exact .here trivial

theorem eq_of_leads_ended {P : Stage → Prop} {result : WalkResult} {last : Stage}
    (leads : Leads context store P (.ended result) last) : last = .ended result := by
  generalize same : Stage.ended result = first at leads
  induction leads with
  | here _ => rfl
  | step _ _ ih =>
    subst same
    exact ih rfl

theorem exists_last_step {P : Stage → Prop} {first last : Stage} (leads : Leads context store P first last) :
    ∀ {u : Underway} {result : WalkResult}, first = .underway u → last = .ended result →
      ∃ v, Leads context store P (.underway u) (.underway v) ∧ v.step context store = .ended result := by
  induction leads with
  | here _ =>
    rintro u result rfl ⟨⟩
  | @step stage last holds onward ih =>
    rintro u result rfl rfl
    cases next : Stage.step context store (.underway u) with
    | ended other =>
      rw [next] at onward
      cases eq_of_leads_ended onward
      exact ⟨u, .here holds, next⟩
    | underway v =>
      obtain ⟨w, leads, ends⟩ := ih next rfl
      exact ⟨w, .step holds (next ▸ leads), ends⟩

theorem error_of_finish {s : WalkState} {name : String} {last : Memo} :
    s.finish ≠ .error ⟨.recursivePartial name, last⟩ := by
  unfold WalkState.finish
  split <;> simp [WalkState.fail]

end Walk

open Walk in
/-- Every walk comes to its end by steps without a bound, with different trees open all the way, and fails for
recursion only at a directive that leads to a tree that is still open. -/
theorem walk_stepwise (context : Context) (store : Store) (memo : Memo) (modelType : String) (sharing : Sharing) :
    (∃ result, Stage.Leads context store (fun _ => True) (beginning context memo modelType sharing) (.ended result) ∧
      walk context store memo modelType sharing = result.bind WalkState.finish) ∧
    (∀ u, Stage.Leads context store (fun _ => True) (beginning context memo modelType sharing) (.underway u) →
      u.frames.Nodup ∧ ∀ target rest, u.todo = .carry (.pull target) :: rest →
        ∃ result, ComesTo context store u.frames rest (.underway u) result) ∧
    (∀ name last, walk context store memo modelType sharing = .error ⟨.recursivePartial name, last⟩ →
      ∃ u target rest document found,
        Stage.Leads context store (fun _ => True) (beginning context memo modelType sharing) (.underway u) ∧
        u.todo = .carry (.pull target) :: rest ∧
        locate context store target u.state = .ok (frameOf context target, name, document, found) ∧
        frameOf context target ∈ u.frames) ∧
    ((∀ frame, ¬ Relation.TransGen (Includes context store memo) frame frame) →
      ∀ name last, walk context store memo modelType sharing ≠ .error ⟨.recursivePartial name, last⟩) := by
  have begins := kept_beginning context store memo modelType sharing
  have kept {u : Underway}
      (leads : Stage.Leads context store (fun _ => True) (beginning context memo modelType sharing) (.underway u)) :
      Kept context store (.start modelType sharing memo) u := by
    refine leads.invariant (Q := StageKept context store (.start modelType sharing memo)) (fun stage kept => ?_) begins
    cases stage with
    | underway v => exact kept.step
    | ended result => trivial
  have ends := leads_to_result context store memo modelType sharing
  have recursion (name : String) (last : Memo)
      (fails : walk context store memo modelType sharing = .error ⟨.recursivePartial name, last⟩) :
      ∃ u target rest document found,
        Stage.Leads context store (fun _ => True) (beginning context memo modelType sharing) (.underway u) ∧
        u.todo = .carry (.pull target) :: rest ∧
        locate context store target u.state = .ok (frameOf context target, name, document, found) ∧
        frameOf context target ∈ u.frames := by
    simp only [walk] at fails
    cases ran : runAll (enter context store (depthBound context store memo) (openedAtStart context))
        (Script.ofDocument context.root) (.start modelType sharing memo) with
    | ok s =>
      rw [ran] at fails
      exact absurd fails error_of_finish
    | error failure =>
      rw [ran] at fails ends
      cases fails
      -- The step that fails carries out a directive to a tree that is open.
      obtain ⟨u, leads, step⟩ := exists_last_step ends rfl rfl
      obtain ⟨target, rest, document, found, next, located, open_⟩ := open_of_recursive (kept leads) step
      exact ⟨u, target, rest, document, found, leads, next, located, open_⟩
  refine ⟨⟨_, ends, rfl⟩, fun u leads => ⟨(kept leads).distinct, ?_⟩, recursion, fun acyclic name last fails => ?_⟩
  · rintro target rest next
    exact ⟨_, (kept leads).comesTo next⟩
  · obtain ⟨u, target, rest, document, found, leads, next, _, open_⟩ := recursion name last fails
    obtain ⟨frames, todo, s⟩ := u
    cases next
    obtain ⟨frame, circle⟩ := circle_of_open (kept leads) open_
    exact acyclic frame circle

namespace Walk

def circular : Context where
  layout := none
  main := ⟨[.directive "yield" 1]⟩
  folder := ⟨"views"⟩
  extension := "haml"

theorem script_circular : Script.ofDocument circular.main = [.pull .main] := rfl

theorem walk_circular : walk circular Files.empty.store .empty "Page" .dedupe =
    .error ⟨.recursivePartial "yield", .empty⟩ := by
  obtain ⟨depth, bound⟩ : ∃ depth, depthBound circular Files.empty.store .empty = depth + 1 := ⟨_, rfl⟩
  have root : Script.ofDocument circular.root = [.pull .main] := script_circular
  have opened : openedAtStart circular = [.main] := rfl
  simp only [walk, root, bound, opened, runAll_singleton, run, enter, locate, bind, Except.bind, List.mem_singleton,
    if_true, WalkState.fail, WalkState.start]

/-- No tree of the greeting includes the main template or a file: the layout, which does, is no tree that could be
included itself. -/
theorem not_includes_greeting (outer inner : Frame) :
    ¬ Includes Recital.Greeting.context Files.empty.store .empty outer inner := by
  rintro ⟨document, target, holds, member, _⟩
  cases outer with
  | main =>
    rw [show document = Recital.Greeting.context.main from holds, Recital.Greeting.script_main] at member
    cases member
  | file components =>
    obtain ⟨path, _, found | ⟨_, loaded⟩⟩ := holds
    · cases found
    · cases loaded

end Walk

open Walk in
theorem walk_stepwise_greeting :
    (∀ name last, walk Recital.Greeting.context Files.empty.store .empty "Page" .dedupe ≠
      .error ⟨.recursivePartial name, last⟩) ∧
    ∃ u : Underway, Stage.Leads circular Files.empty.store (fun _ => True)
      (beginning circular .empty "Page" .dedupe) (.underway u) ∧ ∃ target, frameOf circular target ∈ u.frames := by
  refine ⟨(walk_stepwise Recital.Greeting.context Files.empty.store .empty "Page" .dedupe).2.2.2 ?_, ?_⟩
  · intro frame circle
    obtain ⟨_, includes⟩ := Relation.TransGen.head'_iff.mp circle
    exact not_includes_greeting _ _ includes.1
  · obtain ⟨u, target, _, _, _, leads, _, _, open_⟩ :=
      (walk_stepwise circular Files.empty.store .empty "Page" .dedupe).2.2.1 _ _ walk_circular
    exact ⟨u, leads, target, open_⟩

end Stencil
