import Mathlib.Logic.Function.Iterate
import Stencil.Proofs.Recital.View
import Stencil.Proofs.Splice.Script
import Stencil.Proofs.Walk.Steps

/-! Layouts and partials are put together by splicing.

A walk that succeeds has found the tree of every directive it came to, and remembers it at its end. With these trees
in place of the directives, and again in place of the directives of those trees, a single document comes about that
leads nowhere else. A walk of it does what the first walk did, without a store and with nothing remembered.
-/

set_option autoImplicit false

namespace Stencil

open Template (Document)

namespace WalkState

def remembering (s : WalkState) (memo : Memo) : WalkState := { s with memo }

/-- From `s` to `s'` a walk does what `again` does in the light of any later documents, whatever is remembered
there. -/
structure Settles (store : Store) (again : Memo → WalkState → WalkResult) (s s' : WalkState) : Prop where
  later : Later store s s'
  same : ∀ t, Later store s' t → ∀ memo, again t.memo (s.remembering memo) = .ok (s'.remembering memo)

variable {store : Store} {s s' inner after : WalkState}

theorem Settles.andThen {again next : Memo → WalkState → WalkResult} (first : Settles store again s inner)
    (second : Settles store next inner after) :
    Settles store (fun final s => (again final s).bind (next final)) s after := by
  refine ⟨first.later.trans second.later, fun t later memo => ?_⟩
  simp only [first.same t (second.later.trans later) memo, Except.bind, second.same t later memo]

theorem endChoice_remembering {unit : Nat} (ends : s.endChoice unit = .ok after) (memo : Memo) :
    (s.remembering memo).endChoice unit = .ok (after.remembering memo) := by
  obtain ⟨builder, ops, popped, rfl⟩ := endChoice_eq_ok_iff.mp ends
  exact endChoice_eq_ok_iff.mpr ⟨builder, ops, popped, rfl⟩

theorem endOtherwise_remembering {line : Nat} (ends : s.endOtherwise line = .ok after) (memo : Memo) :
    (s.remembering memo).endOtherwise line = .ok (after.remembering memo) := by
  obtain ⟨builder, ops, attached, popped, attach, rfl⟩ := endOtherwise_eq_ok_iff.mp ends
  exact endOtherwise_eq_ok_iff.mpr ⟨builder, ops, attached, popped, attach, rfl⟩

theorem later_endChoice {unit : Nat} (ends : s.endChoice unit = .ok after) : Later store s after := by
  obtain ⟨builder, ops, _, rfl⟩ := endChoice_eq_ok_iff.mp ends
  exact .ofBuilder store s _

theorem later_endOtherwise {line : Nat} (ends : s.endOtherwise line = .ok after) : Later store s after := by
  obtain ⟨builder, ops, attached, _, _, rfl⟩ := endOtherwise_eq_ok_iff.mp ends
  exact .ofBuilder store s _

end WalkState

namespace Walk

open WalkState (Later Settles)

section
variable {store : Store} {enter : Target → WalkState → WalkResult} {again : Memo → Target → WalkState → WalkResult}

mutual

theorem run_settles
    (law : ∀ target s s', enter target s = .ok s' → Settles store (fun final => again final target) s s') :
    ∀ (instruction : Instruction) {s s' : WalkState}, run enter instruction s = .ok s' →
      Settles store (fun final => run (again final) instruction) s s'
  | .write text, s, s', ran => by
    simp only [run, Except.ok.injEq] at ran
    subst ran
    exact ⟨.ofBuilder store s _, fun _ _ _ => rfl⟩
  | .print source line, s, s', ran => by
    simp only [run, Except.ok.injEq] at ran
    subst ran
    exact ⟨.ofRegister store s _ source .text line, fun _ _ _ => rfl⟩
  | .choose source line body, s, s', ran => by
    obtain ⟨inner, ran, ends⟩ := run_choose_eq_ok_iff.mp ran
    have inside := runAll_settles law body ran
    -- The body settles for every state that is later than its own end, as the end of the choice is.
    have opened : Later store s inner :=
      (Later.ofRegister store s s.builder.pushScope source .boolean line).trans inside.later
    refine ⟨opened.trans (WalkState.later_endChoice ends), fun t later memo => run_choose_eq_ok_iff.mpr ?_⟩
    exact ⟨_, inside.same t ((WalkState.later_endChoice ends).trans later) memo,
      WalkState.endChoice_remembering ends memo⟩
  | .otherwise line body, s, s', ran => by
    obtain ⟨attachable, inner, ran, ends⟩ := run_otherwise_eq_ok_iff.mp ran
    have inside := runAll_settles law body ran
    have opened : Later store s inner := (Later.ofBuilder store s _).trans inside.later
    refine ⟨opened.trans (WalkState.later_endOtherwise ends), fun t later memo => run_otherwise_eq_ok_iff.mpr ?_⟩
    exact ⟨attachable, _, inside.same t ((WalkState.later_endOtherwise ends).trans later) memo,
      WalkState.endOtherwise_remembering ends memo⟩
  | .pull target, s, s', ran => by
    simp only [run] at ran ⊢
    exact law target s s' ran
  | .fail error, s, s', ran => by simp [run, WalkState.fail] at ran

theorem runAll_settles
    (law : ∀ target s s', enter target s = .ok s' → Settles store (fun final => again final target) s s') :
    ∀ (instructions : List Instruction) {s s' : WalkState}, runAll enter instructions s = .ok s' →
      Settles store (fun final => runAll (again final) instructions) s s'
  | [], s, s', ran => by
    simp only [runAll, Except.ok.injEq] at ran
    subst ran
    exact ⟨.refl store s, fun _ _ _ => rfl⟩
  | instruction :: rest, s, s', ran => by
    obtain ⟨next, first, others⟩ := runAll_cons_eq_ok_iff.mp ran
    exact (run_settles law instruction first).andThen (runAll_settles law rest others)

end

end

/-- Entering a tree as far as it is spelled out: its instructions are carried out with the trees in it entered one
level less, and at the last level with `enter`. -/
def spelledOut (scripts : Target → List Instruction) (enter : Target → WalkState → WalkResult) :
    Nat → Target → WalkState → WalkResult
  | 0 => enter
  | levels + 1 => fun target => runAll (spelledOut scripts enter levels) (scripts target)

theorem runAll_inlineAll_iterate (scripts : Target → List Instruction) (enter : Target → WalkState → WalkResult)
    (levels : Nat) (instructions : List Instruction) :
    runAll enter ((inlineAll scripts)^[levels] instructions) =
      runAll (spelledOut scripts enter levels) instructions := by
  induction levels generalizing instructions with
  | zero => rfl
  | succ levels ih =>
    rw [Function.iterate_succ_apply, ih, funext (runAll_inlineAll _ scripts instructions)]
    rfl

theorem units_of_locate {context : Context} {store : Store} {target : Target} {s found : WalkState} {frame : Frame}
    {name : String} {document : Document} (located : locate context store target s = .ok (frame, name, document, found))
    (memo : Memo) : found.remembering memo = s.remembering memo := by
  cases target with
  | main =>
    simp only [locate, Except.ok.injEq, Prod.mk.injEq] at located
    obtain ⟨_, _, _, rfl⟩ := located
    rfl
  | named partialName =>
    simp only [locate] at located
    split at located
    · cases located
      rfl
    · cases located

/-- A tree that has been entered is spelled out in as many levels as trees were opened inside each other. -/
theorem enter_settles {context : Context} {store : Store} (last : Target → WalkState → WalkResult) (more depth : Nat) :
    ∀ (opened : List Frame) (target : Target) (s s' : WalkState), enter context store depth opened target s = .ok s' →
      Settles store
        (fun final => spelledOut (pulledScript (Recital.tree? context final)) last (depth + more) target) s s' := by
  -- By the trees that may still be opened, each of which is one level of spelling out.
  induction depth with
  | zero =>
    intro opened target s s' entered
    obtain ⟨less, impossible, _⟩ := enter_eq_ok_iff.mp entered
    cases impossible
  | succ depth ih =>
    intro opened target s s' entered
    obtain ⟨_, ⟨⟩, frame, name, document, found, located, _, ran⟩ := enter_eq_ok_iff.mp entered
    obtain ⟨later, _, known⟩ := locate_ok located
    have inside := runAll_settles (ih (frame :: opened)) _ ran
    refine ⟨later.trans inside.later, fun t later' memo => ?_⟩
    have tree := known t (inside.later.trans later')
    have again := inside.same t later' memo
    rw [units_of_locate located] at again
    rw [Nat.add_right_comm]
    simpa only [spelledOut, pulledScript, tree] using again

mutual

theorem targets_of_run {enter : Target → WalkState → WalkResult} (closed : ∀ target s s', enter target s ≠ .ok s') :
    ∀ (instruction : Instruction) {s s' : WalkState}, run enter instruction s = .ok s' → instruction.targets = []
  | .write _, _, _, _ | .print _ _, _, _, _ | .fail _, _, _, _ => rfl
  | .choose source line body, s, s', ran => by
    obtain ⟨_, ran, _⟩ := run_choose_eq_ok_iff.mp ran
    exact targetsOf_of_runAll closed body ran
  | .otherwise line body, s, s', ran => by
    obtain ⟨_, _, ran, _⟩ := run_otherwise_eq_ok_iff.mp ran
    exact targetsOf_of_runAll closed body ran
  | .pull target, s, s', ran => by
    simp only [run] at ran
    exact absurd ran (closed target s s')

/-- Where no tree can be entered, instructions that are carried out pull in nothing. -/
theorem targetsOf_of_runAll {enter : Target → WalkState → WalkResult}
    (closed : ∀ target s s', enter target s ≠ .ok s') :
    ∀ (instructions : List Instruction) {s s' : WalkState}, runAll enter instructions s = .ok s' →
      targetsOf instructions = []
  | [], _, _, _ => rfl
  | instruction :: rest, s, s', ran => by
    obtain ⟨next, first, others⟩ := runAll_cons_eq_ok_iff.mp ran
    rw [targetsOf, targets_of_run closed instruction first, targetsOf_of_runAll closed rest others]
    rfl

end

end Walk

/-- The root tree with other trees put in place of directives some number of times. A directive for the main template
is replaced by that, and one for a partial by the document remembered for it. -/
def Context.spliced (context : Context) (memo : Memo) (times : Nat) : Document :=
  (Document.splice (Recital.tree? context memo))^[times] context.root

theorem Context.script_spliced (context : Context) (memo : Memo) (times : Nat) :
    Script.ofDocument (context.spliced memo times) =
      (inlineAll (pulledScript (Recital.tree? context memo)))^[times] (Script.ofDocument context.root) :=
  Function.Semiconj.iterate_right (Script.ofDocument_splice _) times context.root

/-- Where a walk succeeds, its trees can be spliced until no directive is left, and the single document is walked to
the same ops, units and program text, whatever store there is. -/
theorem walk_spliced {context : Context} {store : Store} {memo : Memo} {modelType : String} {sharing : Sharing}
    {walked : Walked} (walks : walk context store memo modelType sharing = .ok walked) :
    (∃ times, targetsOf (Script.ofDocument (context.spliced walked.memo times)) = []) ∧
    ∀ times, targetsOf (Script.ofDocument (context.spliced walked.memo times)) = [] →
      ∀ (folder : Path) (extension : String) (other : Store) (early : Memo),
        walk { layout := none, main := context.spliced walked.memo times, folder, extension } other early modelType
          sharing = .ok { walked with memo := early } := by
  obtain ⟨s, ops, ran, finished, rfl⟩ := walk_eq_ok_iff.mp walks
  have spelled (last : Target → WalkState → WalkResult) (more : Nat) (early : Memo) :
      Walk.runAll last (Script.ofDocument (context.spliced s.memo (Walk.depthBound context store memo + more)))
        (.start modelType sharing early) = .ok (s.remembering early) := by
    rw [Context.script_spliced, Walk.runAll_inlineAll_iterate]
    exact (Walk.runAll_settles (Walk.enter_settles last more _ _) _ ran).same s (.refl store s) early
  constructor
  · exact ⟨_, Walk.targetsOf_of_runAll (fun _ s _ => by simp [WalkState.fail])
      _ (spelled (fun _ s => s.fail (.elseWithoutIf 0)) 0 .empty)⟩
  · intro times closed folder extension other early
    -- Splicing a document that leads nowhere else once more changes none of its instructions.
    have settled : Script.ofDocument (context.spliced s.memo (Walk.depthBound context store memo + times)) =
        Script.ofDocument (context.spliced s.memo times) := by
      rw [Context.script_spliced, Function.iterate_add_apply, ← Context.script_spliced]
      exact Function.iterate_fixed (inlineAll_of_targetsOf _ _ closed) _
    refine walk_eq_ok_iff.mpr ⟨s.remembering early, ops, ?_, finished, rfl⟩
    have again := spelled (Walk.enter { layout := none, main := context.spliced s.memo times, folder, extension } other
      (Walk.depthBound { layout := none, main := context.spliced s.memo times, folder, extension } other early)
      (Walk.openedAtStart { layout := none, main := context.spliced s.memo times, folder, extension })) times early
    rwa [settled] at again

namespace Recital.Greeting

theorem script_spliced : Script.ofDocument (context.spliced walked.memo 1) =
    [.write "<", .choose "model.ok" 1 [.write "yes"], .otherwise 3 [.print "model.name" 4]] := by
  rw [Context.script_spliced, Function.iterate_one, script_root]
  simp [inlineAll, Instruction.inline, pulledScript, Recital.tree?, script_main]

theorem targetsOf_spliced : targetsOf (Script.ofDocument (context.spliced walked.memo 1)) = [] := by
  rw [script_spliced]
  rfl

end Recital.Greeting

open Recital.Greeting in
theorem walk_spliced_greeting :
    walk { layout := none, main := context.spliced walked.memo 1, folder := ⟨""⟩, extension := "" } Files.empty.store
      .empty "Page" Options.standard.sharing = .ok { walked with memo := .empty } :=
  (walk_spliced walk_eq).2 1 targetsOf_spliced ⟨""⟩ "" Files.empty.store .empty

end Stencil
