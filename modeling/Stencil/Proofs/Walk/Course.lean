import Mathlib.Logic.Function.Iterate
import Stencil.Proofs.Walk.Recursion

/-! Walks that share what they remember.

The walks of one view go over the same trees, each for a type of model of its own, and all of them look up partials in
one memo. They take the same steps. The first walk that comes to a partial reads it, and the others find what it has
read, so that the memo is always what the walk that has come furthest would remember by itself.
-/

set_option autoImplicit false

namespace Stencil

open Template (Document)

def WalkState.recast (s : WalkState) (modelType : String) (memo : Memo) : WalkState :=
  { s with units := { s.units with modelType }, memo }

namespace Walk

def recastResult (modelType : String) (memo : Memo) : WalkResult → WalkResult
  | .ok s => .ok (s.recast modelType memo)
  | .error failure => .error { failure with memo }

def recastTree (modelType : String) (memo : Memo) :
    Except WalkFailure (Frame × String × Document × WalkState) →
      Except WalkFailure (Frame × String × Document × WalkState)
  | .ok (frame, name, document, found) => .ok (frame, name, document, found.recast modelType memo)
  | .error failure => .error { failure with memo }

def memoOfTree : Except WalkFailure (Frame × String × Document × WalkState) → Memo
  | .ok (_, _, _, found) => found.memo
  | .error failure => failure.memo

end Walk

namespace Stage

open Walk (recastResult)

def memo : Stage → Memo
  | .underway u => u.state.memo
  | .ended (.ok s) => s.memo
  | .ended (.error failure) => failure.memo

def recast (modelType : String) (memo : Memo) : Stage → Stage
  | .underway u => .underway { u with state := u.state.recast modelType memo }
  | .ended result => .ended (recastResult modelType memo result)

def remembering (memo : Memo) : Stage → Stage
  | .underway u => .underway { u with state := u.state.remembering memo }
  | .ended (.ok s) => .ended (.ok (s.remembering memo))
  | .ended (.error failure) => .ended (.error { failure with memo })

variable (modelType other : String) (earlier later : Memo) (stage : Stage)

@[simp] theorem memo_recast : (stage.recast modelType later).memo = later := by
  rcases stage with u | (_ | _) <;> rfl

@[simp] theorem memo_remembering : (stage.remembering later).memo = later := by
  rcases stage with u | (_ | _) <;> rfl

@[simp] theorem recast_recast :
    (stage.recast modelType earlier).recast other later = stage.recast other later := by
  rcases stage with u | (_ | _) <;> rfl

@[simp] theorem remembering_recast :
    (stage.recast modelType earlier).remembering later = stage.recast modelType later := by
  rcases stage with u | (_ | _) <;> rfl

@[simp] theorem remembering_remembering : (stage.remembering earlier).remembering later = stage.remembering later := by
  rcases stage with u | (_ | _) <;> rfl

theorem recast_proceed (frames : List Frame) (todo : List Task) (result : WalkResult) :
    (proceed frames todo result).recast modelType later =
      proceed frames todo (recastResult modelType later result) := by
  cases result <;> rfl

end Stage

namespace Walk

variable (modelType : String) (memo : Memo) (s : WalkState)

theorem endChoice_recast (unit : Nat) :
    (s.recast modelType memo).endChoice unit = recastResult modelType memo (s.endChoice unit) := by
  rcases popped : s.builder.popScope with ⟨builder, _ | ops⟩ <;>
    simp [WalkState.endChoice, WalkState.popScope, WalkState.recast, recastResult, WalkState.fail, popped, bind,
      Except.bind, pure, Except.pure]

theorem endOtherwise_recast (line : Nat) :
    (s.recast modelType memo).endOtherwise line = recastResult modelType memo (s.endOtherwise line) := by
  rcases popped : s.builder.popScope with ⟨builder, _ | ops⟩
  · simp [WalkState.endOtherwise, WalkState.popScope, WalkState.recast, recastResult, WalkState.fail, popped, bind,
      Except.bind]
  · cases attached : builder.attachElse? ops <;>
      simp [WalkState.endOtherwise, WalkState.popScope, WalkState.recast, recastResult, WalkState.fail, popped,
        attached, bind, Except.bind, pure, Except.pure]

theorem register_recast (units : UnitTable) (source : String) (kind : ReturnKind) (line : Nat) :
    ({ units with modelType } : UnitTable).register source kind line =
      ((units.register source kind line).1, { (units.register source kind line).2 with modelType }) := by
  obtain ⟨_, sharing, units⟩ := units
  cases sharing with
  | perSite => rfl
  | dedupe =>
    simp only [UnitTable.register, UnitTable.find?]
    split <;> rfl

variable {context : Context} {store : Store}

theorem step_recast_of_local {u : Underway} (here : ∀ target rest, u.todo ≠ .carry (.pull target) :: rest) :
    Underway.step context store { u with state := u.state.recast modelType memo } =
      (u.step context store).recast modelType memo := by
  obtain ⟨frames, todo, s⟩ := u
  match todo with
  | [] => rfl
  | .carry (.write text) :: rest => rfl
  | .carry (.print source line) :: rest =>
    simp only [Underway.step, WalkState.print, WalkState.recast, register_recast]
    rfl
  | .carry (.choose source line body) :: rest =>
    simp only [Underway.step, WalkState.condition, WalkState.recast, register_recast]
    rfl
  | .carry (.otherwise line body) :: rest =>
    have builder : (s.recast modelType memo).builder = s.builder := rfl
    simp only [Underway.step, builder]
    split <;> rfl
  | .carry (.pull target) :: rest => exact absurd rfl (here target rest)
  | .carry (.fail error) :: rest => rfl
  | .endChoice unit :: rest =>
    simp only [Underway.step, endChoice_recast, Stage.recast_proceed]
  | .endOtherwise line :: rest =>
    simp only [Underway.step, endOtherwise_recast, Stage.recast_proceed]
  | .leave :: rest => rfl

/-! ### Directives -/

theorem pullIn_recast {target : Target} {frames : List Frame} {rest : List Task} {next : Memo}
    (found : locate context store target (s.recast modelType memo) =
      recastTree modelType next (locate context store target s)) :
    Underway.pullIn context store frames target rest (s.recast modelType memo) =
      (Underway.pullIn context store frames target rest s).recast modelType next := by
  simp only [Underway.pullIn, found]
  rcases locate context store target s with failure | ⟨frame, name, document, after⟩
  · rfl
  · by_cases open_ : frame ∈ frames
    · simp only [recastTree, if_pos open_]
      rfl
    · simp only [recastTree, if_neg open_]
      rfl

theorem memo_pullIn (context : Context) (store : Store) (s : WalkState) (target : Target) (frames : List Frame)
    (rest : List Task) :
    (Underway.pullIn context store frames target rest s).memo = memoOfTree (locate context store target s) := by
  simp only [Underway.pullIn]
  rcases locate context store target s with failure | ⟨frame, name, document, after⟩
  · rfl
  · by_cases open_ : frame ∈ frames
    · simp only [if_pos open_]
      rfl
    · simp only [if_neg open_]
      rfl

theorem locate_recast_same (target : Target) :
    locate context store target (s.recast modelType s.memo) =
      recastTree modelType (memoOfTree (locate context store target s)) (locate context store target s) := by
  cases target with
  | main => rfl
  | named name =>
    have memo : (s.recast modelType s.memo).memo = s.memo := rfl
    simp only [locate, memo]
    rcases context.resolve store s.memo name with error | ⟨path, document, after⟩ <;> rfl

/-- A tree that has been found is found again where it is remembered. -/
theorem locate_recast_of_prefix {target : Target}
    (grown : (memoOfTree (locate context store target s)).documents <+: memo.documents)
    (found : ∀ failure, locate context store target s ≠ .error failure) :
    locate context store target (s.recast modelType memo) =
      recastTree modelType memo (locate context store target s) := by
  cases target with
  | main => rfl
  | named name =>
    have own : (s.recast modelType memo).memo = memo := rfl
    simp only [locate, own] at grown found ⊢
    rcases resolved : context.resolve store s.memo name with error | ⟨path, document, after⟩
    · rw [resolved] at found
      exact absurd rfl (found _)
    · obtain ⟨rfl, _, remembered, _⟩ := Context.resolve_ok resolved
      rw [resolved] at grown
      have again : context.resolve store memo name = .ok (context.partialPath name, document, memo) := by
        simp only [Context.resolve, Memo.find?_of_prefix grown remembered]
      rw [again]
      rfl

theorem memo_of_locate_error {target : Target} {failure : WalkFailure}
    (failed : locate context store target s = .error failure) : failure.memo = s.memo := by
  cases target with
  | main => cases failed
  | named name =>
    simp only [locate] at failed
    split at failed <;> cases failed
    rfl

theorem memoOfTree_prefix (target : Target) :
    s.memo.documents <+: (memoOfTree (locate context store target s)).documents := by
  rcases located : locate context store target s with failure | ⟨frame, name, document, after⟩
  · have same : memoOfTree (.error failure) = s.memo := memo_of_locate_error s located
    exact same ▸ List.prefix_rfl
  · exact (locate_ok located).1.memo

end Walk

/-! ### Steps -/

section
variable {context : Context} {store : Store}

/-- The first task pulls in a tree, or it has nothing to do with types of model and with what is remembered. -/
theorem Underway.pulls_or_local (context : Context) (store : Store) (u : Underway) :
    (∃ target rest, u.todo = .carry (.pull target) :: rest) ∨
      ∀ modelType memo, Stage.step context store (.recast modelType memo (.underway u)) =
        (Stage.step context store (.underway u)).recast modelType memo := by
  by_cases pulls : ∃ target rest, u.todo = .carry (.pull target) :: rest
  · exact .inl pulls
  · simp only [not_exists] at pulls
    exact .inr fun modelType memo => Walk.step_recast_of_local modelType memo pulls

namespace Stage

theorem memo_step_of_local {u : Underway}
    (here : ∀ modelType memo, Stage.step context store (.recast modelType memo (.underway u)) =
      (Stage.step context store (.underway u)).recast modelType memo) :
    (Stage.step context store (.underway u)).memo = u.state.memo := by
  have own : Stage.underway u = .recast u.state.units.modelType u.state.memo (.underway u) := rfl
  rw [own, here, memo_recast]

theorem step_recast_same (modelType : String) (stage : Stage) :
    (stage.recast modelType stage.memo).step context store =
      (stage.step context store).recast modelType (stage.step context store).memo := by
  rcases stage with u | result
  · obtain ⟨target, rest, pulls⟩ | here := u.pulls_or_local context store
    · obtain ⟨frames, todo, s⟩ := u
      cases pulls
      refine (Walk.pullIn_recast _ _ _ (Walk.locate_recast_same _ _ _)).trans ?_
      rw [← Walk.memo_pullIn]
      rfl
    · rw [memo_step_of_local here]
      exact here modelType u.state.memo
  · rcases result with failure | s <;> rfl

theorem memo_step_prefix (stage : Stage) : stage.memo.documents <+: (stage.step context store).memo.documents := by
  rcases stage with u | result
  · obtain ⟨target, rest, pulls⟩ | here := u.pulls_or_local context store
    · obtain ⟨frames, todo, s⟩ := u
      cases pulls
      have same := Walk.memo_pullIn context store s target frames rest
      exact same ▸ Walk.memoOfTree_prefix s target
    · exact memo_step_of_local here ▸ List.prefix_rfl
  · exact List.prefix_rfl

/-- A step that another walk has done before finds what that walk has read. -/
theorem step_recast_grown (modelType : String) {stage : Stage} {memo : Memo}
    (grown : (stage.step context store).memo.documents <+: memo.documents)
    (still : ∀ failure, stage.step context store = .ended (.error failure) → memo = failure.memo) :
    (stage.recast modelType memo).step context store = (stage.step context store).recast modelType memo := by
  rcases stage with u | result
  · obtain ⟨target, rest, pulls⟩ | here := u.pulls_or_local context store
    · obtain ⟨frames, todo, s⟩ := u
      cases pulls
      have step : Stage.step context store (.underway { frames, todo := .carry (.pull target) :: rest, state := s }) =
          Underway.pullIn context store frames target rest s := rfl
      rw [step] at grown still ⊢
      rw [Walk.memo_pullIn] at grown
      apply Walk.pullIn_recast
      rcases located : Walk.locate context store target s with failure | tree
      · obtain rfl : memo = failure.memo := still failure (by simp only [Underway.pullIn, located])
        rw [Walk.memo_of_locate_error s located, Walk.locate_recast_same, located]
        rw [Walk.memoOfTree, Walk.memo_of_locate_error s located]
      · rw [← located]
        exact Walk.locate_recast_of_prefix _ _ _ grown (by simp [located])
    · exact here modelType memo
  · rcases result with failure | s <;> rfl

end Stage

end

/-! ### Courses -/

namespace Walk

/-- A walk after so many steps, if there is no other. -/
def course (context : Context) (store : Store) (memo : Memo) (sharing : Sharing) (modelType : String) (steps : Nat) :
    Stage :=
  (Stage.step context store)^[steps] (beginning context memo modelType sharing)

variable {context : Context} {store : Store} {memo : Memo} {sharing : Sharing}

theorem course_succ (modelType : String) (n : Nat) :
    course context store memo sharing modelType (n + 1) =
      (course context store memo sharing modelType n).step context store :=
  Function.iterate_succ_apply' _ _ _

theorem course_recast (modelType other : String) (n : Nat) :
    course context store memo sharing other n = (course context store memo sharing modelType n).recast other
      (course context store memo sharing modelType n).memo := by
  induction n with
  | zero => rfl
  | succ n ih => rw [course_succ, ih, Stage.step_recast_same, ← course_succ]

theorem memo_course (modelType other : String) (n : Nat) :
    (course context store memo sharing other n).memo = (course context store memo sharing modelType n).memo := by
  rw [course_recast modelType other n, Stage.memo_recast]

theorem remembering_course (modelType : String) (n : Nat) (later : Memo) :
    (course context store memo sharing modelType n).remembering later =
      (course context store memo sharing modelType n).recast modelType later := by
  rw [course_recast modelType modelType n, Stage.remembering_recast, Stage.recast_recast]

theorem memo_course_prefix (modelType : String) {first last : Nat} (le : first ≤ last) :
    (course context store memo sharing modelType first).memo.documents <+:
      (course context store memo sharing modelType last).memo.documents := by
  induction last, le using Nat.le_induction with
  | base => exact List.prefix_rfl
  | succ last _ ih =>
    rw [course_succ]
    exact ih.trans (Stage.memo_step_prefix _)

theorem course_of_ended (modelType : String) {first last : Nat} (le : first ≤ last) {result : WalkResult}
    (ended : course context store memo sharing modelType first = .ended result) :
    course context store memo sharing modelType last = .ended result := by
  induction last, le using Nat.le_induction with
  | base => exact ended
  | succ last _ ih => rw [course_succ, ih, Stage.step]

/-- A step of a walk in the light of what a walk remembers that may have come further. -/
theorem course_step (modelType : String) {n furthest : Nat} (le : n ≤ furthest) :
    ((course context store memo sharing modelType n).remembering
        (course context store memo sharing modelType furthest).memo).step context store =
      (course context store memo sharing modelType (n + 1)).remembering
        (course context store memo sharing modelType (max (n + 1) furthest)).memo := by
  rw [remembering_course, remembering_course, course_succ]
  rcases Nat.lt_or_eq_of_le le with less | rfl
  · rw [max_eq_right (Nat.succ_le_of_lt less)]
    refine Stage.step_recast_grown modelType ?_ fun failure failed => ?_
    · rw [← course_succ]
      exact memo_course_prefix modelType less
    · rw [← course_succ] at failed
      rw [course_of_ended modelType less failed, Stage.memo]
  · rw [max_eq_left (Nat.le_succ n), course_succ]
    exact Stage.step_recast_same modelType _

theorem exists_iterate_of_leads {P : Stage → Prop} {first last : Stage}
    (leads : Stage.Leads context store P first last) : ∃ n, (Stage.step context store)^[n] first = last := by
  induction leads with
  | here _ => exact ⟨0, rfl⟩
  | step _ _ ih =>
    obtain ⟨n, same⟩ := ih
    exact ⟨n + 1, same⟩

/-- Once a walk is over, it has come to what the bounded walk comes to. -/
theorem walk_of_course {modelType : String} {n : Nat} {result : WalkResult}
    (ended : course context store memo sharing modelType n = .ended result) :
    walk context store memo modelType sharing = result.bind WalkState.finish := by
  obtain ⟨m, last⟩ := exists_iterate_of_leads (leads_to_result context store memo modelType sharing)
  have same := (course_of_ended modelType (Nat.le_max_left n m) ended).symm.trans
    (course_of_ended modelType (Nat.le_max_right n m) last)
  rw [Stage.ended.inj same]
  rfl

theorem exists_course_ended (modelType : String) :
    ∃ n result, course context store memo sharing modelType n = .ended result := by
  obtain ⟨n, last⟩ := exists_iterate_of_leads (leads_to_result context store memo modelType sharing)
  exact ⟨n, _, last⟩

end Walk

def Walked.recast (walked : Walked) (modelType : String) : Walked :=
  { walked with units := { walked.units with modelType } }

theorem WalkState.finish_recast (s : WalkState) (modelType : String) :
    (s.recast modelType s.memo).finish = s.finish.map fun walked => walked.recast modelType := by
  unfold finish WalkState.recast
  cases s.builder.finish? <;> rfl

theorem walk_recast (context : Context) (store : Store) (memo : Memo) (modelType other : String) (sharing : Sharing) :
    walk context store memo other sharing =
      (walk context store memo modelType sharing).map fun walked => walked.recast other := by
  obtain ⟨n, result, ended⟩ : ∃ n result, Walk.course context store memo sharing modelType n = .ended result :=
    Walk.exists_course_ended modelType
  have ended' : Walk.course context store memo sharing other n = _ := Walk.course_recast modelType other n
  rw [ended] at ended'
  rw [Walk.walk_of_course ended, Walk.walk_of_course ended']
  cases result with
  | error failure => rfl
  | ok s => exact s.finish_recast other

end Stencil
