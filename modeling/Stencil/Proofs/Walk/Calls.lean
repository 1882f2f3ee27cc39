import Stencil.Proofs.Composition.Stores
import Stencil.Proofs.Merging.Walk

/-! What a walk makes of what is remembered.

It looks at it only through calls of its own, one for each partial that it comes to. Where the store stays the same,
these are answered as the store does, and the walk takes the same course whatever is remembered.
-/

set_option autoImplicit false

namespace Stencil

open Template (Document)

/-! ### Steps that make a call -/

namespace Walk

variable {context : Context} {store : Store}

def treeOf (s : WalkState) :
    Except CompileError (Path × Document) × Memo → Except WalkFailure (Frame × String × Document × WalkState)
  | (.ok (path, document), memo) => .ok (.file path.components, path.text, document, { s with memo })
  | (.error error, memo) => .error { error, memo }

theorem locate_named (name : String) (s : WalkState) :
    locate context store (.named name) s = treeOf s (context.lookUp s.memo ⟨store, name⟩) := by
  simp only [locate, Context.lookUp]
  cases context.resolve store s.memo name <;> rfl

theorem memoOfTree_treeOf (s : WalkState) (answer : Except CompileError (Path × Document) × Memo) :
    memoOfTree (treeOf s answer) = answer.2 := by
  rcases answer with ⟨_ | ⟨path, document⟩, memo⟩ <;> rfl

end Walk

def askedBy : List Task → Option String
  | .carry (.pull (.named name)) :: _ => some name
  | _ => none

namespace Stage

variable {context : Context} {store : Store}

/-- The name of the partial that a walk calls for in its next step, if it does. -/
def asks? : Stage → Option String
  | .underway u => askedBy u.todo
  | .ended _ => none

@[simp] theorem asks?_remembering (stage : Stage) (memo : Memo) : (stage.remembering memo).asks? = stage.asks? := by
  rcases stage with u | _ | _ <;> rfl

theorem asks?_eq_some {u : Underway} {name : String} (asks : (underway u).asks? = some name) :
    ∃ rest, u.todo = .carry (.pull (.named name)) :: rest := by
  simp only [asks?, askedBy] at asks
  split at asks
  · rename_i rest todo
    cases asks
    exact ⟨rest, todo⟩
  · cases asks

theorem memo_step_of_quiet {stage : Stage} (quiet : stage.asks? = none) :
    (stage.step context store).memo = stage.memo := by
  rcases stage with u | result
  · obtain ⟨target, rest, pulls⟩ | here := u.pulls_or_local context store
    · obtain ⟨frames, todo, s⟩ := u
      cases pulls
      cases target with
      | main => exact Walk.memo_pullIn context store s .main frames rest
      | named name => cases quiet
    · exact memo_step_of_local here
  · rfl

theorem memo_step_of_asks {stage : Stage} {name : String} (asks : stage.asks? = some name) :
    (stage.step context store).memo = (context.lookUp stage.memo ⟨store, name⟩).2 := by
  rcases stage with u | result
  · obtain ⟨frames, todo, s⟩ := u
    obtain ⟨rest, rfl⟩ : ∃ rest, todo = _ := asks?_eq_some asks
    refine (Walk.memo_pullIn context store s (.named name) frames rest).trans ?_
    rw [Walk.locate_named, Walk.memoOfTree_treeOf]
    rfl
  · cases asks

end Stage

/-! ### A store that does not change -/

namespace Walk

variable {context : Context} {store : Store} {names : Set String} {memo : Memo} {sharing : Sharing}

/-- The same tree is found, whatever is remembered. -/
theorem locate_recast_of_drawn (alike : context.Alike store names) {s : WalkState}
    (drawn : context.Drawn store names s.memo) (drawn' : context.Drawn store names memo) (modelType : String)
    {target : Target} (known : ∀ name, target = .named name → name ∈ names) :
    ∃ later, locate context store target (s.recast modelType memo) =
      recastTree modelType later (locate context store target s) := by
  cases target with
  | main => exact ⟨memo, rfl⟩
  | named name =>
    have answer := (Context.lookUp_of_drawn alike drawn (known name rfl)).1
    have answer' := (Context.lookUp_of_drawn alike drawn' (known name rfl)).1
    have own : (s.recast modelType memo).memo = memo := rfl
    rw [locate_named, locate_named, own]
    generalize context.lookUp s.memo ⟨store, name⟩ = told at answer ⊢
    generalize context.lookUp memo ⟨store, name⟩ = told' at answer' ⊢
    obtain ⟨first, earlier⟩ := told
    obtain ⟨second, later⟩ := told'
    obtain rfl : second = first := answer'.trans answer.symm
    refine ⟨later, ?_⟩
    cases second <;> rfl

theorem step_recast_of_drawn (alike : context.Alike store names) {stage : Stage}
    (drawn : context.Drawn store names stage.memo) (drawn' : context.Drawn store names memo) (modelType : String)
    (known : ∀ name, stage.asks? = some name → name ∈ names) :
    ∃ later, (stage.recast modelType memo).step context store = (stage.step context store).recast modelType later := by
  rcases stage with u | result
  · obtain ⟨target, rest, pulls⟩ | here := u.pulls_or_local context store
    · obtain ⟨frames, todo, s⟩ := u
      cases pulls
      have known' (name : String) (named : target = .named name) : name ∈ names := known name (by rw [named]; rfl)
      obtain ⟨later, found⟩ := locate_recast_of_drawn alike drawn drawn' modelType known'
      exact ⟨later, pullIn_recast modelType memo s found⟩
    · exact ⟨memo, here modelType memo⟩
  · exact ⟨memo, rfl⟩

theorem drawn_step (alike : context.Alike store names) {stage : Stage}
    (drawn : context.Drawn store names stage.memo) (known : ∀ name, stage.asks? = some name → name ∈ names) :
    context.Drawn store names (stage.step context store).memo := by
  cases asks : stage.asks? with
  | none => rwa [Stage.memo_step_of_quiet asks]
  | some name =>
    rw [Stage.memo_step_of_asks asks]
    exact (Context.lookUp_of_drawn alike drawn (known name asks)).2

/-- What a walk calls for is named in one of the trees that there are at its beginning. -/
theorem pullable_of_asks {modelType : String} {n : Nat} {name : String}
    (asks : (course context store memo sharing modelType n).asks? = some name) :
    .named name ∈ pullable context store memo := by
  have kept : StageKept context store (.start modelType sharing memo)
      (course context store memo sharing modelType n) := by
    clear asks
    induction n with
    | zero => exact kept_beginning context store memo modelType sharing
    | succ n ih =>
      rw [course_succ]
      generalize course context store memo sharing modelType n = stage at ih
      rcases stage with u | result
      · exact ih.step
      · trivial
  generalize course context store memo sharing modelType n = stage at asks kept
  rcases stage with u | result
  · obtain ⟨frames, todo, s⟩ := u
    obtain ⟨rest, rfl⟩ : ∃ rest, todo = _ := Stage.asks?_eq_some asks
    obtain ⟨⟨document, known, _, targets, _⟩, _⟩ := kept.owned
    exact List.mem_flatMap.2 ⟨document, known, targets List.mem_cons_self⟩
  · cases asks

section
variable (sharing) (alike : context.Alike store names)
  (pulled : ∀ name, .named name ∈ pullable context store .empty → name ∈ names)
include alike pulled

theorem drawn_course (modelType : String) (n : Nat) :
    context.Drawn store names (course context store .empty sharing modelType n).memo := by
  induction n with
  | zero => exact Context.drawn_empty
  | succ n ih =>
    rw [course_succ]
    exact drawn_step alike ih fun name asks => pulled name (pullable_of_asks asks)

theorem step_course (drawn : context.Drawn store names memo) (modelType : String) (n : Nat) :
    ∃ later, context.Drawn store names later ∧
      ((course context store .empty sharing modelType n).remembering memo).step context store =
        (course context store .empty sharing modelType (n + 1)).remembering later := by
  have known (name : String) (asks : (course context store .empty sharing modelType n).asks? = some name) :
      name ∈ names := pulled name (pullable_of_asks asks)
  obtain ⟨later, same⟩ := step_recast_of_drawn alike (drawn_course sharing alike pulled modelType n) drawn modelType known
  rw [← course_succ, ← remembering_course, ← remembering_course] at same
  refine ⟨later, ?_, same⟩
  have onward : context.Drawn store names
      (((course context store .empty sharing modelType n).remembering memo).step context store).memo :=
    drawn_step alike (by rwa [Stage.memo_remembering]) (by simpa using known)
  rwa [same, Stage.memo_remembering] at onward

theorem course_of_drawn (drawn : context.Drawn store names memo) (modelType : String) (n : Nat) :
    ∃ later, context.Drawn store names later ∧ course context store memo sharing modelType n =
      (course context store .empty sharing modelType n).remembering later := by
  induction n with
  | zero => exact ⟨memo, drawn, rfl⟩
  | succ n ih =>
    obtain ⟨later, drawn, same⟩ := ih
    rw [course_succ, same]
    exact step_course sharing alike pulled drawn modelType n

end

theorem outcome_of_ended {modelType : String} {n : Nat} {later : Memo} {result : WalkResult}
    (ended : (course context store memo sharing modelType n).remembering later = .ended result) :
    outcome (result.bind WalkState.finish) = outcome (walk context store memo modelType sharing) := by
  cases reached : course context store memo sharing modelType n with
  | underway u =>
    rw [reached] at ended
    cases ended
  | ended last =>
    rw [walk_of_course reached]
    rw [reached] at ended
    cases last with
    | error failure =>
      cases ended
      rfl
    | ok s =>
      cases ended
      exact outcome_finish_remembering s later

end Walk

end Stencil
