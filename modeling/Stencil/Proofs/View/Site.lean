import Stencil.Proofs.View.Safe
import Stencil.Proofs.Walk.Course

/-! Views at work.

At a site requests come and go, and the compiles that they have started go on beside each other, all with the memo of
the view. What happens may follow in any order. A tally of one type of model has its slot, and of its compiles nothing
but the number of their steps. It knows nothing of other types and of what is remembered, and still it keeps up with
the site.
-/

set_option autoImplicit false

namespace Stencil

section

variable {ρ ε : Type}

/-- Whether an event is the end of a compile. All other events are brought about by requests. -/
def SlotEvent.isLanding : SlotEvent ρ ε → Bool
  | .land _ _ => true
  | _ => false

def withLaunched {α : Type} (effects : List (SlotEffect ρ ε)) (beginning : α) (jobs : Nat → Option α) :
    Nat → Option α :=
  effects.foldl
    (fun jobs effect =>
      match effect with
      | .launch task => Function.update jobs task (some beginning)
      | _ => jobs)
    jobs

end

abbrev RequestEvent := { event : SlotEvent Renderer CompileError // event.isLanding = false }

inductive SiteEvent where
  | request (event : RequestEvent)
  /-- A compile takes a step of its walk. Once the walk is over, the backend answers and the compile ends. -/
  | work (task : Nat)
  | crash (task : Nat) (error : CompileError)

/-- A view at work, with the compiles under way: how far their walks are, by the type of model and the place in its
slot. -/
structure Site where
  view : View
  jobs : String → Nat → Option Stage

def Stage.ending? (backend : Backend) (references : List String) : Stage → Option (Ending Renderer CompileError)
  | .underway _ => none
  | .ended result =>
    some (.returned (match result.bind WalkState.finish with
      | .ok walked => walked.compile backend references
      | .error failure => .error failure.error))

namespace Site

def ofView (view : View) : Site := { view, jobs := fun _ _ => none }

def beginning (site : Site) (modelType : String) : Stage :=
  Walk.beginning site.view.context site.view.memo modelType site.view.options.sharing

def land (site : Site) (modelType : String) (task : Nat) (ending : Ending Renderer CompileError) :
    Site × List (SlotEffect Renderer CompileError) :=
  let (view, effects) := site.view.step modelType (.land task ending)
  let jobs := Function.update (site.jobs modelType) task none
  ({ view, jobs := Function.update site.jobs modelType jobs }, effects)

/-- Takes a compile a step further. A step is done with what the view remembers, and what it reads is remembered for
all. -/
def proceed (site : Site) (modelType : String) (task : Nat) (stage : Stage) : Site :=
  let next := (stage.remembering site.view.memo).step site.view.context site.view.store
  let jobs := Function.update (site.jobs modelType) task (some next)
  { view := { site.view with memo := next.memo }, jobs := Function.update site.jobs modelType jobs }

def step (backend : Backend) (site : Site) (modelType : String) :
    SiteEvent → Site × List (SlotEffect Renderer CompileError)
  | .request event =>
    let (view, effects) := site.view.step modelType event.1
    let jobs := withLaunched effects (site.beginning modelType) (site.jobs modelType)
    ({ view, jobs := Function.update site.jobs modelType jobs }, effects)
  | .work task =>
    match site.jobs modelType task with
    | none => (site, [])
    | some stage =>
      match stage.ending? backend site.view.options.references with
      | some ending => site.land modelType task ending
      | none => (site.proceed modelType task stage, [])
  | .crash task error =>
    match site.jobs modelType task with
    | none => (site, [])
    | some _ => site.land modelType task (.panicked error)

def run (backend : Backend) (site : Site) : List (String × SiteEvent) →
    Site × List (String × SlotEffect Renderer CompileError)
  | [] => (site, [])
  | (modelType, event) :: rest =>
    let (site, effects) := site.step backend modelType event
    let (site, more) := site.run backend rest
    (site, effects.map (Prod.mk modelType) ++ more)

end Site

/-- What one type of model has of its own: its slot, and the steps that its compiles under way have taken. -/
structure Tally where
  slot : Slot Renderer CompileError
  steps : Nat → Option Nat

namespace Tally

def empty : Tally := { slot := .empty, steps := fun _ => none }

variable (ending? : Nat → Option (Ending Renderer CompileError))

def land (tally : Tally) (task : Nat) (ending : Ending Renderer CompileError) :
    Tally × List (SlotEffect Renderer CompileError) :=
  let (slot, effects) := tally.slot.step (.land task ending)
  ({ slot, steps := Function.update tally.steps task none }, effects)

def step (tally : Tally) : SiteEvent → Tally × List (SlotEffect Renderer CompileError)
  | .request event =>
    let (slot, effects) := tally.slot.step event.1
    ({ slot, steps := withLaunched effects 0 tally.steps }, effects)
  | .work task =>
    match tally.steps task with
    | none => (tally, [])
    | some n =>
      match ending? n with
      | some ending => tally.land task ending
      | none => ({ tally with steps := Function.update tally.steps task (some (n + 1)) }, [])
  | .crash task error =>
    match tally.steps task with
    | none => (tally, [])
    | some _ => tally.land task (.panicked error)

def run (tally : Tally) : List SiteEvent → Tally × List (SlotEffect Renderer CompileError)
  | [] => (tally, [])
  | event :: rest =>
    let (tally, effects) := tally.step ending? event
    let (tally, more) := tally.run rest
    (tally, effects ++ more)

end Tally

/-! ### Sites and tallies -/

/-- The walk of a view for a type of model after so many steps, if there is no other. -/
def View.course (view : View) (modelType : String) (n : Nat) : Stage :=
  Walk.course view.context view.store view.memo view.options.sharing modelType n

def View.endingAt? (view : View) (backend : Backend) (modelType : String) (n : Nat) :
    Option (Ending Renderer CompileError) :=
  (view.course modelType n).ending? backend view.options.references

/-- Whether a compile has taken `n` steps, whatever was remembered on the way, and no more than `furthest`. -/
def View.Reaches (begun : View) (modelType : String) (furthest : Nat) (stage : Stage) (n : Nat) : Prop :=
  n ≤ furthest ∧ ∃ memo, stage = (begun.course modelType n).remembering memo

structure Tally.Counts (tally : Tally) (begun : View) (modelType : String) (furthest : Nat)
    (slot : Slot Renderer CompileError) (jobs : Nat → Option Stage) : Prop where
  slot : slot = tally.slot
  jobs : ∀ task, Option.Rel (begun.Reaches modelType furthest) (jobs task) (tally.steps task)

/-- A site that has come about from a view, with a tally for each type. What is remembered is what the compile
remembers by itself that has come furthest. -/
structure Site.Counted (site : Site) (begun : View) (furthest : Nat) (tallies : String → Tally) : Prop where
  context : site.view.context = begun.context
  store : site.view.store = begun.store
  options : site.view.options = begun.options
  memo : ∀ modelType, site.view.memo = (begun.course modelType furthest).memo
  tallies : ∀ modelType,
    (tallies modelType).Counts begun modelType furthest (site.view.slot modelType) (site.jobs modelType)

theorem rel_update {α β : Type} {r : α → β → Prop} {f : Nat → Option α} {g : Nat → Option β}
    (rel : ∀ task, Option.Rel r (f task) (g task)) {first : Option α} {second : Option β}
    (new : Option.Rel r first second) (at_ task : Nat) :
    Option.Rel r (Function.update f at_ first task) (Function.update g at_ second task) := by
  by_cases same : task = at_
  · subst same
    simpa only [Function.update_self] using new
  · simpa only [Function.update_of_ne same] using rel task

theorem rel_withLaunched {α β : Type} {r : α → β → Prop} {first : α} {second : β} (new : r first second)
    (effects : List (SlotEffect Renderer CompileError)) {f : Nat → Option α} {g : Nat → Option β}
    (rel : ∀ task, Option.Rel r (f task) (g task)) (task : Nat) :
    Option.Rel r (withLaunched effects first f task) (withLaunched effects second g task) := by
  induction effects generalizing f g with
  | nil => exact rel task
  | cons effect rest ih =>
    cases effect with
    | launch started => exact ih (rel_update rel (.some new) started)
    | join _ | collect _ | answer _ _ => exact ih rel

theorem Stage.ending?_remembering (backend : Backend) (references : List String) (stage : Stage) (memo : Memo) :
    (stage.remembering memo).ending? backend references = stage.ending? backend references := by
  rcases stage with u | failure | s
  · rfl
  · rfl
  · simp only [Stage.remembering, Stage.ending?, Except.bind, WalkState.finish, WalkState.remembering]
    cases s.builder.finish? <;> rfl

namespace Tally.Counts

variable {tally : Tally} {begun : View} {modelType : String} {furthest later : Nat}
  {slot : Slot Renderer CompileError} {jobs : Nat → Option Stage}

theorem cases_job (counts : tally.Counts begun modelType furthest slot jobs) (task : Nat) :
    (jobs task = none ∧ tally.steps task = none) ∨
      ∃ stage n, jobs task = some stage ∧ tally.steps task = some n ∧
        begun.Reaches modelType furthest stage n := by
  have rel := counts.jobs task
  generalize jobs task = job at rel ⊢
  generalize tally.steps task = count at rel ⊢
  cases rel with
  | none => exact .inl ⟨rfl, rfl⟩
  | some reaches => exact .inr ⟨_, _, rfl, rfl, reaches⟩

theorem mono (counts : tally.Counts begun modelType furthest slot jobs) (le : furthest ≤ later) :
    tally.Counts begun modelType later slot jobs := by
  refine ⟨counts.slot, fun task => ?_⟩
  rcases counts.cases_job task with ⟨job, count⟩ | ⟨stage, n, job, count, reaches⟩
  · rw [job, count]
    exact .none
  · rw [job, count]
    exact .some ⟨reaches.1.trans le, reaches.2⟩

/-- What is remembered apart, compiles have come exactly as far as counted. -/
theorem jobs_eq (counts : tally.Counts begun modelType furthest slot jobs) (memo : Memo) (task : Nat) :
    (jobs task).map (Stage.remembering memo) =
      (tally.steps task).map fun n => (begun.course modelType n).remembering memo := by
  rcases counts.cases_job task with ⟨job, count⟩ | ⟨_, n, job, count, _, earlier, rfl⟩
  · rw [job, count]
    rfl
  · rw [job, count, Option.map_some, Option.map_some, Stage.remembering_remembering]

end Tally.Counts

namespace Site.Counted

variable {site next : Site} {begun : View} {furthest later : Nat} {tallies : String → Tally} {modelType : String}

theorem become (counted : site.Counted begun furthest tallies) {tally : Tally} (le : furthest ≤ later)
    (context : next.view.context = site.view.context) (store : next.view.store = site.view.store)
    (options : next.view.options = site.view.options)
    (memo : ∀ modelType, next.view.memo = (begun.course modelType later).memo)
    (others : ∀ other, other ≠ modelType →
      next.view.slot other = site.view.slot other ∧ next.jobs other = site.jobs other)
    (own : tally.Counts begun modelType later (next.view.slot modelType) (next.jobs modelType)) :
    next.Counted begun later (Function.update tallies modelType tally) := by
  refine ⟨context.trans counted.context, store.trans counted.store, options.trans counted.options, memo, ?_⟩
  intro other
  by_cases same : other = modelType
  · subst same
    rwa [Function.update_self]
  · obtain ⟨slot, jobs⟩ := others other same
    rw [Function.update_of_ne same, slot, jobs]
    exact (counted.tallies other).mono le

theorem act (counted : site.Counted begun furthest tallies) (event : SlotEvent Renderer CompileError)
    {jobs : Nat → Option Stage} {steps : Nat → Option Nat}
    (keeps : ∀ task, Option.Rel (begun.Reaches modelType furthest) (jobs task) (steps task)) :
    let moved := (tallies modelType).slot.step event
    Site.Counted
      { view := (site.view.step modelType event).1, jobs := Function.update site.jobs modelType jobs } begun furthest
      (Function.update tallies modelType { slot := moved.1, steps }) ∧
    (site.view.step modelType event).2 = moved.2 := by
  intro moved
  have slot : site.view.slot modelType = (tallies modelType).slot := (counted.tallies modelType).slot
  have stepped : site.view.step modelType event = (site.view.setSlot modelType moved.1, moved.2) := by
    simp only [View.step, slot, moved]
  rw [stepped]
  refine ⟨counted.become le_rfl rfl rfl rfl counted.memo (fun other differs => ?_) ⟨?_, ?_⟩, rfl⟩
  · exact ⟨View.slot_setSlot_other site.view differs _, Function.update_of_ne differs _ _⟩
  · exact View.slot_setSlot_same site.view modelType _
  · simpa only [Function.update_self] using keeps

theorem land (counted : site.Counted begun furthest tallies) (modelType : String) (task : Nat)
    (ending : Ending Renderer CompileError) :
    let moved := (tallies modelType).land task ending
    (site.land modelType task ending).1.Counted begun furthest (Function.update tallies modelType moved.1) ∧
      (site.land modelType task ending).2 = moved.2 :=
  counted.act (.land task ending) (rel_update (counted.tallies modelType).jobs .none task)

theorem reaches_beginning (counted : site.Counted begun furthest tallies) (modelType : String) :
    begun.Reaches modelType furthest (site.beginning modelType) 0 := by
  refine ⟨Nat.zero_le _, site.view.memo, ?_⟩
  simp only [beginning, counted.context, counted.options]
  rfl

/-- A step of a walk. It reads nothing that a walk has read that has come further. -/
theorem proceed (counted : site.Counted begun furthest tallies) {task : Nat} {stage : Stage} {n : Nat}
    (reaches : begun.Reaches modelType furthest stage n) :
    (site.proceed modelType task stage).Counted begun (max (n + 1) furthest)
      (Function.update tallies modelType
        { tallies modelType with steps := Function.update (tallies modelType).steps task (some (n + 1)) }) := by
  obtain ⟨le, memo, rfl⟩ := reaches
  have next : (((begun.course modelType n).remembering memo).remembering site.view.memo).step site.view.context
      site.view.store = (begun.course modelType (n + 1)).remembering
        (begun.course modelType (max (n + 1) furthest)).memo := by
    rw [Stage.remembering_remembering, counted.memo modelType, counted.context, counted.store]
    exact Walk.course_step modelType le
  have onward := le_max_right (n + 1) furthest
  have own := (counted.tallies modelType).mono onward
  simp only [Site.proceed, next, Stage.memo_remembering]
  refine counted.become onward rfl rfl rfl (fun other => ?_) (fun other differs => ?_) ⟨own.slot, ?_⟩
  · exact Walk.memo_course other modelType _
  · exact ⟨rfl, Function.update_of_ne differs _ _⟩
  · simp only [Function.update_self]
    exact rel_update own.jobs (.some ⟨le_max_left _ _, _, rfl⟩) task

theorem step (counted : site.Counted begun furthest tallies) (backend : Backend) (modelType : String)
    (event : SiteEvent) :
    let moved := (tallies modelType).step (begun.endingAt? backend modelType) event
    (∃ later,
      (site.step backend modelType event).1.Counted begun later (Function.update tallies modelType moved.1)) ∧
      (site.step backend modelType event).2 = moved.2 := by
  have own := counted.tallies modelType
  cases event with
  | request event =>
    have begins := counted.reaches_beginning modelType
    have acts := counted.act event.1
      (rel_withLaunched begins ((tallies modelType).slot.step event.1).2 own.jobs)
    simp only [Site.step, Tally.step, acts.2]
    exact ⟨⟨furthest, acts.1⟩, trivial⟩
  | work task =>
    simp only [Site.step, Tally.step]
    -- A task that has landed is in neither the jobs nor the count; of the others the count tells the stage.
    rcases own.cases_job task with ⟨job, count⟩ | ⟨stage, n, job, count, reaches⟩
    · simp only [job, count, Function.update_eq_self, and_true]
      exact ⟨furthest, counted⟩
    · have ends : stage.ending? backend site.view.options.references = begun.endingAt? backend modelType n := by
        obtain ⟨_, memo, rfl⟩ := reaches
        rw [Stage.ending?_remembering, counted.options, View.endingAt?]
      simp only [job, count, ends]
      cases begun.endingAt? backend modelType n with
      | some ending =>
        have landed := Site.Counted.land counted modelType task ending
        exact ⟨⟨furthest, landed.1⟩, landed.2⟩
      | none => exact ⟨⟨_, counted.proceed reaches⟩, rfl⟩
  | crash task error =>
    simp only [Site.step, Tally.step]
    rcases own.cases_job task with ⟨job, count⟩ | ⟨stage, n, job, count, _⟩
    · simp only [job, count, Function.update_eq_self, and_true]
      exact ⟨furthest, counted⟩
    · simp only [job, count]
      have landed := Site.Counted.land counted modelType task (.panicked error)
      exact ⟨⟨furthest, landed.1⟩, landed.2⟩

/-- What a type sees of a run is what its tally comes to on the events of its own. -/
theorem run (counted : site.Counted begun furthest tallies) (backend : Backend) (events : List (String × SiteEvent))
    (modelType : String) :
    let moved := (tallies modelType).run (begun.endingAt? backend modelType) (View.concerning modelType events)
    (∃ later, moved.1.Counts begun modelType later ((site.run backend events).1.view.slot modelType)
        ((site.run backend events).1.jobs modelType)) ∧
      View.concerning modelType (site.run backend events).2 = moved.2 := by
  induction events generalizing site furthest tallies with
  | nil => exact ⟨⟨furthest, counted.tallies modelType⟩, rfl⟩
  | cons event rest ih =>
    obtain ⟨key, event⟩ := event
    obtain ⟨⟨later, stepped⟩, effects⟩ := counted.step backend key event
    have onward := ih stepped
    simp only [Site.run, View.concerning_append]
    by_cases same : key = modelType
    · subst same
      simp only [Function.update_self] at onward
      simp only [View.concerning_cons_same, Tally.run, View.concerning_map_same, onward.2, effects, and_true]
      exact onward.1
    · -- The tally stays for an event of another type, which is none of its own.
      simp only [Function.update_of_ne (Ne.symm same)] at onward
      simp only [View.concerning_cons_other same, View.concerning_map_other same, List.nil_append]
      exact onward

end Site.Counted

end Stencil
