import Mathlib.Data.List.Perm.Subperm
import Stencil.Proofs.Splice.Walk

/-! Walks step by step.

A walk under way has a stack of the trees whose walks are open, and tasks still to be done. A directive puts the tree
that it leads to on the stack, unless it is there already, with a task behind the tree's instructions that takes it off
again. Nothing bounds the number of steps or the depth of the stack. What the bounded walk comes to, the steps come to
as well, and between a directive and the task behind it the stack never falls below what it was.
-/

set_option autoImplicit false

namespace Stencil

/-- What is to be done in a walk. -/
inductive Task where
  | carry (instruction : Instruction)
  | endChoice (unit : Nat)
  | endOtherwise (line : Nat)
  /-- The innermost open tree comes to its end. -/
  | leave

/-- A walk under way, with the trees whose walks are open, innermost first. -/
structure Underway where
  frames : List Frame
  todo : List Task
  state : WalkState

inductive Stage where
  | underway (u : Underway)
  | ended (result : WalkResult)

namespace Stage

def proceed (frames : List Frame) (todo : List Task) : WalkResult → Stage
  | .ok state => .underway { frames, todo, state }
  | .error failure => .ended (.error failure)

/-- A walk with at least the given trees open and at least the given tasks to be done, unless it is over. -/
def Within (frames : List Frame) (todo : List Task) : Stage → Prop
  | .underway u => frames <:+ u.frames ∧ todo <:+ u.todo
  | .ended _ => True

theorem within_proceed (frames : List Frame) (todo : List Task) (result : WalkResult) :
    Within frames todo (proceed frames todo result) := by
  cases result with
  | ok state => exact ⟨List.suffix_rfl, List.suffix_rfl⟩
  | error failure => trivial

theorem Within.mono {outer inner : List Frame} {rest todo : List Task} {stage : Stage}
    (within : Within inner todo stage) (frames : outer <:+ inner) (tasks : rest <:+ todo) : Within outer rest stage := by
  cases stage with
  | underway u => exact ⟨frames.trans within.1, tasks.trans within.2⟩
  | ended result => trivial

end Stage

def tasksOf (instructions : List Instruction) : List Task := instructions.map .carry

section
variable (context : Context) (store : Store)

def Underway.pullIn (frames : List Frame) (target : Target) (rest : List Task) (s : WalkState) : Stage :=
  match Walk.locate context store target s with
  | .error failure => .ended (.error failure)
  | .ok (frame, name, document, found) =>
    if frame ∈ frames then .ended (found.fail (.recursivePartial name))
    else .underway
      { frames := frame :: frames
        todo := tasksOf (Script.ofDocument document) ++ .leave :: rest
        state := found }

def Underway.step (u : Underway) : Stage :=
  match u.todo with
  | [] => .ended (.ok u.state)
  | .carry (.write text) :: rest => .proceed u.frames rest (.ok (u.state.write text))
  | .carry (.print source line) :: rest => .proceed u.frames rest (.ok (u.state.print source line))
  | .carry (.choose source line body) :: rest =>
    let (unit, s) := u.state.condition source line
    .proceed u.frames (tasksOf body ++ .endChoice unit :: rest) (.ok s.pushScope)
  | .carry (.otherwise line body) :: rest =>
    if u.state.builder.canAttachElse then
      .proceed u.frames (tasksOf body ++ .endOtherwise line :: rest) (.ok u.state.pushScope)
    else .ended (u.state.fail (.elseWithoutIf line))
  | .carry (.pull target) :: rest => Underway.pullIn context store u.frames target rest u.state
  | .carry (.fail error) :: _ => .ended (u.state.fail error)
  | .endChoice unit :: rest => .proceed u.frames rest (u.state.endChoice unit)
  | .endOtherwise line :: rest => .proceed u.frames rest (u.state.endOtherwise line)
  | .leave :: rest => .proceed u.frames.tail rest (.ok u.state)

/-- A walk that is over stays as it is. -/
def Stage.step : Stage → Stage
  | .underway u => u.step context store
  | .ended result => .ended result

/-- Steps lead from one stage to another, with `P` for all stages on the way. -/
inductive Stage.Leads (P : Stage → Prop) : Stage → Stage → Prop
  | here {stage : Stage} (holds : P stage) : Leads P stage stage
  | step {stage last : Stage} (holds : P stage) (onward : Leads P (stage.step context store) last) : Leads P stage last

def Walk.beginning (memo : Memo) (modelType : String) (sharing : Sharing) : Stage :=
  .underway
    { frames := Walk.openedAtStart context
      todo := tasksOf (Script.ofDocument context.root)
      state := .start modelType sharing memo }

end

namespace Stage.Leads

variable {context : Context} {store : Store} {P Q : Stage → Prop} {first second third : Stage}

theorem trans (leads : Leads context store P first second) (leads' : Leads context store P second third) :
    Leads context store P first third := by
  induction leads with
  | here _ => exact leads'
  | step holds _ ih => exact .step holds (ih leads')

theorem mono (leads : Leads context store P first second) (implies : ∀ stage, P stage → Q stage) :
    Leads context store Q first second := by
  induction leads with
  | here holds => exact .here (implies _ holds)
  | step holds _ ih => exact .step (implies _ holds) ih

theorem invariant (leads : Leads context store P first second) (keeps : ∀ stage, Q stage → Q (stage.step context store))
    (begins : Q first) : Q second := by
  induction leads with
  | here _ => exact begins
  | step _ _ ih => exact ih (keeps _ begins)

theorem single (holds : P first) (holds' : P (first.step context store)) :
    Leads context store P first (first.step context store) := .step holds (.here holds')

end Stage.Leads

namespace Walk

open Stage (Leads Within proceed)
open Template (Document)
open WalkState (Later)

section
variable (context : Context) (store : Store)

/-- From a stage with some open trees and a task in front of others, steps come to a result of the task, the trees
open then being the same again. -/
def ComesTo (frames : List Frame) (rest : List Task) (stage : Stage) (result : WalkResult) : Prop :=
  Leads context store (Within frames rest) stage (proceed frames rest result)

end

/-! ### The trees that a walk can come to -/

def frameOf (context : Context) : Target → Frame
  | .main => .main
  | .named name => .file (context.partialPath name).components

/-- A document is the tree of a frame: the main template, or the document for a path that is remembered or else what
the store holds there. -/
def Holds (context : Context) (store : Store) (memo : Memo) : Frame → Document → Prop
  | .main, document => document = context.main
  | .file components, document => ∃ path : Path, path.components = components ∧
    (memo.find? path = some document ∨ memo.find? path = none ∧ store.loadForView path = .ok document)

def pullable (context : Context) (store : Store) (memo : Memo) : List Target :=
  (documents context store memo).flatMap fun document => targetsOf (Script.ofDocument document)

variable {context : Context} {store : Store}

theorem mem_documents_of_find? {memo : Memo} {path : Path} {document : Document}
    (found : memo.find? path = some document) : document ∈ documents context store memo := by
  obtain ⟨entry, first, rfl⟩ := Option.map_eq_some_iff.mp found
  simp only [documents, List.cons_append, List.mem_cons, List.mem_append, List.mem_map]
  exact .inr (.inr (.inl ⟨entry, List.mem_of_find?_eq_some first, rfl⟩))

theorem mem_documents_of_loadForView {memo : Memo} {path : Path} {document : Document}
    (loaded : store.loadForView path = .ok document) : document ∈ documents context store memo := by
  have load : store.load path = .ok document := by
    unfold Store.loadForView at loaded
    cases load : store.load path with
    | error cause =>
      rw [load] at loaded
      cases loaded
    | ok other =>
      rw [load] at loaded
      cases loaded
      rfl
  obtain ⟨text, known, parsed⟩ := Store.exists_text_of_load load
  simp only [documents, List.cons_append, List.mem_cons, List.mem_append, List.mem_filterMap]
  exact .inr (.inr (.inr ⟨text, known, by rw [parsed]; rfl⟩))

theorem mem_documents_of_holds {memo : Memo} {frame : Frame} {document : Document}
    (holds : Holds context store memo frame document) : document ∈ documents context store memo := by
  cases frame with
  | main =>
    rw [show document = context.main from holds]
    simp [documents]
  | file components =>
    obtain ⟨path, _, found | ⟨_, loaded⟩⟩ := holds
    · exact mem_documents_of_find? found
    · exact mem_documents_of_loadForView loaded

theorem find?_of_components {memo : Memo} {path other : Path} (same : path.components = other.components) :
    memo.find? path = memo.find? other := by
  simp only [Memo.find?, Path.agrees, same]

/-- A document that a walk finds for a path is the one that belongs to the path when the walk begins. -/
theorem holds_of_find? {memo grown : Memo} {path : Path} {document : Document}
    (before : memo.documents <+: grown.documents) (origin : memo.GrownFrom store grown)
    (found : grown.find? path = some document) : Holds context store memo (.file path.components) document := by
  cases known : memo.find? path with
  | some other =>
    obtain rfl : other = document := Option.some.inj ((Memo.find?_of_prefix before known).symm.trans found)
    exact ⟨path, rfl, .inl known⟩
  | none =>
    obtain ⟨⟨stored, _⟩, first, rfl⟩ := Option.map_eq_some_iff.mp found
    have agrees := List.find?_some first
    have same : stored.components = path.components := Path.agrees_iff.mp agrees
    have unknown : memo.find? stored = none := (find?_of_components same).trans known
    rcases origin _ (List.mem_of_find?_eq_some first) with earlier | loaded
    · -- A document remembered from the beginning would have been found there.
      simp only [Memo.find?, Option.map_eq_none_iff, List.find?_eq_none] at unknown
      have self : stored.agrees stored = true := Path.agrees_iff.mpr rfl
      have differs := unknown _ earlier
      exact absurd self differs
    · exact ⟨stored, same, .inr ⟨unknown, loaded⟩⟩

theorem holds_of_locate {begun s found : WalkState} (later : Later store begun s) {target : Target} {frame : Frame}
    {name : String} {document : Document}
    (located : locate context store target s = .ok (frame, name, document, found)) :
    frame = frameOf context target ∧ Holds context store begun.memo frame document ∧ Later store begun found := by
  obtain ⟨onward, _, _⟩ := locate_ok located
  refine ⟨?_, ?_, later.trans onward⟩
  all_goals
    cases target with
    | main =>
      simp only [locate, Except.ok.injEq, Prod.mk.injEq] at located
      obtain ⟨rfl, _, rfl, _⟩ := located
      rfl
    | named partialName =>
      simp only [locate] at located
      split at located
      · rename_i path loaded memo resolved
        simp only [Except.ok.injEq, Prod.mk.injEq] at located
        obtain ⟨rfl, _, rfl, rfl⟩ := located
        obtain ⟨rfl, _, remembered, _⟩ := Context.resolve_ok resolved
        first
          | rfl
          | exact holds_of_find? (later.trans onward).memo (later.trans onward).grown remembered
      · cases located

/-! ### What the steps come to -/

variable {frames : List Frame} {rest : List Task}

theorem ComesTo.of_step {task : Task} {s : WalkState} {result : WalkResult}
    (step : Underway.step context store { frames, todo := task :: rest, state := s } = proceed frames rest result) :
    ComesTo context store frames rest (.underway { frames, todo := task :: rest, state := s }) result := by
  refine .step ⟨List.suffix_rfl, List.suffix_cons _ _⟩ ?_
  rw [Stage.step, step]
  exact .here (Stage.within_proceed frames rest result)

/-- After a first part that comes to `r`, the rest is done in the state that it gives, if it gives one. -/
theorem ComesTo.bind {todo : List Task} {stage : Stage} {r : WalkResult} {f : WalkState → WalkResult}
    (first : ComesTo context store frames todo stage r) (behind : rest <:+ todo)
    (second : ∀ s, r = .ok s → ComesTo context store frames rest (.underway { frames, todo, state := s }) (f s)) :
    ComesTo context store frames rest stage (r.bind f) := by
  have first := first.mono (Q := Within frames rest) fun _ within => within.mono List.suffix_rfl behind
  cases r with
  | error failure => exact first
  | ok s => exact first.trans (second s rfl)

/-- The trees that are open, and the number of trees that may still be opened: more than there can be. -/
structure Room (context : Context) (store : Store) (memo : Memo) (frames : List Frame) (depth : Nat) : Prop where
  distinct : frames.Nodup
  known : frames ⊆ .main :: (pullable context store memo).map (frameOf context)
  enough : (pullable context store memo).length + 1 < depth + frames.length

theorem Room.pos {memo : Memo} {depth : Nat} (room : Room context store memo frames depth) : depth ≠ 0 := by
  rintro rfl
  have bound := (room.distinct.subperm room.known).length_le
  have enough := room.enough
  simp only [List.length_cons, List.length_map] at bound
  omega

theorem later_of_run {begun s s' : WalkState} {depth : Nat} {instruction : Instruction} (later : Later store begun s)
    (ran : run (enter context store depth frames) instruction s = .ok s') : Later store begun s' :=
  later.trans (run_settles (enter_settles (fun _ => .ok) 0 depth frames) instruction ran).later

section
variable {begun : WalkState} {depth : Nat}

def Follows (context : Context) (store : Store) (begun : WalkState) (frames : List Frame) (depth : Nat) : Prop :=
  ∀ (target : Target) (rest : List Task) (s : WalkState), target ∈ pullable context store begun.memo →
    Later store begun s →
    ComesTo context store frames rest (.underway { frames, todo := .carry (.pull target) :: rest, state := s })
      (enter context store depth frames target s)

mutual

theorem run_comesTo (law : Follows context store begun frames depth) :
    ∀ (instruction : Instruction) (rest : List Task) (s : WalkState),
      instruction.targets ⊆ pullable context store begun.memo → Later store begun s →
      ComesTo context store frames rest (.underway { frames, todo := .carry instruction :: rest, state := s })
        (run (enter context store depth frames) instruction s)
  | .write text, rest, s, _, _ | .print source line, rest, s, _, _ | .fail error, rest, s, _, _ => .of_step rfl
  | .choose source line body, rest, s, known, later => by
    have later' : Later store begun (s.condition source line).2.pushScope :=
      later.trans (.ofRegister store s s.builder.pushScope source .boolean line)
    refine .step ⟨List.suffix_rfl, List.suffix_cons _ _⟩ ?_
    -- The body is done in front of the task that closes its scope.
    refine (runAll_comesTo law body (.endChoice (s.condition source line).1 :: rest) _ known later').bind
      (List.suffix_cons _ _) fun inner _ => ?_
    exact .of_step rfl
  | .otherwise line body, rest, s, known, later => by
    by_cases attachable : s.builder.canAttachElse = true
    · have later' : Later store begun s.pushScope := later.trans (.ofBuilder store s _)
      refine .step ⟨List.suffix_rfl, List.suffix_cons _ _⟩ ?_
      simp only [Stage.step, Underway.step, run, attachable, if_true]
      refine (runAll_comesTo law body (.endOtherwise line :: rest) _ known later').bind (List.suffix_cons _ _)
        fun inner _ => ?_
      exact .of_step rfl
    · refine .of_step ?_
      simp only [Underway.step, run, attachable, Bool.false_eq_true, if_false]
      rfl
  | .pull target, rest, s, known, later => law target rest s (known List.mem_cons_self) later

/-- Steps come to what carrying out some instructions comes to. -/
theorem runAll_comesTo (law : Follows context store begun frames depth) :
    ∀ (instructions : List Instruction) (rest : List Task) (s : WalkState),
      targetsOf instructions ⊆ pullable context store begun.memo → Later store begun s →
      ComesTo context store frames rest (.underway { frames, todo := tasksOf instructions ++ rest, state := s })
        (runAll (enter context store depth frames) instructions s)
  | [], rest, s, _, _ => .here ⟨List.suffix_rfl, List.suffix_rfl⟩
  | instruction :: others, rest, s, known, later => by
    obtain ⟨first, second⟩ := List.append_subset.mp known
    refine (run_comesTo law instruction (tasksOf others ++ rest) s first later).bind (List.suffix_append _ _)
      fun next ran => ?_
    exact runAll_comesTo law others rest next second (later_of_run later ran)

end

/-- Where there is room for all trees, steps do what bounded walks do. -/
theorem enter_follows (depth : Nat) : ∀ frames : List Frame, Room context store begun.memo frames depth →
    Follows context store begun frames depth := by
  -- By the trees that may still be opened: a tree that is not open yet takes up one of those that there is room for.
  induction depth with
  | zero => exact fun frames room => absurd rfl room.pos
  | succ depth ih =>
    intro frames room target rest s known later
    cases located : locate context store target s with
    | error failure =>
      refine .of_step ?_
      simp only [Underway.step, Underway.pullIn, located, enter, bind, Except.bind]
      rfl
    | ok tree =>
      obtain ⟨frame, name, document, found⟩ := tree
      by_cases open_ : frame ∈ frames
      · refine .of_step ?_
        simp only [Underway.step, Underway.pullIn, located, enter, bind, Except.bind, open_, if_true]
        rfl
      · obtain ⟨same, holds, later'⟩ := holds_of_locate later located
        have room' : Room context store begun.memo (frame :: frames) depth := by
          refine ⟨List.nodup_cons.mpr ⟨open_, room.distinct⟩, List.cons_subset.mpr ⟨?_, room.known⟩, ?_⟩
          · rw [same]
            cases target with
            | main => exact List.mem_cons_self
            | named partialName => exact List.mem_cons_of_mem _ (List.mem_map_of_mem known)
          · have enough := room.enough
            simp only [List.length_cons]
            omega
        have targets : targetsOf (Script.ofDocument document) ⊆ pullable context store begun.memo :=
          fun target member => List.mem_flatMap.mpr ⟨document, mem_documents_of_holds holds, member⟩
        have inside := runAll_comesTo (ih _ room') (Script.ofDocument document) (.leave :: rest) found targets later'
        refine .step ⟨List.suffix_rfl, List.suffix_cons _ _⟩ ?_
        simp only [Stage.step, Underway.step, Underway.pullIn, located, enter, bind, Except.bind, open_, if_false]
        have within := inside.mono (Q := Within frames rest) fun _ within =>
          within.mono (List.suffix_cons _ _) (List.suffix_cons _ _)
        refine within.trans ?_
        cases runAll (enter context store depth (frame :: frames)) (Script.ofDocument document) found with
        | error failure => exact .here trivial
        | ok s' =>
          -- The task behind the instructions of the tree takes it off the stack.
          exact .single ⟨List.suffix_cons _ _, List.suffix_cons _ _⟩ ⟨List.suffix_rfl, List.suffix_rfl⟩

end

end Walk

end Stencil
