import Stencil.Command
import Stencil.Proofs.Names
import Stencil.Proofs.Program.Header
import Stencil.Proofs.Sharing.Walk
import Stencil.Proofs.View.Requests
import Stencil.Proofs.Walk.Course
import Stencil.Proofs.Walk.Internal

/-! A check agrees with a rendering on what compiles.

A check does not put the code of the units into the ops, and it names another type of model. But ops that a walk has
made always take the code of their units, walks are the same for all types of model, and the comments in front of a
program move what is told of it and do nothing else.
-/

set_option autoImplicit false

namespace Stencil

open Json (Value)

/-! ### A new view -/

namespace Slot

variable {ρ ε : Type} {slot : Slot ρ ε}

theorem settle_of_ready (event : SlotEvent ρ ε) (ready : slot.next? = some event) :
    slot.settle = ((slot.step event).1.settle.1, (slot.step event).2 ++ (slot.step event).1.settle.2) := by
  rw [settle]
  split
  · rename_i rest
    rw [ready] at rest
    cases rest
  · rename_i other again
    rw [ready] at again
    cases again
    rfl

theorem settle_of_rest (rest : slot.next? = none) : slot.settle = (slot, []) := by
  rw [settle]
  split
  · rfl
  · rename_i event ready
    rw [rest] at ready
    cases ready

/-- A slot whose first request waits for the compile that it has started. -/
def begun (request : Nat) (task : CompileTask ρ ε) : Slot ρ ε :=
  { stored := none, tasks := [task], inFlight := some 0, guard := some request, turn := some (request, .joining)
    waiting := [] }

theorem react_arrive_empty (request : Nat) :
    (empty : Slot ρ ε).react (.arrive request) = (begun request .running, [.launch 0]) := by
  have waits : ((empty : Slot ρ ε).step (.arrive request)) = ({ (empty : Slot ρ ε) with waiting := [request] }, []) := rfl
  have granted : ({ (empty : Slot ρ ε) with waiting := [request] } : Slot ρ ε).step (.grant request) =
      ({ (empty : Slot ρ ε) with turn := some (request, .locking) }, []) := by
    simp [step, grant, empty]
  have locked : ({ (empty : Slot ρ ε) with turn := some (request, .locking) } : Slot ρ ε).step .lock =
      (begun request .running, [.launch 0]) := rfl
  rw [react, waits, settle_of_ready (.grant request) rfl, granted, settle_of_ready .lock rfl, locked,
    settle_of_rest rfl]
  rfl

theorem react_land_begun (request : Nat) (ending : Ending ρ ε) :
    ((begun request .running).react (.land 0 ending)).2 =
      [.collect 0, .answer request (.ofResult ending.result)] := by
  have landed : ((begun request .running).step (.land 0 ending)) = (begun request (.ended ending), []) := rfl
  have collected : (begun request (.ended ending)).step .collect =
      ({ begun request (.ended ending) with
          turn := some (request, .concluding ending.result), guard := none, inFlight := none }, [.collect 0]) := by
    simp [step, collect, begun, landed?]
  rw [react, landed, settle_of_ready .collect rfl, collected, settle_of_ready .conclude rfl]
  cases ending.result with
  | ok routine =>
    rw [settle_of_rest rfl]
    rfl
  | error error =>
    rw [settle_of_rest rfl]
    rfl

end Slot

namespace View

theorem work_answers (view : View) (backend : Backend) (modelType : String) :
    (view.work backend .answers modelType).2 = some (.returned
      (compileView view.context view.store backend view.options modelType view.memo).1) := by
  unfold work compileView
  cases walk view.context view.store view.memo modelType view.options.sharing <;> rfl

theorem requestAll_ofContext (context : Context) (store : Store) (options : Options) (backend : Backend)
    (modelType : String) :
    ((ofContext context store options).requestAll backend .answers modelType 1).2 =
      [.ofResult (compileView context store backend options modelType .empty).1] := by
  let view := ofContext context store options
  let next := view.setSlot modelType (Slot.begun 0 .running)
  have arrived : view.react modelType (.arrive 0) = (next, [.launch 0]) := by
    have new : view.slot modelType = .empty := rfl
    rw [react, new, Slot.react_arrive_empty]
  have first : arriveAll modelType (List.range 1) view = (next, [.launch 0]) := by
    simp only [List.range_one, arriveAll, arrived, List.append_nil]
  have begun : next.slot modelType = Slot.begun 0 .running := slot_setSlot_same ..
  have busy : (next.slot modelType).isIdle = false := by
    rw [begun]
    rfl
  have slots := next.work_slots backend .answers modelType
  have ending := next.work_answers backend modelType
  obtain ⟨worked, done⟩ : ∃ worked, next.work backend .answers modelType = (worked, some (.returned
      (compileView context store backend options modelType .empty).1)) := ⟨_, Prod.ext rfl ending⟩
  rw [done] at slots
  have still : worked.slot modelType = Slot.begun 0 .running := by
    rw [← begun, View.slot, View.slot, slots]
  have advanced : (next.advance backend .answers modelType).2 =
      [.collect 0, .answer 0 (.ofResult (compileView context store backend options modelType .empty).1)] := by
    have free : next.isStalled modelType = false := rfl
    rw [advance, free, if_neg Bool.false_ne_true, done]
    simp only [land, react, still]
    exact Slot.react_land_begun 0 _
  show answersOf ((arriveAll modelType (List.range 1) view).2 ++
    (finish backend .answers modelType 1 (arriveAll modelType (List.range 1) view).1).2) = _
  simp only [first, finish, busy, Bool.false_eq_true, if_false, advanced, List.append_nil]
  rfl

end View

theorem Renderer.units_of_assemble {modelType : String} {ops : List Op} {resolved : ResolvedUnits} {renderer : Renderer}
    (assembled : assemble modelType ops resolved = .ok renderer) : resolved.size = renderer.units := by
  unfold assemble at assembled
  cases bound : bindOps resolved ops with
  | error error =>
    rw [bound] at assembled
    cases assembled
  | ok steps =>
    rw [bound] at assembled
    cases assembled
    rfl

/-! ### Commands -/

namespace Command

/-- The stage of a rendering that compiles: the routine for the type of model that a rendering names. -/
def routine (command : Command) (store : Store) (folder : Path) : Except CommandFailure Renderer := do
  let config ← configuration store folder
  let context ← command.context config store folder
  (compileView context store interpreter config.options modelType .empty).1.mapError .compile

def written (model : Value) (renderer : Renderer) : Except CommandFailure String :=
  match (renderer.render .unlimited model).error with
  | some error => .error (.render error)
  | none => .ok (renderer.render .unlimited model).text

theorem rendered_eq (context : Context) (store : Store) (options : Options) (model : Value) :
    rendered context store options model =
      (compileView context store interpreter options modelType .empty).1.mapError .compile >>= written model := by
  have replies := View.requestAll_ofContext context store options interpreter modelType
  simp only [rendered, View.renderAll, replies, List.map_cons, List.map_nil]
  cases (compileView context store interpreter options modelType .empty).1 with
  | error error => rfl
  | ok renderer =>
    simp only [Answer.ofResult, View.deliver, Delivery.ofRendering, Delivery.text, Except.mapError, written, bind,
      Except.bind]
    cases (renderer.render .unlimited model).error <;> rfl

theorem render_eq {command : Command} {store : Store} {model : Value} (read : command.readModel store = .ok model)
    (folder : Path) : command.render store folder = command.routine store folder >>= written model := by
  simp only [render, routine, read, bind, Except.bind]
  cases configuration store folder with
  | error failure => rfl
  | ok config =>
    dsimp only
    cases command.context config store folder with
    | error failure => rfl
    | ok context => exact rendered_eq context store config.options model

theorem line_modelType : '\n' ∉ modelType.toList := by
  decide +kernel

theorem line_checkedType : '\n' ∉ checkedType.toList := by
  decide +kernel

/-- Whether a check has the outcome of compiling for a rendering, with the same problems but for their places. -/
inductive Agrees (command : Command) (store : Store) (folder : Path) : Except CommandFailure Renderer → Outcome → Prop
  | compiles (renderer : Renderer) (partials : Nat) :
    Agrees command store folder (.ok renderer) (.done (command.heading ++ summary renderer.units partials))
  | problems {config : Config} {context : Context} {walked : Walked} {diagnostics checked : List Diagnostic}
    (configured : configuration store folder = .ok config) (loaded : command.context config store folder = .ok context)
    (examined : walk context store .empty checkedType config.options.sharing = .ok walked)
    (refused : walked.units.compile interpreter config.options.references =
      .error (.compilationFailed checkedType checked))
    (same : checked.map Diagnostic.gist = diagnostics.map Diagnostic.gist) :
    Agrees command store folder (.error (.compile (.compilationFailed modelType diagnostics)))
      { output := command.heading, failure := some (.problems diagnostics.length)
        reports := checked.map (Report.ofDiagnostic walked.units.programText) }
  | fails (failure : CommandFailure) (output : String) :
    Agrees command store folder (.error failure) (.failed output failure)

section

variable {command : Command} {store : Store} {folder : Path}

theorem examine_agrees {config : Config} {context : Context} (configured : configuration store folder = .ok config)
    (loaded : command.context config store folder = .ok context) :
    command.Agrees store folder
      ((compileView context store interpreter config.options modelType .empty).1.mapError .compile)
      { examine context store config.options with
        output := command.heading ++ (examine context store config.options).output } := by
  -- The walk of the check is that of the compile for another type of model, and its units go into a like program.
  have again := walk_recast context store .empty modelType checkedType config.options.sharing
  have fits := @walk_fits context store .empty modelType config.options.sharing
  unfold examine compileView
  cases ended : walk context store .empty modelType config.options.sharing with
  | error failure =>
    rw [ended] at again
    rw [again]
    exact .fails (.compile failure.error) _
  | ok walked =>
    rw [ended] at again fits
    obtain ⟨calls, registered⟩ := Walked.exists_registerAll ended
    have named := UnitTable.isUnitName_registerAll modelType config.options.sharing calls
    have type := (UnitTable.settings_registerAll (.empty modelType config.options.sharing) calls).1
    rw [← registered] at named type
    have line : '\n' ∉ walked.units.modelType.toList := type ▸ line_modelType
    obtain ⟨resolved, compiled, compiled'⟩ | ⟨diagnostics, checked, refused, refused', same⟩ :=
      UnitTable.compile_header (walked.recast checkedType).units config.options.references (.refl walked.units.units)
        named line line_checkedType
    · obtain ⟨renderer, assembled⟩ := Renderer.exists_assemble (UnitTable.covers_of_compile compiled) fits
        walked.units.modelType
      have units : resolved.size = renderer.units := Renderer.units_of_assemble assembled
      have routine : walked.compile interpreter config.options.references = .ok renderer := by
        rw [Walked.compile, compiled]
        exact assembled
      simp only [again, Except.map, compiled', routine, units]
      exact .compiles renderer _
    · have routine : walked.compile interpreter config.options.references =
          .error (.compilationFailed modelType diagnostics) := by
        rw [Walked.compile, refused, type]
        rfl
      have count : checked.length = diagnostics.length := by
        rw [← List.length_map, same, List.length_map]
      simp only [again, Except.map, refused', routine, count, String.append_empty]
      exact .problems configured loaded again refused' same

theorem Agrees.failure_eq_none_iff {compiled : Except CommandFailure Renderer} {outcome : Outcome}
    (agrees : command.Agrees store folder compiled outcome) :
    outcome.failure = none ↔ ∃ renderer, compiled = .ok renderer := by
  cases agrees <;> simp [Outcome.done, Outcome.failed]

variable (command store folder) in
/-- A check succeeds exactly if the compile of a rendering does. They fail with the same failure, or with the same units,
messages and lines of the templates for the problems with the units. -/
theorem check_agrees :
    command.Agrees store folder (command.routine store folder) (command.check store folder) ∧
      ((command.check store folder).failure = none ↔ ∃ renderer, command.routine store folder = .ok renderer) ∧
      ∀ model, command.readModel store = .ok model →
        command.render store folder = command.routine store folder >>= written model := by
  have agrees : command.Agrees store folder (command.routine store folder) (command.check store folder) := by
    unfold routine check
    cases configured : configuration store folder with
    | error failure => exact .fails failure _
    | ok config =>
      cases loaded : command.context config store folder with
      | error failure =>
        simp only [bind, Except.bind, loaded]
        exact .fails failure _
      | ok context =>
        simp only [bind, Except.bind, loaded]
        exact examine_agrees configured loaded
  exact ⟨agrees, agrees.failure_eq_none_iff, fun model read => render_eq read folder⟩

end

end Command

end Stencil
