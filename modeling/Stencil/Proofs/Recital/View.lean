import Stencil.Proofs.Backend
import Stencil.Store.Files
import Stencil.Proofs.Recital.Walk

/-! Rendering a compiled view writes what its trees say. -/

set_option autoImplicit false

namespace Stencil

open Json (Value)

/-- Whether the backend's answer for a table gives each unit the meaning of its kind and code. Of a unit that
shares its name with another kind or code nothing is asked. -/
def Backend.Gives (backend : Backend) (m : Meaning) (table : UnitTable) (references : List String) : Prop :=
  ∀ library, backend (table.request references) = .ok library →
    ∀ unit ∈ table.units,
      (∀ other ∈ table.units, other.name = unit.name → other.kind = unit.kind ∧ other.source = unit.source) →
      library.entryPoint? unit.name = some (m.entryPoint unit.kind unit.source)

theorem Meaning.entryPoint_eq_text {m : Meaning} {kind : ReturnKind} {source : String}
    {call : Value → Except UnitError String} (h : m.entryPoint kind source = .text call) :
    kind = .text ∧ call = m.text source := by
  cases kind <;> cases h
  exact ⟨rfl, rfl⟩

theorem Meaning.entryPoint_eq_boolean {m : Meaning} {kind : ReturnKind} {source : String}
    {call : Value → Except UnitError Bool} (h : m.entryPoint kind source = .boolean call) :
    kind = .boolean ∧ call = m.holds source := by
  cases kind <;> cases h
  exact ⟨rfl, rfl⟩

structure ResolvedUnits.Mean (resolved : ResolvedUnits) (m : Meaning) (units : List CodeUnit) : Prop where
  get?_eq : ∀ handle, resolved.get? handle = units[handle]?.map fun unit => m.entryPoint unit.kind unit.source
  name_eq : ∀ (handle : Nat) (unit : CodeUnit), units[handle]? = some unit → resolved.name handle = unit.name

namespace Rendering

theorem text_concat (writes : List String) (text : String) (error : Option RenderError) :
    ({ writes := writes ++ [text], error } : Rendering).text = String.join writes ++ text := by
  simp [Rendering.text, String.join]

theorem write_recites {sink : Sink} (accepts : ∀ written text, sink written text = true) {units : List CodeUnit}
    {rendering : Rendering} {r : Recital} (h : rendering.Recites units (.ok r)) (text : String)
    {r' : Recital} (same : r'.text = r.text ++ text) : (rendering.write sink text).Recites units (.ok r') := by
  simp only [Recites, write, accepts, if_true, text_concat] at *
  exact ⟨by rw [same, ← h.1]; rfl, h.2⟩

/-- Whether a choice has been answered does not show in a rendering. -/
theorem Recites.map {rendering : Rendering} {units : List CodeUnit} {outcome : Recited}
    (h : rendering.Recites units outcome) {f : Recital → Recital} (same : ∀ r, (f r).text = r.text) :
    rendering.Recites units (outcome.map f) := by
  cases outcome with
  | ok r => exact ⟨h.1.trans (same r).symm, h.2⟩
  | error halt => cases halt <;> exact h

end Rendering

theorem Recital.sayOtherwise_of_holds (m : Meaning) (model : Value) (units : List CodeUnit)
    (otherwise : Option (List Op)) (r : Recital) :
    ∃ r', sayOtherwise m model units otherwise { r with choice := some true } = .ok r' ∧ r'.text = r.text := by
  cases otherwise with
  | none => exact ⟨_, rfl, rfl⟩
  | some branch => exact ⟨_, rfl, rfl⟩

namespace Renderer

variable {m : Meaning} {model : Value} {units : List CodeUnit} {resolved : ResolvedUnits} {sink : Sink}

theorem fail_recites (means : resolved.Mean m units) {handle : Nat} {unit : CodeUnit}
    (known : units[handle]? = some unit) {rendering : Rendering} {r : Recital}
    (here : rendering.Recites units (.ok r)) (error : UnitError) :
    (rendering.fail (resolved.name handle) error).Recites units
      (.error (.failure r.text unit.kind unit.source error)) := by
  refine ⟨here.1, unit, List.mem_of_getElem? known, rfl, rfl, ?_⟩
  rw [means.name_eq handle unit known]
  rfl

theorem branch_recites (means : resolved.Mean m units) {handle : Nat} {unit : CodeUnit}
    (known : units[handle]? = some unit) (kind : unit.kind = .boolean) {body : List Op}
    {otherwise : Option (List Op)} {bodySteps otherSteps : List Step} {rendering : Rendering} {r : Recital}
    (here : rendering.Recites units (.ok r))
    (taken : (runSteps sink model bodySteps rendering).Recites units
      (Recital.sayOps m model units body { r with choice := none }))
    (others : (runSteps sink model otherSteps rendering).Recites units
      (Recital.sayOtherwise m model units otherwise { r with choice := some false })) :
    (runStep sink model (.branch (resolved.name handle) (m.holds unit.source) bodySteps otherSteps)
      rendering).Recites units (Recital.sayOp m model units (.conditional handle body otherwise) r) := by
  simp only [runStep, Recital.sayOp, known, Recital.choose]
  cases m.holds unit.source model with
  | error error =>
    rw [← kind]
    exact fail_recites means known here error
  | ok holds =>
    cases holds with
    | false => exact others
    | true =>
      cases said : Recital.sayOps m model units body { r with choice := none } with
      | error halt =>
        rw [said] at taken
        simpa only [Except.map, bind, Except.bind] using taken
      | ok last =>
        -- The second branch comes right behind a choice that holds.
        obtain ⟨after, silent, same⟩ := Recital.sayOtherwise_of_holds m model units otherwise last
        rw [said] at taken
        simp only [Except.map, bind, Except.bind, silent]
        exact ⟨taken.1.trans same.symm, taken.2⟩

/-- Steps go on behind a step only where nothing has failed, as a recital does. -/
theorem cons_recites {step : Step} {more : List Step} {rendering : Rendering} {told : Recited}
    {say : Recital → Recited} (first : (runStep sink model step rendering).Recites units told)
    (next : ∀ r, told = .ok r → (runSteps sink model more (runStep sink model step rendering)).Recites units (say r)) :
    (runSteps sink model (step :: more) rendering).Recites units (told.bind say) := by
  simp only [runSteps]
  cases told with
  | ok r =>
    rw [first.2]
    exact next r rfl
  | error halt =>
    cases halt with
    | senseless => exact first.elim
    | failure text kind source error =>
      have stopped : (runStep sink model step rendering).error.isSome = true := by
        obtain ⟨_, _, _, _, _, failed⟩ := first
        rw [failed]
        rfl
      rw [if_pos stopped]
      exact first

mutual

theorem runStep_recites (accepts : ∀ written text, sink written text = true)
    (means : resolved.Mean m units) : ∀ (op : Op) {step : Step} {rendering : Rendering} {r : Recital},
    bindOp resolved op = .ok step → rendering.Recites units (.ok r) →
    (runStep sink model step rendering).Recites units (Recital.sayOp m model units op r)
  | .text content, step, rendering, r, h, here => by
    cases h
    exact Rendering.write_recites accepts here content rfl
  | .expression handle, step, rendering, r, h, here => by
    simp only [bindOp] at h
    split at h
    · rename_i call found
      cases h
      rw [means.get?_eq] at found
      obtain ⟨unit, known, entry⟩ := Option.map_eq_some_iff.1 found
      obtain ⟨kind, rfl⟩ := Meaning.entryPoint_eq_text entry
      simp only [runStep, Recital.sayOp, known, Recital.print]
      cases m.text unit.source model with
      | ok text => exact Rendering.write_recites accepts here text rfl
      | error error =>
        rw [← kind]
        exact fail_recites means known here error
    · cases h
  | .conditional handle body otherwise, step, rendering, r, h, here => by
    simp only [bindOp] at h
    split at h
    · rename_i call found
      rw [means.get?_eq] at found
      obtain ⟨unit, known, entry⟩ := Option.map_eq_some_iff.1 found
      obtain ⟨kind, rfl⟩ := Meaning.entryPoint_eq_boolean entry
      -- Both branches are bound before the condition is known; only one of them runs.
      cases first : bindOps resolved body with
      | error error => simp [first, bind, Except.bind] at h
      | ok bodySteps =>
        cases second : bindOtherwise resolved otherwise with
        | error error => simp [first, second, bind, Except.bind] at h
        | ok otherSteps =>
          simp only [first, second, bind, Except.bind, pure, Except.pure, Except.ok.injEq] at h
          subst h
          apply branch_recites means known kind here
          · exact runSteps_recites accepts means body first here
          · exact otherSteps_recites accepts means otherwise second rfl here
    · cases h

theorem otherSteps_recites (accepts : ∀ written text, sink written text = true)
    (means : resolved.Mean m units) : ∀ (otherwise : Option (List Op)) {steps : List Step}
    {rendering : Rendering} {r : Recital}, bindOtherwise resolved otherwise = .ok steps → r.choice = some false →
    rendering.Recites units (.ok r) →
    (runSteps sink model steps rendering).Recites units (Recital.sayOtherwise m model units otherwise r)
  | none, steps, rendering, r, h, _, here => by
    cases h
    exact here
  | some branch, steps, rendering, r, h, failed, here => by
    simp only [Recital.sayOtherwise, Recital.otherwise, failed]
    exact (runSteps_recites accepts means branch h (r := { r with choice := none }) here).map fun _ => rfl

theorem runSteps_recites (accepts : ∀ written text, sink written text = true)
    (means : resolved.Mean m units) : ∀ (ops : List Op) {steps : List Step} {rendering : Rendering} {r : Recital},
    bindOps resolved ops = .ok steps → rendering.Recites units (.ok r) →
    (runSteps sink model steps rendering).Recites units (Recital.sayOps m model units ops r)
  | [], steps, rendering, r, h, here => by
    cases h
    exact here
  | op :: rest, steps, rendering, r, h, here => by
    cases first : bindOp resolved op with
    | error error => simp [bindOps, first, bind, Except.bind] at h
    | ok step =>
      cases others : bindOps resolved rest with
      | error error => simp [bindOps, first, others, bind, Except.bind] at h
      | ok more =>
        simp only [bindOps, first, others, bind, Except.bind, pure, Except.pure, Except.ok.injEq] at h
        subst h
        have ran := runStep_recites accepts means op first here
        apply cons_recites ran
        intro next said
        rw [said] at ran
        exact runSteps_recites accepts means rest others ran

end

end Renderer

/-- The entry points that a successful compile finds are those that the units mean, if no two of them share a
name. -/
theorem ResolvedUnits.Mean.of_gives {backend : Backend} {m : Meaning} {table : UnitTable}
    {references : List String} {resolved : ResolvedUnits} (gives : backend.Gives m table references)
    (apart : ∀ unit ∈ table.units, ∀ other ∈ table.units, other.name = unit.name →
      other.kind = unit.kind ∧ other.source = unit.source)
    (compiled : table.compile backend references = .ok resolved) :
    resolved.Mean m table.units := by
  obtain ⟨library, answered, good, names, entries⟩ := UnitTable.compile_eq_ok_iff.1 compiled
  refine ⟨fun handle => ?_, fun _ _ found => resolved.name_eq names found⟩
  rw [ResolvedUnits.get?_eq good entries]
  cases found : table.units[handle]? with
  | none => rfl
  | some unit =>
    have member : unit ∈ table.units := List.mem_of_getElem? found
    obtain ⟨entry, resolves⟩ := good unit member
    have given := gives library answered unit member (apart unit member)
    rw [(CodeUnit.resolve_eq_ok_iff.1 resolves).1, Option.some.injEq] at given
    simp [resolves, given, Except.toOption]

/-- Into a sink that takes everything, a compiled view is rendered as its trees say, up to the piece of code that
fails. The trees are those that are remembered or read from the store. -/
theorem render_recites {context : Context} {store : Store} {backend : Backend} {options : Options}
    {modelType : String} {memo : Memo} {walked : Walked} {renderer : Renderer} {m : Meaning}
    (walks : walk context store memo modelType options.sharing = .ok walked)
    (gives : backend.Gives m walked.units options.references)
    (apart : ∀ unit ∈ walked.units.units, ∀ other ∈ walked.units.units, other.name = unit.name →
      other.kind = unit.kind ∧ other.source = unit.source)
    (compiled : (compileView context store backend options modelType memo).1 = .ok renderer)
    {sink : Sink} (accepts : ∀ written text, sink written text = true) (model : Value) :
    memo.GrownFrom store walked.memo ∧
      ∀ depth ≥ Walk.depthBound context store memo,
        (renderer.render sink model).Recites walked.units.units
          (Recital.ofView m model context walked.memo depth) := by
  have origin := (sayOps_of_walk walks m model (Nat.le_refl _)).2
  refine ⟨origin, fun depth deep => ?_⟩
  rw [← (sayOps_of_walk walks m model deep).1]
  -- The steps of the routine are the ops of the walk, with the entry points of the batch in place of handles.
  simp only [compileView, walks, Walked.compile] at compiled
  cases resolves : walked.units.compile backend options.references with
  | error error => simp [resolves, bind, Except.bind] at compiled
  | ok resolved =>
    cases steps : Renderer.bindOps resolved walked.ops with
    | error error => simp [resolves, Renderer.assemble, steps, bind, Except.bind] at compiled
    | ok found =>
      simp only [resolves, Renderer.assemble, steps, bind, Except.bind, pure, Except.pure,
        Except.ok.injEq] at compiled
      subst compiled
      exact Renderer.runSteps_recites accepts (.of_gives gives apart resolves) walked.ops steps ⟨rfl, rfl⟩

/-! A layout around a greeting, compiled by a backend that echoes. -/

namespace Recital.Greeting

/-- The text of a piece of code is the code, and a condition is the model itself. -/
def echo : Meaning where
  text source _ := .ok source
  holds _ model :=
    match model with
    | .bool b => .ok b
    | _ => .error (.other "model is not a bool")

def context : Context where
  layout := some ⟨[.textLine [.text "<" 1] 1, .directive "yield" 2]⟩
  main := ⟨[.code "if (model.ok)" [.text "yes" 2] 1, .code "else" [.eval "model.name" 4] 3]⟩
  folder := ⟨"views"⟩
  extension := "haml"

def walked : Walked where
  ops := [.text "<", .conditional 0 [.text "yes"] (some [.expression 1])]
  units :=
    { modelType := "Page"
      sharing := .dedupe
      units := [⟨unitName .boolean "model.ok", "model.ok", .boolean, 1⟩,
        ⟨unitName .text "model.name", "model.name", .text, 4⟩] }
  memo := .empty

def library : Library where
  entryPoint? name :=
    (walked.units.units.find? fun unit => unit.name = name).map fun unit => echo.entryPoint unit.kind unit.source

theorem depthBound_eq : Walk.depthBound context Files.empty.store .empty = 3 := by decide +kernel

theorem script_root : Script.ofDocument context.root = [.write "<", .pull .main] := rfl

theorem script_main : Script.ofDocument context.main =
    [.choose "model.ok" 1 [.write "yes"], .otherwise 3 [.print "model.name" 4]] := rfl

theorem walk_eq : walk context Files.empty.store .empty "Page" Options.standard.sharing = .ok walked := by
  have sharing : Options.standard.sharing = .dedupe := rfl
  obtain ⟨depth, bound⟩ : ∃ depth, Walk.depthBound context Files.empty.store .empty = depth + 1 :=
    ⟨2, depthBound_eq⟩
  have opened : Walk.openedAtStart context = [] := rfl
  have condition : Text.trimText "model.ok" = "model.ok" := by rfl
  have source : Text.trimText "model.name" = "model.name" := by rfl
  have entered (s : WalkState) : Walk.enter context Files.empty.store (depth + 1) [] .main s =
      Walk.runAll (Walk.enter context Files.empty.store depth [.main]) (Script.ofDocument context.main) s := by
    simp only [Walk.enter, Walk.locate, bind, Except.bind, List.not_mem_nil, if_false]
  rw [script_main] at entered
  simp only [walk, script_root, bound, opened, sharing]
  -- The main template is entered by its equation alone; what enters further trees stays closed.
  generalize Walk.enter context Files.empty.store depth [.main] = inner at entered
  generalize Walk.enter context Files.empty.store (depth + 1) [] = outer at entered
  simp [Walk.runAll, Walk.run, entered, WalkState.start, WalkState.write, WalkState.condition,
    WalkState.pushScope, WalkState.endChoice, WalkState.popScope, WalkState.endOtherwise, WalkState.print,
    WalkState.finish, UnitTable.register, condition, source, UnitTable.find?, UnitTable.append,
    UnitTable.nameFor, UnitTable.empty, Builder.empty, Builder.write, Builder.pushScope, Builder.flush,
    Builder.popScope, Builder.conditional, Builder.emit, Builder.canAttachElse, Op.isOpenConditional,
    Builder.expression, Builder.attachElse?, Builder.attachToLast?, Builder.finish?, bind, Except.bind, pure,
    Except.pure, walked]

theorem names_differ : unitName .boolean "model.ok" ≠ unitName .text "model.name" := by decide +kernel

theorem apart : ∀ unit ∈ walked.units.units, ∀ other ∈ walked.units.units, other.name = unit.name →
    other.kind = unit.kind ∧ other.source = unit.source := by
  simp [walked, names_differ, names_differ.symm]

theorem entryPoint?_eq {unit : CodeUnit} (member : unit ∈ walked.units.units) :
    library.entryPoint? unit.name = some (echo.entryPoint unit.kind unit.source) := by
  simp only [walked, List.mem_cons, List.not_mem_nil, or_false] at member
  rcases member with rfl | rfl
  · simp [library, walked]
  · simp [library, walked, names_differ]

theorem gives : Backend.Gives (fun _ => .ok library) echo walked.units Options.standard.references := by
  intro given answered unit member _
  cases answered
  exact entryPoint?_eq member

theorem compiled : ∃ renderer,
    (compileView context Files.empty.store (fun _ => .ok library) .standard "Page" .empty).1 = .ok renderer := by
  have resolve (unit : CodeUnit) (member : unit ∈ walked.units.units) :
      ∃ entry, unit.resolve library = .ok entry := by
    refine ⟨_, CodeUnit.resolve_eq_ok_iff.2 ⟨entryPoint?_eq member, ?_⟩⟩
    cases unit.kind <;> rfl
  obtain ⟨units, resolved⟩ : ∃ units,
      walked.units.compile (fun _ => .ok library) Options.standard.references = .ok units :=
    UnitTable.exists_compile (by rfl) resolve
  have means := ResolvedUnits.Mean.of_gives gives apart resolved
  simp only [compileView, walk_eq, Walked.compile, resolved]
  simp only [Renderer.assemble, walked, Renderer.bindOps, Renderer.bindOp, Renderer.bindOtherwise, means.get?_eq,
    List.getElem?_cons_zero, List.getElem?_cons_succ, Option.map_some, Meaning.entryPoint, bind, Except.bind, pure,
    Except.pure]
  exact ⟨_, rfl⟩

theorem said : Recital.ofView echo (.bool true) context walked.memo 3 = .ok ⟨"<yes", none⟩ := by
  have main (r : Recital) : Recital.ofTarget echo (.bool true) context walked.memo 3 .main r =
      tellAll echo (.bool true) (Recital.ofTarget echo (.bool true) context walked.memo 2)
        (Script.ofDocument context.main) r := by
    rw [Script.ofDocument, tellAll_ofNodes]
    rfl
  rw [Recital.ofView, ← tellAll_ofNodes, ← Script.ofDocument, script_root]
  simp only [tellAll, tell, main, script_main]
  simp [Recital.choose, Recital.otherwise, Recital.write, echo, start, bind, Except.bind, Except.map]

end Recital.Greeting

open Recital.Greeting in
theorem render_recites_greeting :
    ∃ renderer, (compileView context Files.empty.store (fun _ => .ok library) .standard "Page" .empty).1 =
        .ok renderer ∧
      (renderer.render .unlimited (.bool true)).Recites walked.units.units (.ok ⟨"<yes", none⟩) := by
  obtain ⟨renderer, compiled⟩ := compiled
  refine ⟨renderer, compiled, ?_⟩
  have recites := (render_recites walk_eq gives apart compiled (fun _ _ => rfl) (.bool true)).2 3
    (Nat.le_of_eq depthBound_eq)
  rwa [said] at recites

end Stencil
