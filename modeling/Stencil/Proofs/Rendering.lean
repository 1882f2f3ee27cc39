import Stencil.Proofs.Choice.Ops
import Stencil.Renderer.Run

/-! Where a run is cut off.

A run tries one thing after the other: it asks units, and it hands texts to the sink. What it tries next does not depend
on the sink, unless the sink refuses a text, and then it tries nothing more. So a run into any sink does what a run into
one that takes everything does, up to the first text that is refused.
-/

set_option autoImplicit false

namespace Stencil

open Json (Value)

/-- What a run tries. -/
inductive Attempt where
  /-- A unit is asked, and fails if there is a failure. -/
  | ask (unit : String) (failure : Option UnitError)
  | write (text : String)

def Attempt.text? : Attempt → Option String
  | .ask _ _ => none
  | .write text => some text

def textsOf (attempts : List Attempt) : List String := attempts.filterMap Attempt.text?

@[simp] theorem textsOf_append (first rest : List Attempt) : textsOf (first ++ rest) = textsOf first ++ textsOf rest :=
  List.filterMap_append

@[simp] theorem textsOf_write (text : String) (later : List Attempt) :
    textsOf (.write text :: later) = text :: textsOf later := rfl

structure Trace where
  rendering : Rendering
  attempts : List Attempt

namespace Trace

def behind (attempt : Attempt) (t : Trace) : Trace := { t with attempts := attempt :: t.attempts }

def andThen (first rest : Trace) : Trace := { rest with attempts := first.attempts ++ rest.attempts }

end Trace

namespace Renderer

mutual

def traceStep (sink : Sink) (model : Value) : Step → Rendering → Trace
  | .write text, r => ⟨r.write sink text, [.write text]⟩
  | .print unit call, r =>
    match call model with
    | .ok text => ⟨r.write sink text, [.ask unit none, .write text]⟩
    | .error error => ⟨r.fail unit error, [.ask unit (some error)]⟩
  | .branch unit condition body otherwise, r =>
    match condition model with
    | .ok true => (traceSteps sink model body r).behind (.ask unit none)
    | .ok false => (traceSteps sink model otherwise r).behind (.ask unit none)
    | .error error => ⟨r.fail unit error, [.ask unit (some error)]⟩

def traceSteps (sink : Sink) (model : Value) : List Step → Rendering → Trace
  | [], r => ⟨r, []⟩
  | step :: rest, r =>
    let first := traceStep sink model step r
    if first.rendering.error.isSome then first else first.andThen (traceSteps sink model rest first.rendering)

end

def trace (renderer : Renderer) (sink : Sink) (model : Value) : Trace := traceSteps sink model renderer.steps .empty

mutual

theorem rendering_traceStep (sink : Sink) (model : Value) :
    ∀ (step : Step) (r : Rendering), (traceStep sink model step r).rendering = runStep sink model step r
  | .write text, r => rfl
  | .print unit call, r => by
    simp only [traceStep, runStep]
    cases call model <;> rfl
  | .branch unit condition body otherwise, r => by
    simp only [traceStep, runStep]
    cases condition model with
    | error error => rfl
    | ok holds =>
      cases holds with
      | true => exact rendering_traceSteps sink model body r
      | false => exact rendering_traceSteps sink model otherwise r

/-- Telling what is tried changes nothing about a run. -/
theorem rendering_traceSteps (sink : Sink) (model : Value) :
    ∀ (steps : List Step) (r : Rendering), (traceSteps sink model steps r).rendering = runSteps sink model steps r
  | [], r => rfl
  | step :: rest, r => by
    simp only [traceSteps, runSteps, rendering_traceStep sink model step r]
    split
    · exact rendering_traceStep sink model step r
    · exact rendering_traceSteps sink model rest _

end

end Renderer

/-! ### Runs into a sink that takes everything -/

/-- A run on from `r` that no sink has cut off: it has written all that it has tried to write, and it has failed only
where a unit that was asked last has failed. -/
structure Trace.Uncut (r : Rendering) (t : Trace) : Prop where
  writes : t.rendering.writes = r.writes ++ textsOf t.attempts
  error : t.rendering.error = none ∨ ∃ seen unit failure, t.attempts = seen ++ [.ask unit (some failure)] ∧
    t.rendering.error = some (.expression unit failure)

namespace Trace.Uncut

variable {r : Rendering} {first rest : Trace}

theorem ask_behind (uncut : rest.Uncut r) (unit : String) : (rest.behind (.ask unit none)).Uncut r := by
  refine ⟨uncut.writes, uncut.error.imp_right ?_⟩
  rintro ⟨seen, other, failure, last, failed⟩
  exact ⟨.ask unit none :: seen, other, failure, by rw [Trace.behind, last]; rfl, failed⟩

theorem andThen (uncut : first.Uncut r) (uncut' : rest.Uncut first.rendering) : (first.andThen rest).Uncut r := by
  refine ⟨?_, uncut'.error.imp_right ?_⟩
  · rw [Trace.andThen, uncut'.writes, uncut.writes, textsOf_append, List.append_assoc]
  · rintro ⟨seen, unit, failure, last, failed⟩
    exact ⟨first.attempts ++ seen, unit, failure, by rw [Trace.andThen, last, List.append_assoc], failed⟩

theorem written (r : Rendering) (text : String) (fine : r.error = none) (attempts : List Attempt)
    (texts : textsOf attempts = [text]) : Uncut r ⟨r.write .unlimited text, attempts⟩ :=
  ⟨by rw [texts]; rfl, .inl fine⟩

theorem failed (r : Rendering) (unit : String) (failure : UnitError) :
    Uncut r ⟨r.fail unit failure, [.ask unit (some failure)]⟩ :=
  ⟨(List.append_nil _).symm, .inr ⟨[], unit, failure, rfl, rfl⟩⟩

end Trace.Uncut

namespace Renderer

mutual

theorem traceStep_uncut (model : Value) : ∀ (step : Step) (r : Rendering), r.error = none →
    (traceStep .unlimited model step r).Uncut r
  | .write text, r, fine => .written r text fine _ rfl
  | .print unit call, r, fine => by
    simp only [traceStep]
    cases call model with
    | ok text => exact .written r text fine _ rfl
    | error failure => exact .failed r unit failure
  | .branch unit condition body otherwise, r, fine => by
    simp only [traceStep]
    cases condition model with
    | error failure => exact .failed r unit failure
    | ok holds =>
      cases holds with
      | true => exact (traceSteps_uncut model body r fine).ask_behind unit
      | false => exact (traceSteps_uncut model otherwise r fine).ask_behind unit

theorem traceSteps_uncut (model : Value) : ∀ (steps : List Step) (r : Rendering), r.error = none →
    (traceSteps .unlimited model steps r).Uncut r
  | [], r, fine => ⟨(List.append_nil _).symm, .inl fine⟩
  | step :: rest, r, fine => by
    have uncut := traceStep_uncut model step r fine
    simp only [traceSteps]
    split
    · exact uncut
    · rename_i on
      exact uncut.andThen (traceSteps_uncut model rest _ (Option.not_isSome_iff_eq_none.1 on))

end

end Renderer

/-! ### Runs into a sink that refuses -/

/-- Whether a sink takes texts one after the other, after the texts that it has taken before. -/
def Sink.takes (sink : Sink) : (earlier texts : List String) → Bool
  | _, [] => true
  | earlier, text :: rest => sink earlier text && takes sink (earlier ++ [text]) rest

theorem Sink.takes_append (sink : Sink) (earlier first rest : List String) :
    sink.takes earlier (first ++ rest) = (sink.takes earlier first && sink.takes (earlier ++ first) rest) := by
  induction first generalizing earlier with
  | nil => simp [takes]
  | cons text first ih => simp [takes, ih, Bool.and_assoc]

/-- A run `cut` that does what the run `free` does, as long as the sink takes the texts: to the end, or up to the first
one that is refused. -/
inductive Trace.Follows (sink : Sink) (earlier : List String) (free : Trace) : (cut : Trace) → Prop
  | through (taken : sink.takes earlier (textsOf free.attempts) = true) : Follows sink earlier free free
  | refused {seen later : List Attempt} {text : String} (attempts : free.attempts = seen ++ .write text :: later)
      (taken : sink.takes earlier (textsOf seen) = true) (refuses : sink (earlier ++ textsOf seen) text = false) :
      Follows sink earlier free ⟨⟨earlier ++ textsOf seen, some .sink⟩, seen ++ [.write text]⟩

namespace Trace.Follows

variable {sink : Sink} {earlier : List String} {free cut : Trace}

theorem ask_behind (follows : Follows sink earlier free cut) (unit : String) :
    Follows sink earlier (free.behind (.ask unit none)) (cut.behind (.ask unit none)) := by
  cases follows with
  | through taken => exact .through taken
  | @refused seen later text attempts taken refuses =>
    have here : (free.behind (.ask unit none)).attempts = (.ask unit none :: seen) ++ .write text :: later :=
      congrArg (List.cons _) attempts
    exact refused here taken refuses

theorem eq_of_takes (follows : Follows sink earlier free cut)
    (taken : sink.takes earlier (textsOf free.attempts) = true) : cut = free := by
  cases follows with
  | through => rfl
  | refused attempts takes refuses =>
    simp [attempts, Sink.takes_append, takes, Sink.takes, refuses] at taken

theorem of_refused (follows : Follows sink earlier free cut)
    (refused : sink.takes earlier (textsOf free.attempts) = false) :
    ∃ seen text later, free.attempts = seen ++ .write text :: later ∧ sink.takes earlier (textsOf seen) = true ∧
      sink (earlier ++ textsOf seen) text = false ∧
      cut = ⟨⟨earlier ++ textsOf seen, some .sink⟩, seen ++ [.write text]⟩ := by
  cases follows with
  | through taken => exact absurd (taken.symm.trans refused) Bool.noConfusion
  | refused attempts taken refuses => exact ⟨_, _, _, attempts, taken, refuses, rfl⟩

/-- One more text, behind attempts that hand nothing to the sink. -/
theorem written (r : Rendering) (text : String) (asked : List Attempt) (silent : textsOf asked = []) :
    Follows sink r.writes ⟨r.write .unlimited text, asked ++ [.write text]⟩
      ⟨r.write sink text, asked ++ [.write text]⟩ := by
  cases takes : sink r.writes text with
  | true =>
    have same : r.write sink text = r.write .unlimited text := by simp [Rendering.write, takes, Sink.unlimited]
    rw [same]
    have texts : textsOf (asked ++ [.write text]) = [text] := by
      rw [textsOf_append, silent]
      rfl
    exact .through (by simp only [texts, Sink.takes, takes, Bool.and_self])
  | false =>
    have same : r.write sink text = ⟨r.writes ++ textsOf asked, some .sink⟩ := by
      simp [Rendering.write, takes, silent]
    rw [same]
    have last : asked ++ [.write text] = asked ++ .write text :: [] := rfl
    exact .refused last (by rw [silent]; rfl) (by rw [silent, List.append_nil, takes])

/-- Where a run goes on behind a first part, the other one goes on too, or has been cut off in that part. -/
theorem andThen {r : Rendering} (follows : Follows sink r.writes free cut) (uncut : free.Uncut r)
    {rest : Trace} (goOn : Rendering → Trace) (fine : free.rendering.error = none)
    (behind : Follows sink free.rendering.writes rest (goOn free.rendering)) :
    Follows sink r.writes (free.andThen rest)
      (if cut.rendering.error.isSome then cut else cut.andThen (goOn cut.rendering)) := by
  -- Cut off in the first part, the run does not go on; else all of that is in front of what is cut.
  cases follows with
  | through taken =>
    rw [uncut.writes] at behind
    simp only [fine, Option.isSome_none, Bool.false_eq_true, if_false]
    generalize goOn free.rendering = last at behind
    cases behind with
    | through taken' =>
      exact .through (by simp only [Trace.andThen, textsOf_append, Sink.takes_append, taken, taken', Bool.and_self])
    | @refused seen later text attempts taken' refuses =>
      have here : (free.andThen rest).attempts = (free.attempts ++ seen) ++ .write text :: later := by
        simp [Trace.andThen, attempts]
      have joined : Follows sink r.writes (free.andThen rest) _ := refused here
        (by simp only [textsOf_append, Sink.takes_append, taken, taken', Bool.and_self])
        (by rw [textsOf_append, ← List.append_assoc, refuses])
      simpa [Trace.andThen] using joined
  | @refused seen later text attempts taken refuses =>
    have here : (free.andThen rest).attempts = seen ++ .write text :: (later ++ rest.attempts) := by
      simp [Trace.andThen, attempts]
    exact refused here taken refuses

end Trace.Follows

namespace Renderer

mutual

theorem traceStep_follows (sink : Sink) (model : Value) : ∀ (step : Step) (r : Rendering), r.error = none →
    Trace.Follows sink r.writes (traceStep .unlimited model step r) (traceStep sink model step r)
  | .write text, r, _ => .written r text [] rfl
  | .print unit call, r, _ => by
    simp only [traceStep]
    cases call model with
    | ok text => exact .written r text [.ask unit none] rfl
    | error failure => exact .through rfl
  | .branch unit condition body otherwise, r, fine => by
    simp only [traceStep]
    cases condition model with
    | error failure => exact .through rfl
    | ok holds =>
      cases holds with
      | true => exact (traceSteps_follows sink model body r fine).ask_behind unit
      | false => exact (traceSteps_follows sink model otherwise r fine).ask_behind unit

/-- What a run tries does not depend on the sink, up to the first text that the sink refuses. -/
theorem traceSteps_follows (sink : Sink) (model : Value) : ∀ (steps : List Step) (r : Rendering), r.error = none →
    Trace.Follows sink r.writes (traceSteps .unlimited model steps r) (traceSteps sink model steps r)
  | [], _, _ => .through rfl
  | step :: rest, r, fine => by
    have follows := traceStep_follows sink model step r fine
    have uncut := traceStep_uncut model step r fine
    simp only [traceSteps]
    generalize traceStep .unlimited model step r = free at follows uncut
    generalize traceStep sink model step r = cut at follows
    by_cases failed : free.rendering.error.isSome
    · -- Where the free run ends here, so does the other one, if it has not been cut off before.
      rw [if_pos failed]
      cases follows with
      | through taken => rw [if_pos failed]; exact .through taken
      | refused attempts taken refuses => exact .refused attempts taken refuses
    · rw [if_neg failed]
      have fine := Option.not_isSome_iff_eq_none.1 failed
      exact follows.andThen uncut (traceSteps sink model rest) fine
        (traceSteps_follows sink model rest free.rendering fine)

end

end Renderer

/-! ### What a failure says -/

/-- A unit in some ops, by its name, and the failure of its code. -/
inductive Fails (resolved : ResolvedUnits) (model : Value) (ops : List Op) : (unit : String) → UnitError → Prop
  | expression {handle : Nat} {call : Value → Except UnitError String} {failure : UnitError}
      (inside : (Op.expression handle).Inside ops) (found : resolved.get? handle = some (.text call))
      (fails : call model = .error failure) : Fails resolved model ops (resolved.name handle) failure
  | condition {handle : Nat} {body : List Op} {otherwise : Option (List Op)} {call : Value → Except UnitError Bool}
      {failure : UnitError} (inside : (Op.conditional handle body otherwise).Inside ops)
      (found : resolved.get? handle = some (.boolean call)) (fails : call model = .error failure) :
      Fails resolved model ops (resolved.name handle) failure

theorem Fails.of_inside {resolved : ResolvedUnits} {model : Value} {ops more : List Op} {unit : String}
    {failure : UnitError} (fails : Fails resolved model ops unit failure)
    (sub : ∀ op : Op, op.Inside ops → op.Inside more) : Fails resolved model more unit failure := by
  cases fails with
  | expression inside found fails => exact .expression (sub _ inside) found fails
  | condition inside found fails => exact .condition (sub _ inside) found fails

theorem Rendering.error_write_ne {sink : Sink} {r : Rendering} (fine : r.error = none) (text unit : String)
    (failure : UnitError) : (r.write sink text).error ≠ some (.expression unit failure) := by
  unfold Rendering.write
  split <;> simp [fine]

namespace Renderer

variable {resolved : ResolvedUnits} {model : Value} {sink : Sink} {unit : String} {failure : UnitError}

theorem bindOps_cons {op : Op} {rest : List Op} {steps : List Step}
    (bound : bindOps resolved (op :: rest) = .ok steps) :
    ∃ step more, bindOp resolved op = .ok step ∧ bindOps resolved rest = .ok more ∧ steps = step :: more := by
  simp only [bindOps] at bound
  obtain ⟨step, first, bound⟩ := bind_eq_ok_iff.1 bound
  obtain ⟨more, others, bound⟩ := bind_eq_ok_iff.1 bound
  exact ⟨step, more, first, others, (Except.ok.inj bound).symm⟩

mutual

theorem runStep_fails : ∀ (op : Op) {step : Step} {r : Rendering}, bindOp resolved op = .ok step → r.error = none →
    (runStep sink model step r).error = some (.expression unit failure) → Fails resolved model [op] unit failure
  | .text content, step, r, bound, fine, failed => by
    cases bound
    exact absurd failed (Rendering.error_write_ne fine content unit failure)
  | .expression handle, step, r, bound, fine, failed => by
    simp only [bindOp] at bound
    split at bound
    · rename_i call found
      cases bound
      simp only [runStep] at failed
      -- Writing may fail as well, but never with the failure of an expression.
      cases told : call model with
      | ok text =>
        rw [told] at failed
        exact absurd failed (Rendering.error_write_ne fine text unit failure)
      | error error =>
        rw [told] at failed
        cases failed
        exact .expression (.here List.mem_cons_self) found told
    · cases bound
  | .conditional handle body otherwise, step, r, bound, fine, failed => by
    simp only [bindOp] at bound
    split at bound
    · rename_i call found
      obtain ⟨bodySteps, first, bound⟩ := bind_eq_ok_iff.1 bound
      obtain ⟨otherSteps, second, bound⟩ := bind_eq_ok_iff.1 bound
      cases bound
      simp only [runStep] at failed
      cases told : call model with
      | error error =>
        rw [told] at failed
        cases failed
        exact .condition (.here List.mem_cons_self) found told
      | ok holds =>
        rw [told] at failed
        -- The condition has been told, so that the failure is one of the branch that it takes.
        cases holds with
        | true => exact (runSteps_fails body first fine failed).of_inside fun _ => .body List.mem_cons_self
        | false =>
          obtain ⟨branch, rfl, fails⟩ := otherSteps_fails otherwise second fine failed
          exact fails.of_inside fun _ => .branch List.mem_cons_self
    · cases bound

theorem otherSteps_fails : ∀ (otherwise : Option (List Op)) {steps : List Step} {r : Rendering},
    bindOtherwise resolved otherwise = .ok steps → r.error = none →
    (runSteps sink model steps r).error = some (.expression unit failure) →
    ∃ branch, otherwise = some branch ∧ Fails resolved model branch unit failure
  | none, steps, r, bound, fine, failed => by
    cases bound
    rw [runSteps, fine] at failed
    cases failed
  | some branch, _, _, bound, fine, failed => ⟨branch, rfl, runSteps_fails branch bound fine failed⟩

theorem runSteps_fails : ∀ (ops : List Op) {steps : List Step} {r : Rendering}, bindOps resolved ops = .ok steps →
    r.error = none → (runSteps sink model steps r).error = some (.expression unit failure) →
    Fails resolved model ops unit failure
  | [], steps, r, bound, fine, failed => by
    cases bound
    rw [runSteps, fine] at failed
    cases failed
  | op :: rest, steps, r, bound, fine, failed => by
    obtain ⟨step, more, first, others, rfl⟩ := bindOps_cons bound
    simp only [runSteps] at failed
    split at failed
    · exact (runStep_fails op first fine failed).of_inside fun _ inside => inside.mono (by simp)
    · rename_i on
      have fails := runSteps_fails rest others (Option.not_isSome_iff_eq_none.1 on) failed
      exact fails.of_inside fun _ inside => inside.mono (List.subset_cons_self _ _)

end

end Renderer

/-- A sink decides only where a run is cut: up to the first text that it refuses, the run tries and writes what it
does into a sink that takes everything. -/
theorem render_cut {modelType : String} {ops : List Op} {resolved : ResolvedUnits} {renderer : Renderer}
    (assembled : Renderer.assemble modelType ops resolved = .ok renderer) (sink : Sink) (model : Value) :
    let free := renderer.trace .unlimited model
    let cut := renderer.trace sink model
    (free.rendering = renderer.render .unlimited model ∧ cut.rendering = renderer.render sink model) ∧
    (free.rendering.writes = textsOf free.attempts ∧
      ∀ error, free.rendering.error = some error → ∃ seen unit failure, error = .expression unit failure ∧
        free.attempts = seen ++ [.ask unit (some failure)] ∧ Fails resolved model ops unit failure) ∧
    (sink.takes [] free.rendering.writes = true → cut = free) ∧
    (sink.takes [] free.rendering.writes = false → ∃ seen text later,
      free.attempts = seen ++ .write text :: later ∧
      sink.takes [] (textsOf seen) = true ∧ sink (textsOf seen) text = false ∧
      cut.rendering = { writes := textsOf seen, error := some .sink } ∧ cut.attempts = seen ++ [.write text]) := by
  intro free cut
  have freely : free.rendering = renderer.render .unlimited model :=
    Renderer.rendering_traceSteps .unlimited model renderer.steps .empty
  have uncut : free.Uncut .empty := Renderer.traceSteps_uncut model renderer.steps .empty rfl
  -- The two runs go along with each other up to the first text that the sink refuses.
  have follows : Trace.Follows sink [] free cut := Renderer.traceSteps_follows sink model renderer.steps .empty rfl
  have writes : free.rendering.writes = textsOf free.attempts := uncut.writes
  refine ⟨⟨freely, Renderer.rendering_traceSteps sink model renderer.steps .empty⟩, ⟨writes, ?_⟩, ?_, ?_⟩
  · intro error failed
    rcases uncut.error with none | ⟨seen, unit, failure, last, told⟩
    · rw [none] at failed
      cases failed
    · rw [failed, Option.some.injEq] at told
      obtain ⟨steps, bound, assembled⟩ := bind_eq_ok_iff.1 assembled
      cases assembled
      rw [freely, told] at failed
      exact ⟨seen, unit, failure, told, last, Renderer.runSteps_fails ops bound rfl failed⟩
  · intro taken
    rw [writes] at taken
    exact follows.eq_of_takes taken
  · intro refused
    rw [writes] at refused
    obtain ⟨seen, text, later, attempts, taken, refuses, same⟩ := follows.of_refused refused
    exact ⟨seen, text, later, attempts, taken, refuses, by rw [same]; rfl, by rw [same]⟩

/-! A choice behind a text. -/

namespace Renderer.Short

def ops : List Op := [.text "<", .conditional 0 [.text "yes"] (some [.expression 1])]

def condition : Value → Except UnitError Bool
  | .bool b => .ok b
  | _ => .error (.other "model is not a bool")

def resolved : ResolvedUnits where
  names := ["condition", "name"]
  entries := [.boolean condition, .text fun _ => .ok "no"]

end Renderer.Short

open Renderer.Short in
theorem render_cut_short :
    ∃ renderer, Renderer.assemble "Page" ops resolved = .ok renderer ∧
      (∃ seen text later, (renderer.trace .unlimited (.bool true)).attempts = seen ++ .write text :: later ∧
        renderer.render (.limited 1) (.bool true) = { writes := textsOf seen, error := some .sink } ∧
        (renderer.trace (.limited 1) (.bool true)).attempts = seen ++ [.write text]) ∧
      renderer.render (.limited 1) .null = renderer.render .unlimited .null ∧
      Fails resolved .null ops "condition" (.other "model is not a bool") := by
  obtain ⟨renderer, assembled⟩ : ∃ renderer, Renderer.assemble "Page" ops resolved = .ok renderer := ⟨_, rfl⟩
  obtain ⟨⟨_, erased⟩, _, _, refused⟩ := render_cut assembled (.limited 1) (.bool true)
  obtain ⟨⟨freely, erased'⟩, ⟨_, fails⟩, taken, _⟩ := render_cut assembled (.limited 1) .null
  have known := assembled
  cases known
  refine ⟨_, assembled, ?_, ?_, ?_⟩
  · obtain ⟨seen, text, later, attempts, _, _, cut, last⟩ := refused (by decide +kernel)
    exact ⟨seen, text, later, attempts, erased.symm.trans cut, last⟩
  · rw [← freely, ← erased', taken (by decide +kernel)]
  · obtain ⟨_, unit, failure, same, _, fails⟩ := fails (.expression "condition" (.other "model is not a bool")) rfl
    cases same
    exact fails

end Stencil
