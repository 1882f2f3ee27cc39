import Stencil.Proofs.Sharing.Ops
import Stencil.Renderer.Run

/-! Steps that differ in nothing but the names of units.

Ops that are alike become such steps if units with the same code have the same entry point. On every model they write
the same texts one by one, and stop at the same place.
-/

set_option autoImplicit false

namespace Stencil

open Json (Value)

def SameNamed (units units' : List CodeUnit) (name name' : String) : Prop :=
  ∃ unit ∈ units, ∃ unit' ∈ units', unit.name = name ∧ unit'.name = name' ∧
    unit.kind = unit'.kind ∧ unit.source = unit'.source

section
variable (units units' : List CodeUnit)

mutual

inductive StepAlike : Step → Step → Prop
  | write (text : String) : StepAlike (.write text) (.write text)
  | print {name name' : String} (named : SameNamed units units' name name') (call : Value → Except UnitError String) :
    StepAlike (.print name call) (.print name' call)
  | branch {name name' : String} {body body' otherwise otherwise' : List Step}
    (named : SameNamed units units' name name') (condition : Value → Except UnitError Bool)
    (inside : StepsAlike body body') (others : StepsAlike otherwise otherwise') :
    StepAlike (.branch name condition body otherwise) (.branch name' condition body' otherwise')

inductive StepsAlike : List Step → List Step → Prop
  | nil : StepsAlike [] []
  | cons {step step' : Step} {rest rest' : List Step} (first : StepAlike step step') (more : StepsAlike rest rest') :
    StepsAlike (step :: rest) (step' :: rest')

end

/-- Two endings of renderings: none, at the sink, or with the same error of units with the same code. -/
inductive EndsAlike : Option RenderError → Option RenderError → Prop
  | none : EndsAlike none none
  | sink : EndsAlike (some .sink) (some .sink)
  | expression {name name' : String} (named : SameNamed units units' name name') (error : UnitError) :
    EndsAlike (some (.expression name error)) (some (.expression name' error))

/-- Two renderings with the same writes, piece by piece, which are both complete or have stopped behind them for the
same reason. -/
structure Rendering.Alike (r r' : Rendering) : Prop where
  writes : r.writes = r'.writes
  error : EndsAlike units units' r.error r'.error

structure ResolvedUnits.Alike (resolved resolved' : ResolvedUnits) : Prop where
  entry : ∀ kind handle handle', SameCode units units' kind handle handle' →
    ∃ entry, resolved.get? handle = some entry ∧ resolved'.get? handle' = some entry ∧ entry.kind = kind
  named : ∀ kind handle handle', SameCode units units' kind handle handle' →
    SameNamed units units' (resolved.name handle) (resolved'.name handle')

end

variable {units units' : List CodeUnit}

namespace Rendering.Alike

variable {r r' : Rendering}

theorem write (alike : r.Alike units units' r') (sink : Sink) (text : String) :
    (r.write sink text).Alike units units' (r'.write sink text) := by
  unfold Rendering.write
  rw [alike.writes]
  split
  · exact ⟨rfl, alike.error⟩
  · exact ⟨rfl, .sink⟩

theorem fail (alike : r.Alike units units' r') {name name' : String} (named : SameNamed units units' name name')
    (error : UnitError) : (r.fail name error).Alike units units' (r'.fail name' error) :=
  ⟨alike.writes, .expression named error⟩

theorem isSome_error (alike : r.Alike units units' r') : r.error.isSome = r'.error.isSome := by
  obtain ⟨_, ends⟩ := alike
  generalize r.error = error, r'.error = error' at ends ⊢
  cases ends <;> rfl

end Rendering.Alike

namespace Renderer

section
variable {resolved resolved' : ResolvedUnits}

mutual

theorem bindOp_alike (alike : resolved.Alike units units' resolved') : ∀ {op op' : Op}, OpAlike units units' op op' →
    ∃ step step', bindOp resolved op = .ok step ∧ bindOp resolved' op' = .ok step' ∧ StepAlike units units' step step'
  | _, _, .text content => ⟨_, _, rfl, rfl, .write content⟩
  | _, _, .expression code => by
    obtain ⟨entry, here, there, kind⟩ := alike.entry _ _ _ code
    cases entry with
    | text call =>
      simp only [bindOp, here, there]
      exact ⟨_, _, rfl, rfl, .print (alike.named _ _ _ code) call⟩
    | boolean call => cases kind
  | _, _, .conditional code inside others => by
    obtain ⟨entry, here, there, kind⟩ := alike.entry _ _ _ code
    obtain ⟨body, body', bound, bound', bodies⟩ := bindOps_alike alike inside
    obtain ⟨rest, rest', bound₂, bound₂', rests⟩ := bindOtherwise_alike alike others
    cases entry with
    | text call => cases kind
    | boolean call =>
      simp only [bindOp, here, there, bound, bound', bound₂, bound₂', bind, Except.bind]
      exact ⟨_, _, rfl, rfl, .branch (alike.named _ _ _ code) call bodies rests⟩

theorem bindOtherwise_alike (alike : resolved.Alike units units' resolved') :
    ∀ {otherwise otherwise' : Option (List Op)}, OtherwiseAlike units units' otherwise otherwise' →
      ∃ steps steps', bindOtherwise resolved otherwise = .ok steps ∧ bindOtherwise resolved' otherwise' = .ok steps' ∧
        StepsAlike units units' steps steps'
  | _, _, .none => ⟨[], [], rfl, rfl, .nil⟩
  | _, _, .some taken => bindOps_alike alike taken

theorem bindOps_alike (alike : resolved.Alike units units' resolved') :
    ∀ {ops ops' : List Op}, OpsAlike units units' ops ops' →
      ∃ steps steps', bindOps resolved ops = .ok steps ∧ bindOps resolved' ops' = .ok steps' ∧
        StepsAlike units units' steps steps'
  | _, _, .nil => ⟨[], [], rfl, rfl, .nil⟩
  | _, _, .cons first more => by
    obtain ⟨step, step', bound, bound', one⟩ := bindOp_alike alike first
    obtain ⟨steps, steps', bound₂, bound₂', all⟩ := bindOps_alike alike more
    simp only [bindOps, bound, bound', bound₂, bound₂', bind, Except.bind]
    exact ⟨_, _, rfl, rfl, .cons one all⟩

end

end

mutual

theorem runStep_alike (sink : Sink) (model : Value) : ∀ {step step' : Step} {r r' : Rendering},
    StepAlike units units' step step' → r.Alike units units' r' →
      (runStep sink model step r).Alike units units' (runStep sink model step' r')
  | _, _, _, _, .write text, alike => alike.write sink text
  | _, _, _, _, .print named call, alike => by
    simp only [runStep]
    cases call model with
    | ok text => exact alike.write sink text
    | error error => exact alike.fail named error
  | _, _, _, _, .branch named condition inside others, alike => by
    simp only [runStep]
    cases condition model with
    | ok holds =>
      cases holds with
      | true => exact runSteps_alike sink model inside alike
      | false => exact runSteps_alike sink model others alike
    | error error => exact alike.fail named error

theorem runSteps_alike (sink : Sink) (model : Value) : ∀ {steps steps' : List Step} {r r' : Rendering},
    StepsAlike units units' steps steps' → r.Alike units units' r' →
      (runSteps sink model steps r).Alike units units' (runSteps sink model steps' r')
  | _, _, _, _, .nil, alike => alike
  | _, _, _, _, .cons first more, alike => by
    have one := runStep_alike sink model first alike
    -- Both stop behind the first step or neither does.
    simp only [runSteps, one.isSome_error]
    split
    · exact one
    · exact runSteps_alike sink model more one

end

end Renderer

end Stencil
