import Stencil.Backend.Interpreter
import Stencil.Config
import Stencil.Report
import Stencil.View.Basic

/-! The commands of the tool.

One command renders a template for a model, the other one compiles it and says how it went. Both start from
the configuration of a folder and look at files through a store.
-/

set_option autoImplicit false

namespace Stencil

open Json (Value)

inductive Action where
  | render
  | check
  deriving DecidableEq, Repr

structure Command where
  action : Action
  template : String
  layout : Option String
  withoutLayout : Bool
  /-- The file that holds the model; an empty object stands in for none. -/
  model : Option Path
  deriving DecidableEq, Repr

inductive CommandFailure where
  | configuration
  /-- The extension of templates cannot be put on a path. -/
  | extension
  | compile (error : CompileError)
  | render (error : RenderError)
  | problems (count : Nat)
  | unreadableModel (path : Path)
  | malformedModel (path : Path)
  deriving DecidableEq, Repr

def CommandFailure.message : CommandFailure → String
  | .configuration => "The configuration cannot be read"
  | .extension => "The template extension must not contain a slash"
  | .compile error => error.message
  | .render error => error.message
  | .problems count => toString count ++ " problem(s) in embedded expressions"
  | .unreadableModel path => "Cannot read model " ++ path.text
  | .malformedModel path => "Invalid JSON in " ++ path.text

structure Outcome where
  output : String
  reports : List Report
  failure : Option CommandFailure
  deriving DecidableEq, Repr

namespace Outcome

def done (output : String) : Outcome := { output, reports := [], failure := none }

def failed (output : String) (failure : CommandFailure) : Outcome :=
  { output, reports := [], failure := some failure }

end Outcome

namespace Command

def modelType : String := "serde_json::value::Value"

def checkedType : String := "serde_json::Value"

def configuration (store : Store) (folder : Path) : Except CommandFailure Config :=
  match Config.load? store folder with
  | some config => .ok config
  | none => .error .configuration

def context (command : Command) (config : Config) (store : Store) (folder : Path) :
    Except CommandFailure Context :=
  match config.templatePath? store folder command.template,
      config.layoutPath? store folder command.layout command.withoutLayout with
  | some main, some layout =>
    (Context.load store layout main config.options.extension).mapError .compile
  | _, _ => .error .extension

/-- The paths that a command may look at, partials aside. -/
def paths (command : Command) (config : Config) (folder : Path) : List Path :=
  let names := [command.template] ++ (config.layoutName command.layout command.withoutLayout).toList
  let templates := names.flatMap fun name =>
    match config.candidates? folder name with
    | some (near, far) => [near, far]
    | none => []
  templates ++ command.model.toList

def readModel (command : Command) (store : Store) : Except CommandFailure Value :=
  match command.model with
  | none => .ok (.object [])
  | some path =>
    match store.read path with
    | .error _ => .error (.unreadableModel path)
    | .ok text =>
      match Value.ofText? text with
      | some model => .ok model
      | none => .error (.malformedModel path)

def rendered (context : Context) (store : Store) (options : Options) (model : Value) :
    Except CommandFailure String :=
  let view := View.ofContext context store options
  let (_, deliveries) := view.renderAll interpreter .answers modelType 1 .unlimited (.ok model)
  match deliveries.map Delivery.text with
  | .ok text :: _ => .ok text
  | .error (.compile error) :: _ => .error (.compile error)
  | .error (.render error) :: _ => .error (.render error)
  | [] => .ok ""

def render (command : Command) (store : Store) (folder : Path) : Except CommandFailure String := do
  let config ← configuration store folder
  let context ← command.context config store folder
  let model ← command.readModel store
  rendered context store config.options model

def heading (command : Command) : String := "🔍 Checking " ++ command.template ++ "\n"

def summary (units partials : Nat) : String :=
  "   ✓ " ++ toString units ++ " expression unit(s), " ++ toString partials ++ " partial(s)\n"

def examine (context : Context) (store : Store) (options : Options) : Outcome :=
  match walk context store .empty checkedType options.sharing with
  | .error failure => .failed "" (.compile failure.error)
  | .ok walked =>
    match walked.units.compile interpreter options.references with
    | .ok resolved => .done (summary resolved.size walked.memo.size)
    | .error (.compilationFailed _ diagnostics) =>
      { output := "", failure := some (.problems diagnostics.length)
        reports := diagnostics.map (Report.ofDiagnostic walked.units.programText) }
    | .error error => .failed "" (.compile error)

def check (command : Command) (store : Store) (folder : Path) : Outcome :=
  match configuration store folder with
  | .error failure => .failed "" failure
  | .ok config =>
    match command.context config store folder with
    | .error failure => .failed command.heading failure
    | .ok context =>
      let outcome := examine context store config.options
      { outcome with output := command.heading ++ outcome.output }

def run (command : Command) (store : Store) (folder : Path) : Outcome :=
  match command.action with
  | .render =>
    match command.render store folder with
    | .ok text => .done (text ++ "\n")
    | .error failure => .failed "" failure
  | .check => command.check store folder

end Command

end Stencil
