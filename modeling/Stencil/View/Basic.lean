import Stencil.Renderer.Run
import Stencil.View.Compile
import Stencil.View.Slot

/-! Views.

A view has one slot for each type of model that it has been rendered with. The slots have nothing in common
but the templates, which are read once.
-/

set_option autoImplicit false

namespace Stencil

open Json (Value)

/-- How a backend treats the calls that are made to it. -/
inductive Conduct where
  | answers
  /-- No call returns before the request has run out of time. -/
  | stalls
  | breaks
  deriving DecidableEq, Repr

structure View where
  context : Context
  store : Store
  options : Options
  memo : Memo
  slots : List (String × Slot Renderer CompileError)
  /-- The compiles whose call to the backend has not returned. -/
  stalled : List (String × Walked)
  calls : Nat

abbrev View.Reply := Answer Renderer CompileError

namespace View

def ofContext (context : Context) (store : Store) (options : Options) : View :=
  { context, store, options, memo := .empty, slots := [], stalled := [], calls := 0 }

def load (store : Store) (layout : Option Path) (main : Path) (options : Options) :
    Except CompileError View := do
  let context ← Context.load store layout main options.extension
  return ofContext context store options

def slot (view : View) (modelType : String) : Slot Renderer CompileError :=
  (view.slots.lookup modelType).getD .empty

def setSlot (view : View) (modelType : String) (slot : Slot Renderer CompileError) : View :=
  { view with slots := (modelType, slot) :: view.slots.filter fun entry => entry.1 ≠ modelType }

def step (view : View) (modelType : String) (event : SlotEvent Renderer CompileError) :
    View × List (SlotEffect Renderer CompileError) :=
  let (slot, effects) := (view.slot modelType).step event
  (view.setSlot modelType slot, effects)

def run (view : View) : List (String × SlotEvent Renderer CompileError) →
    View × List (String × SlotEffect Renderer CompileError)
  | [] => (view, [])
  | (modelType, event) :: rest =>
    let (view, effects) := view.step modelType event
    let (view, more) := view.run rest
    (view, effects.map (Prod.mk modelType) ++ more)

/-- The view after an event in one of its slots and all steps that the slot can take by itself then. -/
def react (view : View) (modelType : String) (event : SlotEvent Renderer CompileError) :
    View × List (SlotEffect Renderer CompileError) :=
  let (slot, effects) := (view.slot modelType).react event
  (view.setSlot modelType slot, effects)

def land (view : View) (modelType : String) (ending : Ending Renderer CompileError) :
    View × List (SlotEffect Renderer CompileError) :=
  match (view.slot modelType).inFlight with
  | some task => view.react modelType (.land task ending)
  | none => (view, [])

def ending? (view : View) (backend : Backend) (conduct : Conduct) (walked : Walked) :
    Option (Ending Renderer CompileError) :=
  match conduct with
  | .answers => some (.returned (walked.compile backend view.options.references))
  | .breaks => some (.panicked (.aborted .breakdown))
  | .stalls => none

/-- Works on a compile that has just been started, up to its end or to a call that does not return. -/
def work (view : View) (backend : Backend) (conduct : Conduct) (modelType : String) :
    View × Option (Ending Renderer CompileError) :=
  match walk view.context view.store view.memo modelType view.options.sharing with
  | .error failure => ({ view with memo := failure.memo }, some (.returned (.error failure.error)))
  | .ok walked =>
    let view := { view with memo := walked.memo, calls := view.calls + 1 }
    match view.ending? backend conduct walked with
    | some ending => (view, some ending)
    | none => ({ view with stalled := view.stalled ++ [(modelType, walked)] }, none)

def isStalled (view : View) (modelType : String) : Bool := view.stalled.any (·.1 = modelType)

def expireTurn (view : View) (modelType : String) : View × List (SlotEffect Renderer CompileError) :=
  match (view.slot modelType).turn with
  | some (request, _) => view.react modelType (.expire request)
  | none => (view, [])

/-- Brings about the answer of the request whose turn it is: by the compile it waits for, or by its time. -/
def advance (view : View) (backend : Backend) (conduct : Conduct) (modelType : String) :
    View × List (SlotEffect Renderer CompileError) :=
  if view.isStalled modelType then view.expireTurn modelType
  else
    match view.work backend conduct modelType with
    | (view, some ending) => view.land modelType ending
    | (view, none) => view.expireTurn modelType

/-- Brings about the answers of all requests that wait. Each round answers one at least, so that as many
rounds as there are requests are enough. -/
def finish (backend : Backend) (conduct : Conduct) (modelType : String) :
    (rounds : Nat) → View → View × List (SlotEffect Renderer CompileError)
  | 0, view => (view, [])
  | rounds + 1, view =>
    if (view.slot modelType).isIdle then (view, [])
    else
      let (view, effects) := view.advance backend conduct modelType
      let (view, more) := finish backend conduct modelType rounds view
      (view, effects ++ more)

def arriveAll (modelType : String) : List Nat → View → View × List (SlotEffect Renderer CompileError)
  | [], view => (view, [])
  | request :: rest, view =>
    let (view, effects) := view.react modelType (.arrive request)
    let (view, more) := arriveAll modelType rest view
    (view, effects ++ more)

/-- The replies to several requests for the routine of one type of model, all made at once. -/
def requestAll (view : View) (backend : Backend) (conduct : Conduct) (modelType : String) (count : Nat) :
    View × List Reply :=
  let (view, first) := arriveAll modelType (List.range count) view
  let (view, others) := finish backend conduct modelType count view
  (view, answersOf (first ++ others))

def resume (view : View) (backend : Backend) (conduct : Conduct) (stuck : String × Walked) : View :=
  match view.ending? backend conduct stuck.2 with
  | some ending => (view.land stuck.1 ending).1
  | none => { view with stalled := view.stalled ++ [stuck] }

def release (view : View) (backend : Backend) (conduct : Conduct) : View :=
  view.stalled.foldl (fun view stuck => view.resume backend conduct stuck) { view with stalled := [] }

def compiledTypes (view : View) : Nat := (view.slots.filter fun entry => entry.2.stored.isSome).length

def describe (view : View) : String :=
  "View \x7b options: " ++ view.options.describe ++
    ", compiled_types: " ++ toString view.compiledTypes ++ " \x7d"

end View

inductive ViewError where
  | compile (error : CompileError)
  | render (error : RenderError)
  deriving DecidableEq, Repr

structure Delivery where
  writes : List String
  error : Option ViewError
  deriving DecidableEq, Repr

namespace Delivery

def refused (error : CompileError) : Delivery := { writes := [], error := some (.compile error) }

def ofRendering (r : Rendering) : Delivery := { writes := r.writes, error := r.error.map .render }

def text (d : Delivery) : Except ViewError String :=
  match d.error with
  | some error => .error error
  | none => .ok (String.join d.writes)

end Delivery

namespace View

/-- Renders a model with what a request has got. The model comes as the outcome of turning it into a value,
which counts only once there is a routine. -/
def deliver (view : View) (sink : Sink) (model : Except String Value) : Reply → Delivery
  | .ready renderer =>
    match model with
    | .ok value => .ofRendering (renderer.render sink value)
    | .error cause => .ofRendering { Rendering.empty with error := some (.model cause) }
  | .failed error => .refused error
  | .timedOut => .refused (.timeout view.options.timeout)

def renderAll (view : View) (backend : Backend) (conduct : Conduct) (modelType : String) (count : Nat)
    (sink : Sink) (model : Except String Value) : View × List Delivery :=
  let (view, replies) := view.requestAll backend conduct modelType count
  (view, replies.map (view.deliver sink model))

end View

end Stencil
