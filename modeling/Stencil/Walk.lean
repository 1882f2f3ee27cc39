import Stencil.Composition.Context
import Stencil.Ops.Builder
import Stencil.Script.Document
import Stencil.Units

/-! From the trees of a view to ops and units.

A walk carries out the instructions of the root tree. Code becomes units, choices become scopes of the builder,
and a tree that is pulled in is walked in place, unless a walk of it is open already. Every pull opens another
tree of finitely many, so that a walk ends whatever pulls in what.
-/

set_option autoImplicit false

namespace Stencil

open Template (Document)

/-- A tree whose walk is open. Files are known by the components of their paths. -/
inductive Frame where
  | main
  | file (components : List Path.Component)
  deriving DecidableEq, Repr

structure WalkState where
  units : UnitTable
  builder : Builder
  memo : Memo
  deriving Repr

/-- How a walk fails. Documents that have been read are still remembered. -/
structure WalkFailure where
  error : CompileError
  memo : Memo
  deriving Repr

abbrev WalkResult := Except WalkFailure WalkState

namespace WalkState

def start (modelType : String) (sharing : Sharing) (memo : Memo) : WalkState :=
  { units := .empty modelType sharing, builder := .empty, memo }

def fail {α : Type} (s : WalkState) (error : CompileError) : Except WalkFailure α :=
  .error { error, memo := s.memo }

def write (s : WalkState) (text : String) : WalkState := { s with builder := s.builder.write text }

def print (s : WalkState) (source : String) (line : Nat) : WalkState :=
  let (unit, units) := s.units.register source .text line
  { s with units, builder := s.builder.expression unit }

def condition (s : WalkState) (source : String) (line : Nat) : Nat × WalkState :=
  let (unit, units) := s.units.register source .boolean line
  (unit, { s with units })

def pushScope (s : WalkState) : WalkState := { s with builder := s.builder.pushScope }

def popScope (s : WalkState) : Except WalkFailure (List Op × WalkState) :=
  match s.builder.popScope with
  | (builder, some ops) => .ok (ops, { s with builder })
  | (builder, none) => s.fail (.stackMisaligned (builder.depth - 1))

def endChoice (s : WalkState) (unit : Nat) : WalkResult := do
  let (body, s) ← s.popScope
  return { s with builder := s.builder.conditional unit body }

def endOtherwise (s : WalkState) (line : Nat) : WalkResult := do
  let (body, s) ← s.popScope
  match s.builder.attachElse? body with
  | some builder => return { s with builder }
  | none => s.fail (.elseWithoutIf line)

end WalkState

namespace Walk

mutual

def run (enter : Target → WalkState → WalkResult) : Instruction → WalkState → WalkResult
  | .write text, s => .ok (s.write text)
  | .print source line, s => .ok (s.print source line)
  | .choose source line body, s => do
    let (unit, s) := s.condition source line
    let s ← runAll enter body s.pushScope
    s.endChoice unit
  | .otherwise line body, s =>
    if s.builder.canAttachElse then do
      let s ← runAll enter body s.pushScope
      s.endOtherwise line
    else s.fail (.elseWithoutIf line)
  | .pull target, s => enter target s
  | .fail error, s => s.fail error

def runAll (enter : Target → WalkState → WalkResult) : List Instruction → WalkState → WalkResult
  | [], s => .ok s
  | instruction :: rest, s => do
    let s ← run enter instruction s
    runAll enter rest s

end

def locate (context : Context) (store : Store) (target : Target) (s : WalkState) :
    Except WalkFailure (Frame × String × Document × WalkState) :=
  match target with
  | .main => .ok (.main, "yield", context.main, s)
  | .named name =>
    match context.resolve store s.memo name with
    | .ok (path, document, memo) => .ok (.file path.components, path.text, document, { s with memo })
    | .error error => s.fail error

/-- Walks the tree that a target leads to, inside the trees that are open. No more than `depth` trees are
opened inside each other. -/
def enter (context : Context) (store : Store) : (depth : Nat) → (opened : List Frame) →
    Target → WalkState → WalkResult
  | 0, _, target, s => do
    let (_, name, _, s) ← locate context store target s
    s.fail (.recursivePartial name)
  | depth + 1, opened, target, s => do
    let (frame, name, document, s) ← locate context store target s
    if frame ∈ opened then s.fail (.recursivePartial name)
    else runAll (enter context store depth (frame :: opened)) (Script.ofDocument document) s

def documents (context : Context) (store : Store) (memo : Memo) : List Document :=
  context.root :: context.main :: memo.documents.map (·.2) ++
    store.texts.filterMap fun text => (Document.ofText text).toOption

/-- A number of trees that cannot all be open inside each other: each is the main template or has been pulled
in by name. -/
def depthBound (context : Context) (store : Store) (memo : Memo) : Nat :=
  ((documents context store memo).flatMap fun d => targetsOf (Script.ofDocument d)).length + 2

def openedAtStart (context : Context) : List Frame :=
  match context.layout with
  | some _ => []
  | none => [.main]

end Walk

structure Walked where
  ops : List Op
  units : UnitTable
  memo : Memo
  deriving Repr

def WalkState.finish (s : WalkState) : Except WalkFailure Walked :=
  match s.builder.finish? with
  | some ops => .ok { ops, units := s.units, memo := s.memo }
  | none => s.fail (.stackMisaligned s.builder.depth)

def walk (context : Context) (store : Store) (memo : Memo) (modelType : String) (sharing : Sharing) :
    Except WalkFailure Walked := do
  let depth := Walk.depthBound context store memo
  let enter := Walk.enter context store depth (Walk.openedAtStart context)
  let s ← Walk.runAll enter (Script.ofDocument context.root) (.start modelType sharing memo)
  s.finish

end Stencil
