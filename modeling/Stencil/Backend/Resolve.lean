import Stencil.Backend.Basic
import Stencil.CompileError

/-! All units of a template in one request.

Either every unit gets an entry point of its own kind, or the whole request fails with the problems of the
backend or with one problem for each unit that got none.
-/

set_option autoImplicit false

namespace Stencil

/-- The entry points of the units, in the order of their handles. -/
structure ResolvedUnits where
  names : List String
  entries : List EntryPoint

namespace ResolvedUnits

def get? (resolved : ResolvedUnits) (handle : Nat) : Option EntryPoint := resolved.entries[handle]?

/-- The name of a unit, or words for one that does not exist. -/
def name (resolved : ResolvedUnits) (handle : Nat) : String := (resolved.names[handle]?).getD "<unknown>"

def size (resolved : ResolvedUnits) : Nat := resolved.entries.length

end ResolvedUnits

def ReturnKind.describe : ReturnKind → String
  | .text => "Text"
  | .boolean => "Boolean"

/-- A problem of one unit that has no place in the program text. -/
def CodeUnit.problem (unit : CodeUnit) (message : String) : Diagnostic :=
  { Diagnostic.plain 0 message with unit := some unit.name }

def CodeUnit.resolve (unit : CodeUnit) (library : Library) : Except Diagnostic EntryPoint :=
  match library.entryPoint? unit.name with
  | some entry =>
    if entry.kind = unit.kind then .ok entry
    else .error (unit.problem
      ("entry point returns " ++ entry.kind.describe ++ ", expected " ++ unit.kind.describe))
  | none => .error (unit.problem "compiled library has no such entry point")

def problemsOf {ε α : Type} (results : List (Except ε α)) : List ε :=
  results.filterMap fun result =>
    match result with
    | .error problem => some problem
    | .ok _ => none

namespace UnitTable

def request (table : UnitTable) (references : List String) : Request :=
  { modelType := table.modelType, source := table.programText, references }

def lineOf? (table : UnitTable) (name : String) : Option Nat :=
  (table.units.find? fun unit => unit.name = name).map CodeUnit.line

def locate (table : UnitTable) (d : Diagnostic) : Diagnostic :=
  match d.unit.bind table.lineOf? with
  | some line => { d with templateLine := some line }
  | none => d

def failure (table : UnitTable) (diagnostics : List Diagnostic) : CompileError :=
  .compilationFailed table.modelType (diagnostics.map table.locate)

def compile (table : UnitTable) (backend : Backend) (references : List String) :
    Except CompileError ResolvedUnits :=
  match backend (table.request references) with
  | .error diagnostics => .error (table.failure diagnostics)
  | .ok library =>
    let results := table.units.map fun unit => unit.resolve library
    match problemsOf results with
    | [] => .ok { names := table.units.map CodeUnit.name, entries := results.filterMap Except.toOption }
    | problems => .error (table.failure problems)

end UnitTable

end Stencil
