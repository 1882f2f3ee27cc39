import Stencil.Checksum
import Stencil.Text.Blank

/-! The code units of a template.

Every expression and every condition of a template becomes a unit: a piece of code with a name and the kind
of its result. Units are numbered in the order in which they are first met, and all of them together make up
one program text. Under the sharing policy `dedupe` equal pieces of code of one kind are one unit.
-/

set_option autoImplicit false

namespace Stencil

inductive ReturnKind where
  | text
  | boolean
  deriving DecidableEq, Repr

def ReturnKind.keyword : ReturnKind → String
  | .text => "text"
  | .boolean => "bool"

structure CodeUnit where
  name : String
  source : String
  kind : ReturnKind
  /-- The line of the template where the unit was first met. -/
  line : Nat
  deriving DecidableEq, Repr

def CodeUnit.declaration (unit : CodeUnit) : String :=
  "\nfn " ++ unit.name ++ "(model) -> " ++ unit.kind.keyword ++ " \x7b\n    " ++ unit.source ++ "\n\x7d\n"

inductive Sharing where
  | dedupe
  | perSite
  deriving DecidableEq, Repr

def unitName (kind : ReturnKind) (source : String) : String :=
  "_" ++ Checksum.hex (Checksum.ofText (kind.keyword ++ ":" ++ source))

/-- The units of one template for one type of model. A unit's handle is its position. -/
structure UnitTable where
  modelType : String
  sharing : Sharing
  units : List CodeUnit
  deriving Repr

namespace UnitTable

def empty (modelType : String) (sharing : Sharing) : UnitTable := { modelType, sharing, units := [] }

def find? (table : UnitTable) (kind : ReturnKind) (source : String) : Option Nat :=
  table.units.findIdx? fun unit => unit.kind = kind && unit.source = source

/-- The name of a new unit; where units are not shared, its handle makes it unique. -/
def nameFor (table : UnitTable) (kind : ReturnKind) (source : String) : String :=
  match table.sharing with
  | .dedupe => unitName kind source
  | .perSite => unitName kind source ++ "_" ++ toString table.units.length

def append (table : UnitTable) (kind : ReturnKind) (source : String) (line : Nat) : UnitTable :=
  { table with units := table.units ++ [{ name := table.nameFor kind source, source, kind, line }] }

def register (table : UnitTable) (source : String) (kind : ReturnKind) (line : Nat) : Nat × UnitTable :=
  let source := Text.trimText source
  let shared := match table.sharing with
    | .dedupe => table.find? kind source
    | .perSite => none
  match shared with
  | some handle => (handle, table)
  | none => (table.units.length, table.append kind source line)

def programText (table : UnitTable) : String :=
  "// generated by nhaml\n// model: " ++ table.modelType ++ "\n" ++
    String.join (table.units.map CodeUnit.declaration)

end UnitTable

end Stencil
