import Stencil.Units

/-! A table of units with an index.

Beside the units stands where each piece of code has its unit, so that a shared unit is found without looking through
them. Units that are not shared are not in the index.
-/

set_option autoImplicit false

namespace Stencil

structure Registry where
  table : UnitTable
  index : List ((ReturnKind × String) × Nat)

namespace Registry

def empty (modelType : String) (sharing : Sharing) : Registry := { table := .empty modelType sharing, index := [] }

def register (registry : Registry) (source : String) (kind : ReturnKind) (line : Nat) : Nat × Registry :=
  let source := Text.trimText source
  let handle := registry.table.units.length
  match registry.table.sharing with
  | .dedupe =>
    match registry.index.lookup (kind, source) with
    | some handle => (handle, registry)
    | none =>
      (handle,
        { table := registry.table.append kind source line, index := ((kind, source), handle) :: registry.index })
  | .perSite => (handle, { registry with table := registry.table.append kind source line })

end Registry

end Stencil
