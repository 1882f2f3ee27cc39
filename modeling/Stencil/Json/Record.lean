import Stencil.Json.Reader

/-! Records inside JSON texts.

A record with known fields is written as an object, with its fields under their names, or as an array, with
its fields in their order and missing ones at the end only. Unknown members of an object are passed over; a
known one may not be repeated.
-/

set_option autoImplicit false

namespace Stencil.Json

section
variable {α : Type}

def fieldsByName (names : List String) (members : List (String × α)) : List (Option α) :=
  names.map fun name => members.lookup name

/-- The fields of a record written as an array, `none` where one is missing; the array may not be longer
than the record. -/
def fieldsByPosition? (names : List String) (items : List α) : Option (List (Option α)) :=
  if names.length < items.length then none
  else some (items.map some ++ List.replicate (names.length - items.length) none)

end

def Written.fields? (names : List String) : Written → Option (List (Option Written))
  | .object members => do
    let named ← members.mapM fun m => m.1.map (·, m.2)
    if names.any fun name => 1 < (named.filter (·.1 = name)).length then none
    else some (fieldsByName names named)
  | .array items => fieldsByPosition? names items
  | _ => none

def Written.string? : Written → Option String
  | .string text => text
  | _ => none

/-- A count of at most 64 bits. -/
def Written.count? : Written → Option Nat
  | .number (some (.int n)) => if 0 ≤ n then some n.toNat else none
  | _ => none

def Written.strings? : Written → Option (List String)
  | .array items => items.mapM Written.string?
  | _ => none

def Value.string? : Value → Option String
  | .string text => some text
  | _ => none

def Value.bool? : Value → Option Bool
  | .bool b => some b
  | _ => none

def Value.count? : Value → Option Nat
  | .number (.int n) => if 0 ≤ n then some n.toNat else none
  | _ => none

end Stencil.Json
