import Mathlib.Data.List.Nodup
import Stencil.Proofs.Units

/-! Which units have the same name.

A name holds the checksum of the unit's kind and code, and where units are not shared also the handle. So names of
units that are not shared differ; those of shared units differ as far as their checksums do, while the kinds and
codes themselves differ in any case.
-/

set_option autoImplicit false

namespace Stencil

namespace Checksum

def digitValue (c : Char) : Nat := ((List.range 16).find? fun d => Nat.digitChar d = c).getD 0

def valueOf (digits : List Char) : Nat := digits.foldl (fun n c => n * 16 + digitValue c) 0

theorem valueOf_toDigits (n : Nat) : valueOf (Nat.toDigits 16 n) = n := by
  have digit : ∀ d < 16, digitValue (Nat.digitChar d) = d := by decide
  -- The last digit is the remainder, and those in front are the digits of the quotient.
  induction n using Nat.strongRecOn with
  | ind n ih =>
    rw [Nat.toDigits_eq_if (by decide)]
    split
    · rename_i small
      simp [valueOf, digit n small]
    · have quotient := ih (n / 16) (Nat.div_lt_self (by omega) (by decide))
      have remainder := digit (n % 16) (Nat.mod_lt n (by decide))
      rw [valueOf] at quotient ⊢
      rw [List.foldl_append, quotient, List.foldl_cons, List.foldl_nil, remainder]
      omega

theorem valueOf_zeros (count : Nat) (digits : List Char) :
    valueOf (List.replicate count '0' ++ digits) = valueOf digits := by
  induction count with
  | zero => rfl
  | succ count ih => exact ih

theorem hex_injective {a b : UInt32} (same : hex a = hex b) : a = b := by
  have value : ∀ sum : UInt32, valueOf (hex sum).toList = sum.toNat := by
    intro sum
    rw [hex, String.toList_ofList, valueOf_zeros, valueOf_toDigits]
  apply UInt32.toNat_inj.mp
  rw [← value a, same, value b]

end Checksum

/-- What stands for a unit in its name. -/
def CodeUnit.checksum (unit : CodeUnit) : UInt32 := Checksum.ofText (unit.kind.keyword ++ ":" ++ unit.source)

section

variable {kind kind' : ReturnKind} {source source' : String}

theorem unitName_eq_iff :
    unitName kind source = unitName kind' source' ↔
      Checksum.ofText (kind.keyword ++ ":" ++ source) = Checksum.ofText (kind'.keyword ++ ":" ++ source') := by
  constructor
  · intro same
    have lists := congrArg String.toList same
    simp only [unitName, String.toList_append] at lists
    exact Checksum.hex_injective (String.toList_injective (List.append_cancel_left lists))
  · intro same
    rw [unitName, unitName, same]

/-- A name with a handle in it tells the handle, since the checksum is always of the same length. -/
theorem handle_of_name {handle handle' : Nat}
    (same : unitName kind source ++ "_" ++ toString handle = unitName kind' source' ++ "_" ++ toString handle') :
    handle = handle' := by
  have length : ∀ kind source, (unitName kind source).toList.length = 9 := by
    intro kind source
    rw [unitName, String.toList_append, List.length_append, String.length_toList, String.length_toList,
      Checksum.length_hex]
    rfl
  have lists := congrArg String.toList same
  simp only [String.toList_append, List.append_assoc] at lists
  obtain ⟨_, rest⟩ := List.append_inj lists ((length kind source).trans (length kind' source').symm)
  have digits := List.append_cancel_left rest
  simp only [Nat.toString_eq_repr, Nat.repr_eq_ofList_toDigits, String.toList_ofList] at digits
  rw [← @Nat.ofDigitChars_ten_toDigits handle, digits, Nat.ofDigitChars_ten_toDigits]

end

namespace UnitTable

/-- How registering names units, and keeps those apart that it shares. -/
structure IsNamed (table : UnitTable) : Prop where
  names : ∀ (handle : Nat) (unit : CodeUnit), table.units[handle]? = some unit →
    unit.name = match table.sharing with
      | .dedupe => unitName unit.kind unit.source
      | .perSite => unitName unit.kind unit.source ++ "_" ++ toString handle
  apart : table.sharing = .dedupe → (table.units.map fun unit => (unit.kind, unit.source)).Nodup

theorem isNamed_empty (modelType : String) (sharing : Sharing) : (empty modelType sharing).IsNamed :=
  ⟨fun _ _ found => by simp [empty] at found, fun _ => List.nodup_nil⟩

theorem find?_eq_none {table : UnitTable} {kind : ReturnKind} {source : String}
    (none : table.find? kind source = none) :
    (kind, source) ∉ table.units.map fun unit => (unit.kind, unit.source) := by
  rw [find?, List.findIdx?_eq_none_iff] at none
  intro member
  obtain ⟨unit, present, same⟩ := List.mem_map.mp member
  obtain ⟨rfl, rfl⟩ := Prod.mk.inj same
  simpa using none unit present

theorem IsNamed.append {table : UnitTable} (named : table.IsNamed) {kind : ReturnKind} {source : String}
    (new : table.sharing = .dedupe → table.find? kind source = none) (line : Nat) :
    (table.append kind source line).IsNamed where
  names := by
    intro handle unit found
    rw [UnitTable.append, List.getElem?_append] at found
    split at found
    · exact named.names handle unit found
    · rename_i behind
      obtain ⟨zero, rfl⟩ : handle - table.units.length = 0 ∧ _ = unit := by
        simpa [List.getElem?_singleton] using found
      have last : handle = table.units.length := by omega
      subst last
      rfl
  apart := by
    intro shared
    rw [UnitTable.append, List.map_append, List.map_singleton, ← List.concat_eq_append, List.nodup_concat]
    exact ⟨find?_eq_none (new shared), named.apart shared⟩

theorem IsNamed.register {table : UnitTable} (named : table.IsNamed) (source : String) (kind : ReturnKind)
    (line : Nat) : (table.register source kind line).2.IsNamed := by
  rcases table.register_cases source kind line with ⟨handle, _, _, same⟩ | ⟨new, same⟩
  · rw [same]
    exact named
  · rw [same]
    exact named.append new line

theorem IsNamed.registerAll (calls : List (String × ReturnKind × Nat)) {table : UnitTable} (named : table.IsNamed) :
    (table.registerAll calls).IsNamed := by
  induction calls generalizing table with
  | nil => exact named
  | cons call rest ih => exact ih (named.register call.1 call.2.1 call.2.2)

theorem settings_registerAll (table : UnitTable) (calls : List (String × ReturnKind × Nat)) :
    (table.registerAll calls).modelType = table.modelType ∧ (table.registerAll calls).sharing = table.sharing := by
  induction calls generalizing table with
  | nil => exact ⟨rfl, rfl⟩
  | cons call rest ih =>
    obtain ⟨source, kind, line⟩ := call
    rw [UnitTable.registerAll, (ih _).1, (ih _).2]
    rcases table.register_cases source kind line with ⟨_, _, _, same⟩ | ⟨_, same⟩
    · rw [same]
      exact ⟨rfl, rfl⟩
    · rw [same]
      exact ⟨rfl, rfl⟩

theorem handle_eq_of_nodup {α : Type} {table : UnitTable} {key : CodeUnit → α} (distinct : (table.units.map key).Nodup)
    {handle handle' : Nat} {unit unit' : CodeUnit} (here : table.units[handle]? = some unit)
    (there : table.units[handle']? = some unit') (same : key unit = key unit') : handle = handle' := by
  have value : (table.units.map key)[handle]? = some (key unit) := by rw [List.getElem?_map, here, Option.map_some]
  have value' : (table.units.map key)[handle']? = some (key unit) := by
    rw [List.getElem?_map, there, Option.map_some, same]
  have bound := (List.getElem?_eq_some_iff.mp value).1
  exact (List.getElem?_inj bound distinct).mp (value.trans value'.symm)

section

variable {table : UnitTable} (named : table.IsNamed) {handle handle' : Nat} {unit unit' : CodeUnit}
  (here : table.units[handle]? = some unit) (there : table.units[handle']? = some unit')

include named here there

theorem IsNamed.handle_eq (perSite : table.sharing = .perSite) (same : unit.name = unit'.name) : handle = handle' := by
  have name := named.names handle unit here
  have name' := named.names handle' unit' there
  rw [perSite] at name name'
  rw [name, name'] at same
  exact handle_of_name same

theorem IsNamed.name_eq_iff (shared : table.sharing = .dedupe) :
    unit.name = unit'.name ↔ unit.checksum = unit'.checksum := by
  have name := named.names handle unit here
  have name' := named.names handle' unit' there
  rw [shared] at name name'
  rw [name, name']
  exact unitName_eq_iff

theorem IsNamed.code_ne (shared : table.sharing = .dedupe) (differ : handle ≠ handle') :
    (unit.kind, unit.source) ≠ (unit'.kind, unit'.source) := fun same =>
  differ (handle_eq_of_nodup (named.apart shared) here there same)

end

theorem nodup_names {table : UnitTable}
    (handles : ∀ (handle handle' : Nat) (unit unit' : CodeUnit), table.units[handle]? = some unit →
      table.units[handle']? = some unit' → unit.name = unit'.name → handle = handle') :
    (table.units.map CodeUnit.name).Nodup := by
  rw [List.nodup_iff_getElem?_ne_getElem?]
  intro handle handle' less bound same
  rw [List.getElem?_map, List.getElem?_map] at same
  have there := List.getElem?_eq_getElem (show handle' < table.units.length by simpa using bound)
  rw [there, Option.map_some, Option.map_eq_some_iff] at same
  obtain ⟨unit, here, same⟩ := same
  have := handles handle handle' unit _ here there same
  omega

theorem IsNamed.distinct {table : UnitTable} (named : table.IsNamed) (perSite : table.sharing = .perSite) :
    (table.units.map CodeUnit.name).Nodup :=
  nodup_names fun _ _ _ _ here there same => named.handle_eq here there perSite same

/-- Where units are shared, their names differ if those of different pieces of code do. -/
theorem IsNamed.distinct_of_apart {table : UnitTable} (named : table.IsNamed) (shared : table.sharing = .dedupe)
    (apart : ∀ unit ∈ table.units, ∀ other ∈ table.units,
      unitName unit.kind unit.source = unitName other.kind other.source →
        unit.kind = other.kind ∧ unit.source = other.source) :
    (table.units.map CodeUnit.name).Nodup := by
  refine nodup_names fun handle handle' unit unit' here there same => ?_
  have name := named.names handle unit here
  have name' := named.names handle' unit' there
  rw [shared] at name name'
  rw [name, name'] at same
  obtain ⟨kind, source⟩ := apart unit (List.mem_of_getElem? here) unit' (List.mem_of_getElem? there) same
  exact handle_eq_of_nodup (named.apart shared) here there (Prod.ext kind source)

end UnitTable

end Stencil
