import Mathlib.Data.List.Induction
import Stencil.Proofs.Names
import Stencil.Units.Registry

/-! Runs of registrations.

What a handle stands for is settled when it is given and never changes. Units that are shared are the pieces of code
in the order in which they first came up, each with the line of that first time; units that are not shared are the
registrations themselves.
-/

set_option autoImplicit false

namespace Stencil

def CodeUnit.code (unit : CodeUnit) : ReturnKind × String := (unit.kind, unit.source)

def codeOf (call : String × ReturnKind × Nat) : ReturnKind × String := (call.2.1, Text.trimText call.1)

namespace UnitTable

def handles (table : UnitTable) : List (String × ReturnKind × Nat) → List Nat
  | [] => []
  | (source, kind, line) :: rest =>
    (table.register source kind line).1 :: (table.register source kind line).2.handles rest

theorem handles_append (table : UnitTable) (calls more : List (String × ReturnKind × Nat)) :
    table.handles (calls ++ more) = table.handles calls ++ (table.registerAll calls).handles more := by
  induction calls generalizing table with
  | nil => rfl
  | cons call rest ih => exact congrArg (_ :: ·) (ih _)

theorem length_handles (table : UnitTable) (calls : List (String × ReturnKind × Nat)) :
    (table.handles calls).length = calls.length := by
  induction calls generalizing table with
  | nil => rfl
  | cons call rest ih => exact congrArg (· + 1) (ih _)

/-- A handle that was given stands for the piece of code that it was given for. -/
theorem exists_unit_of_handles (table : UnitTable) (calls : List (String × ReturnKind × Nat)) :
    ∀ asked ∈ calls.zip (table.handles calls),
      ∃ unit, (table.registerAll calls).units[asked.2]? = some unit ∧ unit.code = codeOf asked.1 := by
  induction calls generalizing table with
  | nil => simp
  | cons call rest ih =>
    rintro asked (_ | ⟨_, later⟩)
    · obtain ⟨unit, found, kind, same⟩ := table.register_getElem? call.1 call.2.1 call.2.2
      exact ⟨unit, getElem?_of_prefix (units_prefix_registerAll _ rest) found, Prod.ext kind same⟩
    · exact ih _ asked later

theorem find?_eq_some_iff {table : UnitTable} (apart : (table.units.map CodeUnit.code).Nodup) {kind : ReturnKind}
    {source : String} {handle : Nat} :
    table.find? kind source = some handle ↔ ∃ unit, table.units[handle]? = some unit ∧ unit.code = (kind, source) := by
  constructor
  · intro found
    obtain ⟨unit, here, rfl, rfl⟩ := find?_getElem? found
    exact ⟨unit, here, rfl⟩
  · rintro ⟨unit, here, same⟩
    cases found : table.find? kind source with
    | none => exact absurd (List.mem_map.mpr ⟨unit, List.mem_of_getElem? here, same⟩) (find?_eq_none found)
    | some other =>
      obtain ⟨unit', there, rfl, rfl⟩ := find?_getElem? found
      exact congrArg some (handle_eq_of_nodup apart there here same.symm)

def Appends (table : UnitTable) (call : String × ReturnKind × Nat) (answer : Nat × UnitTable) : Prop :=
  ∃ unit, answer = (table.units.length, { table with units := table.units ++ [unit] }) ∧ unit.code = codeOf call ∧
    unit.line = call.2.2

theorem register_perSite {table : UnitTable} (alone : table.sharing = .perSite) (call : String × ReturnKind × Nat) :
    table.Appends call (table.register call.1 call.2.1 call.2.2) := by
  rw [register, alone]
  exact ⟨_, rfl, rfl, rfl⟩

theorem register_dedupe {table : UnitTable} (shared : table.sharing = .dedupe)
    (apart : (table.units.map CodeUnit.code).Nodup) (call : String × ReturnKind × Nat) :
    (∃ handle unit, table.units[handle]? = some unit ∧ unit.code = codeOf call ∧
      table.register call.1 call.2.1 call.2.2 = (handle, table)) ∨
    (codeOf call ∉ table.units.map CodeUnit.code ∧
      table.Appends call (table.register call.1 call.2.1 call.2.2)) := by
  rcases table.register_cases call.1 call.2.1 call.2.2 with ⟨handle, -, found, same⟩ | ⟨new, same⟩
  · obtain ⟨unit, here, code⟩ := (find?_eq_some_iff apart).mp found
    exact .inl ⟨handle, unit, here, code, same⟩
  · rw [same]
    exact .inr ⟨find?_eq_none (new shared), _, rfl, rfl, rfl⟩

section

variable (modelType : String) (calls : List (String × ReturnKind × Nat))

theorem sharing_registerAll (sharing : Sharing) : ((empty modelType sharing).registerAll calls).sharing = sharing :=
  ((empty modelType sharing).settings_registerAll calls).2

theorem nodup_code : (((empty modelType .dedupe).registerAll calls).units.map CodeUnit.code).Nodup :=
  (IsNamed.registerAll calls (isNamed_empty modelType .dedupe)).apart (sharing_registerAll modelType calls .dedupe)

/-- Shared units are the pieces of code in the order in which they first came up. -/
theorem code_of_shared :
    ((empty modelType .dedupe).registerAll calls).units.map CodeUnit.code = (calls.map codeOf).eraseDups := by
  induction calls using List.reverseRecOn with
  | nil => rfl
  | append_singleton calls call ih =>
    rw [registerAll_append, List.map_append, List.eraseDups_append, ← ih]
    show (register _ call.1 call.2.1 call.2.2).2.units.map CodeUnit.code = _
    -- The code of the last call has a unit just if it is among the codes before.
    have known : codeOf call ∈ ((empty modelType .dedupe).registerAll calls).units.map CodeUnit.code ↔
        codeOf call ∈ calls.map codeOf := by
      rw [ih, List.mem_eraseDups]
    rcases register_dedupe (sharing_registerAll modelType calls .dedupe) (nodup_code modelType calls) call with
      ⟨handle, unit, here, code, same⟩ | ⟨new, unit, same, code, -⟩
    · have old := known.mp (code ▸ List.mem_map_of_mem (List.mem_of_getElem? here))
      rw [same]
      simp [List.removeAll, old]
    · rw [known] at new
      rw [same]
      simp [List.removeAll, new, code, List.eraseDups_cons]

theorem line_of_shared {unit : CodeUnit} (member : unit ∈ ((empty modelType .dedupe).registerAll calls).units) :
    (calls.find? fun call => codeOf call = unit.code).map (·.2.2) = some unit.line := by
  induction calls using List.reverseRecOn with
  | nil => cases member
  | append_singleton calls call ih =>
    rw [registerAll_append] at member
    change unit ∈ (register _ call.1 call.2.1 call.2.2).2.units at member
    have old (before : unit ∈ ((empty modelType .dedupe).registerAll calls).units) :
        ((calls ++ [call]).find? fun call => codeOf call = unit.code).map (·.2.2) = some unit.line := by
      obtain ⟨first, found, line⟩ := Option.map_eq_some_iff.mp (ih before)
      rw [List.find?_append, found]
      exact congrArg some line
    rcases register_dedupe (sharing_registerAll modelType calls .dedupe) (nodup_code modelType calls) call with
      ⟨handle, _, -, -, same⟩ | ⟨new, last, same, code, line⟩
    · rw [same] at member
      exact old member
    · rw [same] at member
      rcases List.mem_append.mp member with before | behind
      · exact old before
      · obtain rfl := List.mem_singleton.mp behind
        -- The last registration is the first one of its code.
        have none : (calls.find? fun other => codeOf other = codeOf call) = none := by
          rw [List.find?_eq_none]
          intro other asked same
          rw [code_of_shared, List.mem_eraseDups] at new
          exact new (List.mem_map.mpr ⟨other, asked, of_decide_eq_true same⟩)
        rw [List.find?_append, code, none]
        simp [line]

theorem units_of_perSite :
    ((empty modelType .perSite).registerAll calls).units.map (fun unit => (unit.code, unit.line)) =
      calls.map (fun call => (codeOf call, call.2.2)) := by
  induction calls using List.reverseRecOn with
  | nil => rfl
  | append_singleton calls call ih =>
    obtain ⟨unit, same, code, line⟩ := register_perSite (sharing_registerAll modelType calls .perSite) call
    rw [registerAll_append, List.map_append, ← ih]
    show (register _ call.1 call.2.1 call.2.2).2.units.map _ = _
    rw [same]
    simp [code, line]

theorem handles_of_perSite : (empty modelType .perSite).handles calls = List.range calls.length := by
  induction calls using List.reverseRecOn with
  | nil => rfl
  | append_singleton calls call ih =>
    obtain ⟨unit, same, -, -⟩ := register_perSite (sharing_registerAll modelType calls .perSite) call
    have count := congrArg List.length (units_of_perSite modelType calls)
    rw [List.length_map, List.length_map] at count
    rw [handles_append, ih, List.length_append, List.length_singleton, List.range_succ, ← count]
    show _ ++ [(register _ call.1 call.2.1 call.2.2).1] = _
    rw [same]

end

end UnitTable

namespace Registry

def registerAll (registry : Registry) : List (String × ReturnKind × Nat) → List Nat × Registry
  | [] => ([], registry)
  | (source, kind, line) :: rest =>
    let (handle, next) := registry.register source kind line
    let (handles, last) := next.registerAll rest
    (handle :: handles, last)

structure IsIndexed (registry : Registry) : Prop where
  named : registry.table.IsNamed
  shared : registry.table.sharing = .dedupe → ∀ code handle, registry.index.lookup code = some handle ↔
    ∃ unit, registry.table.units[handle]? = some unit ∧ unit.code = code
  alone : registry.table.sharing = .perSite → registry.index = []

theorem isIndexed_empty (modelType : String) (sharing : Sharing) : (empty modelType sharing).IsIndexed :=
  ⟨UnitTable.isNamed_empty modelType sharing, fun _ code handle => by simp [empty, UnitTable.empty], fun _ => rfl⟩

theorem IsIndexed.lookup_eq {registry : Registry} (indexed : registry.IsIndexed)
    (shared : registry.table.sharing = .dedupe) (kind : ReturnKind) (source : String) :
    registry.index.lookup (kind, source) = registry.table.find? kind source := by
  apply Option.ext
  intro handle
  rw [indexed.shared shared, UnitTable.find?_eq_some_iff (indexed.named.apart shared)]

theorem IsIndexed.register_eq {registry : Registry} (indexed : registry.IsIndexed) (source : String) (kind : ReturnKind)
    (line : Nat) :
    (registry.register source kind line).1 = (registry.table.register source kind line).1 ∧
      (registry.register source kind line).2.table = (registry.table.register source kind line).2 := by
  rw [register, UnitTable.register]
  cases sharing : registry.table.sharing with
  | perSite => exact ⟨rfl, rfl⟩
  | dedupe =>
    simp only [indexed.lookup_eq sharing]
    cases registry.table.find? kind (Text.trimText source) <;> exact ⟨rfl, rfl⟩

theorem lookup_cons_iff {units : List CodeUnit} {index : List ((ReturnKind × String) × Nat)} (new : CodeUnit)
    (shared : ∀ code handle, index.lookup code = some handle ↔ ∃ unit, units[handle]? = some unit ∧ unit.code = code)
    (fresh : new.code ∉ units.map CodeUnit.code) (code : ReturnKind × String) (handle : Nat) :
    ((new.code, units.length) :: index).lookup code = some handle ↔
      ∃ unit, (units ++ [new])[handle]? = some unit ∧ unit.code = code := by
  -- What stands at a handle is a unit from before or, behind them, the new one.
  have place (unit : CodeUnit) : (units ++ [new])[handle]? = some unit ↔
      units[handle]? = some unit ∨ handle = units.length ∧ unit = new := by
    rcases Nat.lt_trichotomy handle units.length with before | rfl | behind
    · simp [List.getElem?_append_left before, Nat.ne_of_lt before]
    · simp [eq_comm]
    · have none : (units ++ [new])[handle]? = none := List.getElem?_eq_none (by simp; omega)
      rw [none, List.getElem?_eq_none (Nat.le_of_lt behind)]
      simp [Nat.ne_of_gt behind]
  simp only [place, List.lookup_cons]
  by_cases same : code = new.code
  · subst same
    have old (unit : CodeUnit) : ¬(units[handle]? = some unit ∧ unit.code = new.code) := fun here =>
      fresh (here.2 ▸ List.mem_map_of_mem (List.mem_of_getElem? here.1))
    simp only [beq_self_eq_true, Option.some_inj]
    constructor
    · rintro rfl
      exact ⟨new, .inr ⟨rfl, rfl⟩, rfl⟩
    · rintro ⟨unit, before | ⟨rfl, -⟩, code⟩
      · exact absurd ⟨before, code⟩ (old unit)
      · rfl
  · rw [beq_eq_false_iff_ne.mpr same]
    refine (shared code handle).trans (exists_congr fun unit => and_congr_left fun code => ?_)
    refine ⟨.inl, Or.rec id ?_⟩
    rintro ⟨-, rfl⟩
    exact absurd code.symm same

theorem IsIndexed.register {registry : Registry} (indexed : registry.IsIndexed) (source : String) (kind : ReturnKind)
    (line : Nat) : (registry.register source kind line).2.IsIndexed := by
  have named : (registry.register source kind line).2.table.IsNamed := by
    rw [(indexed.register_eq source kind line).2]
    exact indexed.named.register source kind line
  rw [Registry.register] at named ⊢
  cases sharing : registry.table.sharing with
  | perSite =>
    simp only [sharing] at named ⊢
    exact ⟨named, fun shared => absurd (sharing.symm.trans shared) (by decide), fun _ => indexed.alone sharing⟩
  | dedupe =>
    simp only [sharing] at named ⊢
    cases found : registry.index.lookup (kind, Text.trimText source) with
    | some handle => exact indexed
    | none =>
      rw [found] at named
      have fresh := UnitTable.find?_eq_none ((indexed.lookup_eq sharing kind _).symm.trans found)
      exact ⟨named, fun _ => lookup_cons_iff ⟨_, _, _, _⟩ (indexed.shared sharing) fresh,
        fun alone => absurd (sharing.symm.trans alone) (by decide)⟩

theorem registerAll_eq {registry : Registry} (indexed : registry.IsIndexed) (calls : List (String × ReturnKind × Nat)) :
    (registry.registerAll calls).1 = registry.table.handles calls ∧
      (registry.registerAll calls).2.table = registry.table.registerAll calls ∧
      (registry.registerAll calls).2.IsIndexed := by
  induction calls generalizing registry with
  | nil => exact ⟨rfl, rfl, indexed⟩
  | cons call rest ih =>
    obtain ⟨source, kind, line⟩ := call
    obtain ⟨handle, table⟩ := indexed.register_eq source kind line
    obtain ⟨handles, tables, last⟩ := ih (indexed.register source kind line)
    rw [table] at handles tables
    exact ⟨congrArg₂ List.cons handle handles, tables, last⟩

end Registry

open UnitTable in
/-- A handle stands for ever for the kind and the trimmed code asked for. Shared units are the codes in the order in
which they first came up, others the registrations; an index makes no difference. -/
theorem registerAll_consistent (modelType : String) (sharing : Sharing)
    (calls more : List (String × ReturnKind × Nat)) :
    let table := (empty modelType sharing).registerAll calls
    let given := (empty modelType sharing).handles calls
    let registry := (Registry.empty modelType sharing).registerAll calls
    (given.length = calls.length ∧ ∀ asked ∈ calls.zip given, ∃ unit, table.units[asked.2]? = some unit ∧
      ((empty modelType sharing).registerAll (calls ++ more)).units[asked.2]? = some unit ∧
      unit.kind = asked.1.2.1 ∧ unit.source = Text.trimText asked.1.1) ∧
    (sharing = .dedupe →
      (∀ asked ∈ calls.zip given, ∀ asked' ∈ calls.zip given,
        asked.2 = asked'.2 ↔ codeOf asked.1 = codeOf asked'.1) ∧
      (∀ call, codeOf call ∈ calls.map codeOf → (table.register call.1 call.2.1 call.2.2).2 = table) ∧
      table.units.map CodeUnit.code = (calls.map codeOf).eraseDups ∧
      ∀ unit ∈ table.units, (calls.find? fun call => codeOf call = unit.code).map (·.2.2) = some unit.line) ∧
    (sharing = .perSite →
      (∀ call, table.Appends call (table.register call.1 call.2.1 call.2.2)) ∧
      given = List.range calls.length ∧
      table.units.map (fun unit => (unit.code, unit.line)) = calls.map (fun call => (codeOf call, call.2.2))) ∧
    registry.1 = given ∧ registry.2.table = table ∧
      (sharing = .dedupe → ∀ code handle, registry.2.index.lookup code = some handle ↔
        ∃ unit, table.units[handle]? = some unit ∧ unit.code = code) := by
  intro table given registry
  -- Each handle stands for a unit of the code that it was given for; all else is told by this and by the policy.
  have denotes := exists_unit_of_handles (empty modelType sharing) calls
  obtain ⟨handles, tables, indexed⟩ := Registry.registerAll_eq (Registry.isIndexed_empty modelType sharing) calls
  have policy : table.sharing = sharing := sharing_registerAll modelType calls sharing
  refine ⟨⟨length_handles _ calls, fun asked member => ?_⟩, ?_, ?_, handles, tables, ?_⟩
  · obtain ⟨unit, here, code⟩ := denotes asked member
    obtain ⟨kind, source⟩ := Prod.mk.inj code
    rw [registerAll_append]
    exact ⟨unit, here, getElem?_of_prefix (units_prefix_registerAll _ more) here, kind, source⟩
  · rintro rfl
    have apart := nodup_code modelType calls
    refine ⟨fun asked member asked' member' => ?_, fun call known => ?_, code_of_shared modelType calls,
      fun _ => line_of_shared modelType calls⟩
    · obtain ⟨unit, here, code⟩ := denotes asked member
      obtain ⟨unit', there, code'⟩ := denotes asked' member'
      rw [← code, ← code']
      refine ⟨fun same => ?_, handle_eq_of_nodup apart here there⟩
      rw [same, there] at here
      rw [Option.some.inj here]
    · rcases register_dedupe policy apart call with ⟨handle, unit, -, -, same⟩ | ⟨new, -⟩
      · rw [same]
      · rw [code_of_shared, List.mem_eraseDups] at new
        exact absurd known new
  · rintro rfl
    exact ⟨register_perSite policy, handles_of_perSite modelType calls, units_of_perSite modelType calls⟩
  · rintro rfl
    have shared := indexed.shared (tables ▸ policy)
    rw [tables] at shared
    exact shared

theorem registerAll_consistent_blanks :
    let calls := [(" a ", ReturnKind.text, 1), ("a", .text, 2), ("a", .boolean, 3)]
    (UnitTable.empty "Page" .dedupe).handles calls = [0, 0, 1] ∧
      ((UnitTable.empty "Page" .dedupe).registerAll calls).units.map CodeUnit.code =
        [(.text, "a"), (.boolean, "a")] ∧
      ∀ unit ∈ ((UnitTable.empty "Page" .dedupe).registerAll calls).units, unit.code = (.text, "a") → unit.line = 1 := by
  intro calls
  obtain ⟨-, shared, -⟩ := registerAll_consistent "Page" .dedupe calls []
  obtain ⟨-, -, order, lines⟩ := shared rfl
  refine ⟨by decide, order.trans (by decide), fun unit member code => ?_⟩
  have line := lines unit member
  rw [code] at line
  exact (Option.some.inj line).symm

end Stencil
