import Mathlib.Data.List.Forall2
import Stencil.Proofs.Backend
import Stencil.Proofs.Registration

/-! All units of a batch are found, or none is.

A unit that a library does not provide is a problem of its own, and with any problem there are no entry points at all.
So what is found stands at the handles of the units. Problems are told with the line of the registration that the unit
comes from, whoever finds them.
-/

set_option autoImplicit false

namespace Stencil

def Library.provides (library : Library) (unit : CodeUnit) : Bool :=
  (library.entryPoint? unit.name).any fun entry => entry.kind = unit.kind

structure Library.Misses (library : Library) (unit : CodeUnit) (d : Diagnostic) : Prop where
  about : d.unit = some unit.name
  line : d.line = 0
  span : d.span = none
  cause : (library.entryPoint? unit.name = none ∧ d.message = "compiled library has no such entry point") ∨
    ∃ entry, library.entryPoint? unit.name = some entry ∧ entry.kind ≠ unit.kind ∧
      d.message = "entry point returns " ++ entry.kind.describe ++ ", expected " ++ unit.kind.describe

theorem CodeUnit.resolve_cases (unit : CodeUnit) (library : Library) :
    (library.provides unit = true ∧ ∃ entry, unit.resolve library = .ok entry) ∨
      (library.provides unit = false ∧ ∃ d, unit.resolve library = .error d ∧ library.Misses unit d) := by
  unfold resolve Library.provides
  cases found : library.entryPoint? unit.name with
  | none => exact .inr ⟨rfl, _, rfl, rfl, rfl, rfl, .inl ⟨found, rfl⟩⟩
  | some entry =>
    by_cases same : entry.kind = unit.kind
    · exact .inl ⟨by simp [same], entry, by simp [same]⟩
    · exact .inr ⟨by simp [same], _, if_neg same, rfl, rfl, rfl, .inr ⟨entry, found, same, rfl⟩⟩

/-- There is one problem for each unit that is not provided, in the order of the units. -/
theorem forall₂_problemsOf (library : Library) (units : List CodeUnit) :
    List.Forall₂ library.Misses (units.filter fun unit => !library.provides unit)
      (problemsOf (units.map fun unit => unit.resolve library)) := by
  induction units with
  | nil => exact .nil
  | cons unit rest ih =>
    rcases unit.resolve_cases library with ⟨provided, entry, found⟩ | ⟨missing, d, problem, misses⟩
    · rw [List.filter_cons_of_neg (by simp [provided]), problemsOf, List.map_cons, found]
      exact ih
    · rw [List.filter_cons_of_pos (by simp [missing]), problemsOf, List.map_cons, problem]
      exact .cons misses ih

namespace UnitTable

/-- The line of the first of some registrations that was given a handle. -/
def firstLine? (calls : List (String × ReturnKind × Nat)) (given : List Nat) (handle : Nat) : Option Nat :=
  ((calls.zip given).find? fun asked => asked.2 = handle).map fun asked => asked.1.2.2

/-- A unit has the line of the registration that it comes from. -/
theorem firstLine?_eq (modelType : String) (sharing : Sharing) (calls : List (String × ReturnKind × Nat))
    {handle : Nat} {unit : CodeUnit} (here : ((empty modelType sharing).registerAll calls).units[handle]? = some unit) :
    firstLine? calls ((empty modelType sharing).handles calls) handle = some unit.line := by
  induction calls using List.reverseRecOn with
  | nil => simp [registerAll, empty] at here
  | append_singleton calls call ih =>
    let table := (empty modelType sharing).registerAll calls
    have zip : (calls ++ [call]).zip ((empty modelType sharing).handles (calls ++ [call])) =
        calls.zip ((empty modelType sharing).handles calls) ++
          [(call, (table.register call.1 call.2.1 call.2.2).1)] := by
      rw [handles_append, List.zip_append (length_handles _ calls).symm]
      rfl
    -- A call that is found among those before stays the first one that is found.
    have before (old : table.units[handle]? = some unit) :
        firstLine? (calls ++ [call]) ((empty modelType sharing).handles (calls ++ [call])) handle = some unit.line := by
      obtain ⟨asked, found, line⟩ := Option.map_eq_some_iff.mp (ih old)
      rw [firstLine?, zip, List.find?_append, found]
      exact congrArg some line
    rw [registerAll_append] at here
    change (table.register call.1 call.2.1 call.2.2).2.units[handle]? = some unit at here
    rcases table.register_cases call.1 call.2.1 call.2.2 with ⟨_, -, -, same⟩ | ⟨-, same⟩
    · rw [same] at here
      exact before here
    · rw [same] at here zip
      rcases Nat.lt_or_ge handle table.units.length with old | new
      · exact before ((List.getElem?_append_left old).symm.trans here)
      · -- The handle is new, so that it was not given before.
        have fresh :
            (calls.zip ((empty modelType sharing).handles calls)).find? (fun asked => asked.2 = handle) = none := by
          rw [List.find?_eq_none]
          intro asked member given
          obtain ⟨other, there, -⟩ := exists_unit_of_handles _ calls asked member
          have bound := (List.getElem?_eq_some_iff.mp there).1
          exact absurd (of_decide_eq_true given ▸ bound) (Nat.not_lt.mpr new)
        rw [append, List.getElem?_append_right new] at here
        obtain ⟨zero, rfl⟩ : handle - table.units.length = 0 ∧ _ = unit := by
          simpa [List.getElem?_singleton] using here
        obtain rfl : handle = table.units.length := by omega
        rw [firstLine?, zip, List.find?_append, fresh]
        simp

/-- A diagnostic as it is told: that of a unit has the line of the first registration that was given the unit's handle,
and all else is unchanged. -/
structure Tells (table : UnitTable) (first : Nat → Option Nat) (given told : Diagnostic) : Prop where
  rest : told = { given with templateLine := told.templateLine }
  known : ∀ (handle : Nat) (unit : CodeUnit), table.units[handle]? = some unit → given.unit = some unit.name →
    told.templateLine = first handle ∧ (first handle).isSome
  unknown : (∀ unit ∈ table.units, given.unit ≠ some unit.name) → told = given

variable {table : UnitTable}

theorem lineOf?_eq_some (distinct : (table.units.map CodeUnit.name).Nodup) {handle : Nat} {unit : CodeUnit}
    (here : table.units[handle]? = some unit) : table.lineOf? unit.name = some unit.line := by
  cases found : table.units.find? fun other => other.name = unit.name with
  | none => exact absurd (List.find?_eq_none.mp found unit (List.mem_of_getElem? here)) (by simp)
  | some other =>
    -- No other unit has the same name.
    obtain ⟨place, there⟩ := List.getElem?_of_mem (List.mem_of_find?_eq_some found)
    have name : other.name = unit.name := by simpa using List.find?_some found
    obtain rfl := handle_eq_of_nodup distinct there here name
    rw [lineOf?, found, Option.some.inj (there.symm.trans here)]
    rfl

theorem lineOf?_eq_none {name : String} (none : ∀ unit ∈ table.units, name ≠ unit.name) :
    table.lineOf? name = .none := by
  rw [lineOf?, Option.map_eq_none_iff, List.find?_eq_none]
  intro unit member same
  exact none unit member (of_decide_eq_true same).symm

theorem tells_locate (distinct : (table.units.map CodeUnit.name).Nodup) {first : Nat → Option Nat}
    (lines : ∀ (handle : Nat) (unit : CodeUnit), table.units[handle]? = some unit → first handle = some unit.line)
    (d : Diagnostic) : table.Tells first d (table.locate d) where
  rest := by
    unfold locate
    split <;> rfl
  known handle unit here about := by
    rw [locate, about, Option.bind_some, lineOf?_eq_some distinct here, lines handle unit here]
    exact ⟨rfl, rfl⟩
  unknown none := by
    unfold locate
    cases about : d.unit with
    | none => rfl
    | some name =>
      rw [Option.bind_some, lineOf?_eq_none fun unit member same => none unit member (about.trans (congrArg some same))]

/-- How a batch fails: with the problems of the backend, or with those of the units, of which there is one at least. -/
theorem compile_eq_error_iff {backend : Backend} {references : List String} {error : CompileError} :
    table.compile backend references = .error error ↔
      ∃ problems, error = table.failure problems ∧
        (backend (table.request references) = .error problems ∨
          ∃ library, backend (table.request references) = .ok library ∧ problems ≠ [] ∧
            problems = problemsOf (table.units.map fun unit => unit.resolve library)) := by
  unfold compile
  cases backend (table.request references) with
  | error diagnostics =>
    simp only [Except.error.injEq, reduceCtorEq, false_and, exists_false, or_false]
    constructor
    · rintro rfl
      exact ⟨_, rfl, rfl⟩
    · rintro ⟨_, rfl, rfl⟩
      rfl
  | ok library =>
    simp only [Except.ok.injEq, reduceCtorEq, false_or, exists_eq_left']
    split
    · rename_i none
      simp only [none, reduceCtorEq, false_iff, not_exists]
      rintro _ ⟨-, some, rfl⟩
      exact some rfl
    · rename_i some
      simp only [Except.error.injEq]
      constructor
      · rintro rfl
        exact ⟨_, rfl, some, rfl⟩
      · rintro ⟨_, rfl, -, rfl⟩
        rfl

theorem forall₂_tells (distinct : (table.units.map CodeUnit.name).Nodup) {first : Nat → Option Nat}
    (lines : ∀ (handle : Nat) (unit : CodeUnit), table.units[handle]? = some unit → first handle = some unit.line)
    (problems : List Diagnostic) : List.Forall₂ (table.Tells first) problems (problems.map table.locate) := by
  rw [List.forall₂_map_right_iff, List.forall₂_same]
  exact fun d _ => tells_locate distinct lines d

theorem provides_iff {library : Library} {unit : CodeUnit} :
    library.provides unit = true ↔ ∃ entry, unit.resolve library = .ok entry := by
  rcases unit.resolve_cases library with ⟨provided, found⟩ | ⟨missing, d, problem, -⟩
  · exact ⟨fun _ => found, fun _ => provided⟩
  · simp [missing, problem]

structure Resolves (table : UnitTable) (library : Library) (resolved : ResolvedUnits) : Prop where
  size : resolved.size = table.units.length
  entry : ∀ (handle : Nat) (unit : CodeUnit), table.units[handle]? = some unit →
    ∃ entry, resolved.get? handle = some entry ∧ library.entryPoint? unit.name = some entry ∧ entry.kind = unit.kind
  name : ∀ (handle : Nat) (unit : CodeUnit), table.units[handle]? = some unit → resolved.name handle = unit.name

theorem exists_compile_iff {backend : Backend} {references : List String} :
    (∃ resolved, table.compile backend references = .ok resolved) ↔
      ∃ library, backend (table.request references) = .ok library ∧ ∀ unit ∈ table.units, library.provides unit := by
  constructor
  · rintro ⟨resolved, ok⟩
    obtain ⟨library, answered, good, -⟩ := compile_eq_ok_iff.mp ok
    exact ⟨library, answered, fun unit member => provides_iff.mpr (good unit member)⟩
  · rintro ⟨library, answered, good⟩
    exact exists_compile answered fun unit member => provides_iff.mp (good unit member)

theorem resolves_of_compile {backend : Backend} {references : List String} {resolved : ResolvedUnits}
    (ok : table.compile backend references = .ok resolved) :
    ∃ library, backend (table.request references) = .ok library ∧ table.Resolves library resolved := by
  obtain ⟨library, answered, good, names, entries⟩ := compile_eq_ok_iff.mp ok
  refine ⟨library, answered, ?_, fun handle unit here => ?_, fun handle unit here => ResolvedUnits.name_eq names here⟩
  · have all : ∀ result ∈ table.units.map fun unit => unit.resolve library, result.toOption.isSome := by
      rw [List.forall_mem_map]
      intro unit member
      obtain ⟨entry, found⟩ := good unit member
      rw [found]
      rfl
    rw [ResolvedUnits.size, entries, List.length_filterMap_eq_countP, List.countP_eq_length.mpr all, List.length_map]
  · obtain ⟨entry, found⟩ := good unit (List.mem_of_getElem? here)
    refine ⟨entry, ?_, CodeUnit.resolve_eq_ok_iff.mp found⟩
    rw [ResolvedUnits.get?_eq good entries, here, Option.bind_some, found]
    rfl

/-- The units of a batch are found all together, each at its handle, or not at all. A problem is told with the line of
the first registration of its unit. -/
theorem compile_all_or_nothing (modelType : String) (sharing : Sharing) (calls : List (String × ReturnKind × Nat))
    (backend : Backend) (references : List String)
    (distinct : (((empty modelType sharing).registerAll calls).units.map CodeUnit.name).Nodup) :
    let table := (empty modelType sharing).registerAll calls
    let first := firstLine? calls ((empty modelType sharing).handles calls)
    ((∃ resolved, table.compile backend references = .ok resolved) ↔
      ∃ library, backend (table.request references) = .ok library ∧ ∀ unit ∈ table.units, library.provides unit) ∧
    (∀ resolved, table.compile backend references = .ok resolved →
      ∃ library, backend (table.request references) = .ok library ∧ table.Resolves library resolved) ∧
    ∀ error, table.compile backend references = .error error →
      ∃ problems told, error = .compilationFailed modelType told ∧ List.Forall₂ (table.Tells first) problems told ∧
        (backend (table.request references) = .error problems ∨
          ∃ library, backend (table.request references) = .ok library ∧
            List.Forall₂ library.Misses (table.units.filter fun unit => !library.provides unit) problems) := by
  intro table first
  refine ⟨exists_compile_iff, fun resolved ok => resolves_of_compile ok, fun error failed => ?_⟩
  obtain ⟨problems, rfl, origin⟩ := compile_eq_error_iff.mp failed
  refine ⟨problems, problems.map table.locate, ?_, ?_, ?_⟩
  · exact congrArg (CompileError.compilationFailed · _) ((empty modelType sharing).settings_registerAll calls).1
  · exact forall₂_tells distinct (fun handle unit here => firstLine?_eq modelType sharing calls here) problems
  · rcases origin with refused | ⟨library, answered, -, rfl⟩
    · exact .inl refused
    · exact .inr ⟨library, answered, forall₂_problemsOf library table.units⟩

theorem compile_all_or_nothing_wrong_kind :
    let table := (empty "M" .perSite).registerAll [("a", .text, 4), ("b", .boolean, 2)]
    let backend : Backend := fun _ => .ok { entryPoint? := fun _ => some (.text fun _ => .ok "") }
    (table.units.map CodeUnit.name).Nodup ∧
      ∃ told, table.compile backend [] = .error (.compilationFailed "M" told) ∧
        told.map Diagnostic.templateLine = [some 2] := by
  intro table backend
  have distinct : (table.units.map CodeUnit.name).Nodup :=
    (IsNamed.registerAll _ (isNamed_empty "M" .perSite)).distinct rfl
  refine ⟨distinct, ?_⟩
  obtain ⟨succeeds, -, fails⟩ :=
    compile_all_or_nothing "M" .perSite [("a", .text, 4), ("b", .boolean, 2)] backend [] distinct
  cases answer : table.compile backend [] with
  | ok resolved =>
    obtain ⟨library, answered, good⟩ := succeeds.mp ⟨resolved, answer⟩
    cases answered
    exact absurd (good _ (List.mem_of_getElem? (rfl : table.units[1]? = some _))) (by decide)
  | error error =>
    obtain ⟨problems, told, rfl, located, refused | ⟨library, answered, missed⟩⟩ := fails error answer
    · cases refused
    · cases answered
      obtain ⟨d, _, misses, none, rfl⟩ := List.forall₂_cons_left_iff.mp missed
      obtain rfl := List.forall₂_nil_left_iff.mp none
      obtain ⟨d', _, tells, none, rfl⟩ := List.forall₂_cons_left_iff.mp located
      obtain rfl := List.forall₂_nil_left_iff.mp none
      exact ⟨_, rfl, congrArg ([·]) (tells.known 1 _ rfl misses.about).1⟩

end UnitTable

end Stencil
