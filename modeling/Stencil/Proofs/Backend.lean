import Stencil.Backend.Resolve

/-! What a batch compile gives when it succeeds. -/

set_option autoImplicit false

namespace Stencil

theorem problemsOf_eq_nil_iff {ε α : Type} {results : List (Except ε α)} :
    problemsOf results = [] ↔ ∀ result ∈ results, ∃ a, result = .ok a := by
  simp only [problemsOf, List.filterMap_eq_nil_iff]
  constructor
  · intro none result member
    cases result with
    | ok a => exact ⟨a, rfl⟩
    | error problem => cases none _ member
  · rintro all result member
    obtain ⟨a, rfl⟩ := all result member
    rfl

theorem getElem?_filterMap_toOption {ε α : Type} {results : List (Except ε α)}
    (all : ∀ result ∈ results, ∃ a, result = .ok a) (place : Nat) :
    (results.filterMap Except.toOption)[place]? = results[place]?.bind Except.toOption := by
  induction results generalizing place with
  | nil => rfl
  | cons result rest ih =>
    obtain ⟨a, rfl⟩ := all result List.mem_cons_self
    have ih := ih fun result member => all result (List.mem_cons_of_mem _ member)
    cases place with
    | zero => rfl
    | succ place => simpa [Except.toOption] using ih place

theorem CodeUnit.resolve_eq_ok_iff {unit : CodeUnit} {library : Library} {entry : EntryPoint} :
    unit.resolve library = .ok entry ↔ library.entryPoint? unit.name = some entry ∧ entry.kind = unit.kind := by
  unfold resolve
  cases library.entryPoint? unit.name with
  | none => simp
  | some found =>
    by_cases same : found.kind = unit.kind
    · simp only [same, if_true, Except.ok.injEq, Option.some.injEq]
      constructor
      · rintro rfl
        exact ⟨rfl, same⟩
      · exact fun h => h.1
    · simp only [same, if_false, reduceCtorEq, Option.some.injEq, false_iff, not_and]
      rintro rfl
      exact same

/-- A batch compile succeeds exactly when the backend answers with an entry point of the right kind for each
unit; each unit then has its own at its handle. -/
theorem UnitTable.compile_eq_ok_iff {table : UnitTable} {backend : Backend} {references : List String}
    {resolved : ResolvedUnits} :
    table.compile backend references = .ok resolved ↔
      ∃ library, backend (table.request references) = .ok library ∧
        (∀ unit ∈ table.units, ∃ entry, unit.resolve library = .ok entry) ∧
        resolved.names = table.units.map CodeUnit.name ∧
        resolved.entries = (table.units.map fun unit => unit.resolve library).filterMap Except.toOption := by
  unfold compile
  cases backend (table.request references) with
  | error diagnostics => simp
  | ok library =>
    simp only [Except.ok.injEq, exists_eq_left']
    have good : problemsOf (table.units.map fun unit => unit.resolve library) = [] ↔
        ∀ unit ∈ table.units, ∃ entry, unit.resolve library = .ok entry := by
      rw [problemsOf_eq_nil_iff, List.forall_mem_map]
    -- Both sides ask for the same: the compile succeeds exactly when there is no problem.
    rw [← good]
    split
    · rename_i none
      simp only [Except.ok.injEq, none, true_and]
      constructor
      · rintro rfl
        exact ⟨rfl, rfl⟩
      · rintro ⟨names, entries⟩
        rw [← names, ← entries]
    · rename_i some
      simp only [reduceCtorEq, false_iff, not_and]
      exact fun none => absurd none some

theorem UnitTable.exists_compile {table : UnitTable} {backend : Backend} {references : List String}
    {library : Library} (answered : backend (table.request references) = .ok library)
    (good : ∀ unit ∈ table.units, ∃ entry, unit.resolve library = .ok entry) :
    ∃ resolved, table.compile backend references = .ok resolved :=
  ⟨⟨_, _⟩, compile_eq_ok_iff.2 ⟨library, answered, good, rfl, rfl⟩⟩

namespace ResolvedUnits

variable {table : UnitTable} {library : Library} {resolved : ResolvedUnits}

theorem get?_eq (good : ∀ unit ∈ table.units, ∃ entry, unit.resolve library = .ok entry)
    (entries : resolved.entries = (table.units.map fun unit => unit.resolve library).filterMap Except.toOption)
    (handle : Nat) :
    resolved.get? handle = table.units[handle]?.bind fun unit => (unit.resolve library).toOption := by
  rw [get?, entries, getElem?_filterMap_toOption, List.getElem?_map]
  · cases table.units[handle]? <;> rfl
  · rw [List.forall_mem_map]
    exact good

theorem name_eq (names : resolved.names = table.units.map CodeUnit.name) {handle : Nat} {unit : CodeUnit}
    (found : table.units[handle]? = some unit) : resolved.name handle = unit.name := by
  simp [name, names, found]

end ResolvedUnits

end Stencil
