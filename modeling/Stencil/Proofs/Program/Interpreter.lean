import Mathlib.Data.List.Nodup
import Stencil.Backend.Interpreter
import Stencil.Proofs.Program.Functions

/-! When the interpreter accepts a program.

It takes known libraries, a text whose reading brings nothing to light and functions of different names. In
the text of a batch this comes down to the code of the single units.
-/

set_option autoImplicit false

namespace Stencil

namespace Program

theorem repeated_eq_nil_iff {seen : List String} {declarations : List Declaration} :
    repeated seen declarations = [] ↔
      (declarations.map Declaration.name).Nodup ∧ ∀ d ∈ declarations, d.name ∉ seen := by
  induction declarations generalizing seen with
  | nil => simp [repeated]
  | cons d rest ih =>
    by_cases again : d.name ∈ seen
    · simp [repeated, again]
    · simp only [repeated, again, if_false, ih, List.mem_cons, not_or, List.map_cons, List.nodup_cons,
        List.mem_map, not_exists, not_and, forall_eq_or_imp, not_false_eq_true, true_and]
      constructor
      · rintro ⟨distinct, fresh⟩
        exact ⟨⟨fun e member => (fresh e member).1, distinct⟩, fun e member => (fresh e member).2⟩
      · rintro ⟨⟨fresh, distinct⟩, unseen⟩
        exact ⟨distinct, fun e member => ⟨fresh e member, unseen e member⟩⟩

theorem diagnostics_eq_nil_iff {functions : List Function} {source : String} :
    (Contents.ofText functions source).diagnostics = [] ↔
      (survey functions (tokenize source).1).findings = [] ∧ (tokenize source).2 = [] := by
  rw [← List.length_eq_zero_iff]
  simp [Contents.ofText, List.length_mergeSort]

/-- What the functions of a program are to callers. -/
def libraryOf (declarations : List Declaration) : Library :=
  { entryPoint? := fun name => (declarations.find? fun d => d.name = name).map Declaration.entryPoint }

section

variable {request : Request} {library : Library}

def surveyFor (request : Request) : Survey :=
  survey (functionsOf request.references) (tokenize request.source).1

theorem interpreter_eq_ok_iff :
    interpreter request = .ok library ↔
      (∀ reference ∈ request.references, (library? reference).isSome) ∧
      (surveyFor request).findings = [] ∧ (tokenize request.source).2 = [] ∧
      ((surveyFor request).declarations.map Declaration.name).Nodup ∧
      library = libraryOf (surveyFor request).declarations := by
  have declarations : (Contents.ofText (functionsOf request.references) request.source).declarations =
      (surveyFor request).declarations := rfl
  have problems :
      ((request.references.filter fun name => (library? name).isNone).map unknownLibrary ++
          (Contents.ofText (functionsOf request.references) request.source).diagnostics ++
          (repeated [] (surveyFor request).declarations).map (Declaration.duplicate request.source)).isEmpty ↔
        (∀ reference ∈ request.references, (library? reference).isSome) ∧
        (surveyFor request).findings = [] ∧ (tokenize request.source).2 = [] ∧
        ((surveyFor request).declarations.map Declaration.name).Nodup := by
    rw [List.isEmpty_iff, List.append_eq_nil_iff, List.append_eq_nil_iff, List.map_eq_nil_iff,
      List.map_eq_nil_iff, diagnostics_eq_nil_iff, repeated_eq_nil_iff, List.filter_eq_nil_iff, surveyFor]
    simp [and_assoc, Option.isSome_iff_ne_none]
  simp only [interpreter, declarations]
  split
  · rename_i none
    have good := problems.mp none
    simp only [Except.ok.injEq]
    constructor
    · rintro rfl
      exact ⟨good.1, good.2.1, good.2.2.1, good.2.2.2, rfl⟩
    · rintro ⟨_, _, _, _, rfl⟩
      rfl
  · rename_i some
    simp only [reduceCtorEq, false_iff]
    rintro ⟨known, findings, errors, distinct, _⟩
    exact some (problems.mpr ⟨known, findings, errors, distinct⟩)

theorem interpreter_eq_error (findings : (surveyFor request).findings = []) (errors : (tokenize request.source).2 = [])
    (distinct : ((surveyFor request).declarations.map Declaration.name).Nodup)
    (unknown : ∃ reference ∈ request.references, library? reference = none) :
    interpreter request =
      .error ((request.references.filter fun name => (library? name).isNone).map unknownLibrary) := by
  have faults : (Contents.ofText (functionsOf request.references) request.source).diagnostics = [] :=
    diagnostics_eq_nil_iff.mpr ⟨findings, errors⟩
  have duplicates : repeated [] (Contents.ofText (functionsOf request.references) request.source).declarations = [] :=
    repeated_eq_nil_iff.mpr ⟨distinct, by simp⟩
  have some : ((request.references.filter fun name => (library? name).isNone).map unknownLibrary).isEmpty = false := by
    simpa [List.filter_eq_nil_iff] using unknown
  simp only [interpreter, faults, duplicates, List.map_nil, List.append_nil, some, Bool.false_eq_true, if_false]

end

end Program

end Stencil
