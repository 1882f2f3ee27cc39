import Stencil.Proofs.Program.Messages

/-! The comments that a program begins with make no difference.

They hold no token, so that the type of model that they name moves the functions and does nothing else. All that the
interpreter finds in two such programs is the same but for the places, and it finds it in the same order.
-/

set_option autoImplicit false

namespace Stencil

open Program

/-- All that a diagnostic says but for its place in the program: the unit, the message and the line of the template. -/
def Diagnostic.gist (d : Diagnostic) : Option String × String × Option Nat := (d.unit, d.message, d.templateLine)

namespace Program

/-! ### Moving what a text brings to light -/

theorem repeated_move (distance : Nat) (declarations : List Declaration) (seen : List String) :
    repeated seen (declarations.map (Declaration.move distance)) =
      (repeated seen declarations).map (Declaration.move distance) := by
  induction declarations generalizing seen with
  | nil => rfl
  | cons d rest ih =>
    have name : (d.move distance).name = d.name := rfl
    rw [List.map_cons, repeated, repeated, name]
    split
    · rw [ih, List.map_cons]
    · exact ih _

theorem libraryOf_move (distance : Nat) (declarations : List Declaration) :
    libraryOf (declarations.map (Declaration.move distance)) = libraryOf declarations := by
  simp only [libraryOf, List.find?_map, Option.map_map]
  rfl

def Finding.startIn (length : Nat) (finding : Finding) : Nat :=
  match finding.fault.span with
  | some span => span.start
  | none => length

theorem start_diagnostic_move {source : String} {distance length : Nat} (size : source.utf8ByteSize = distance + length)
    (finding : Finding) :
    (Finding.diagnostic source (finding.move distance)).start = finding.startIn length + distance := by
  obtain ⟨unit, span, problem⟩ := finding
  cases span with
  | none => exact size.trans (Nat.add_comm _ _)
  | some span => rfl

/-! ### One batch for two types of model -/

section

variable {table : UnitTable} {references : List String}

theorem accountOf_programText (functions : List Function) (named : ∀ unit ∈ table.units, IsUnitName unit.name)
    (line : '\n' ∉ table.modelType.toList) :
    accountOf functions table.programText.toList =
      (accountOf functions (CodeUnit.declarations table.units)).move (byteLength (header table.modelType)) := by
  obtain ⟨block, none⟩ := isBlock_header line
  rw [UnitTable.toList_programText, accountOf_append block (CodeUnit.isHeaded_declarations named),
    accountOf_of_marks_nil none, Account.append_empty]

/-- The answer of the interpreter by what it has to tell. -/
theorem interpreter_eq (request : Request) :
    interpreter request =
      if (diagnosticsOf (interpreter request)).isEmpty then .ok (libraryOf (surveyFor request).declarations)
      else .error (diagnosticsOf (interpreter request)) := by
  rw [diagnosticsOf_interpreter]
  rfl

theorem declarations_surveyFor (named : ∀ unit ∈ table.units, IsUnitName unit.name)
    (line : '\n' ∉ table.modelType.toList) :
    (surveyFor (table.request references)).declarations =
      (accountOf (functionsOf references) (CodeUnit.declarations table.units)).survey.declarations.map
        (Declaration.move (byteLength (header table.modelType))) := by
  rw [surveyFor_eq]
  exact congrArg (fun a => a.survey.declarations) (accountOf_programText _ named line)

theorem findings_programText (named : ∀ unit ∈ table.units, IsUnitName unit.name)
    (line : '\n' ∉ table.modelType.toList) (functions : List Function) :
    (accountOf functions table.programText.toList).findings =
      (accountOf functions (CodeUnit.declarations table.units)).findings.map
        (Finding.move (byteLength (header table.modelType))) := by
  rw [accountOf_programText functions named line]
  exact (List.map_append ..).symm

theorem size_programText (table : UnitTable) :
    table.programText.utf8ByteSize =
      byteLength (header table.modelType) + byteLength (CodeUnit.declarations table.units) := by
  rw [← byteLength_toList, UnitTable.toList_programText, byteLength_append]

variable {other : UnitTable}

/-- Findings stand in the same order behind comments of any length. -/
theorem gists_sorted {source source' : String} {distance distance' length : Nat}
    (size : source.utf8ByteSize = distance + length) (size' : source'.utf8ByteSize = distance' + length)
    (findings : List Finding) :
    (((findings.map (Finding.move distance')).map (Finding.diagnostic source')).mergeSort
        fun a b => decide (a.start ≤ b.start)).map Diagnostic.gist =
      (((findings.map (Finding.move distance)).map (Finding.diagnostic source)).mergeSort
        fun a b => decide (a.start ≤ b.start)).map Diagnostic.gist := by
  rw [List.map_map, List.map_map]
  refine map_mergeSort_alike (fun a _ b _ => ?_) fun a _ => rfl
  simp only [Function.comp_def, start_diagnostic_move size, start_diagnostic_move size', decide_eq_decide]
  omega

theorem gists_repeated (source source' : String) (distance distance' : Nat) (declarations : List Declaration) :
    ((repeated [] (declarations.map (Declaration.move distance'))).map (Declaration.duplicate source')).map
        Diagnostic.gist =
      ((repeated [] (declarations.map (Declaration.move distance))).map (Declaration.duplicate source)).map
        Diagnostic.gist := by
  simp only [repeated_move, List.map_map]
  rfl

variable (references) in
/-- What the interpreter tells of two batches with the same units is the same but for the places. -/
theorem gists_interpreter (units : other.units = table.units) (named : ∀ unit ∈ table.units, IsUnitName unit.name)
    (line : '\n' ∉ table.modelType.toList) (line' : '\n' ∉ other.modelType.toList) :
    (diagnosticsOf (interpreter (other.request references))).map Diagnostic.gist =
      (diagnosticsOf (interpreter (table.request references))).map Diagnostic.gist := by
  have named' : ∀ unit ∈ other.units, IsUnitName unit.name := units ▸ named
  have size' := size_programText other
  rw [units] at size'
  have faults := gists_sorted (size_programText table) size'
    (accountOf (functionsOf references) (CodeUnit.declarations table.units)).findings
  rw [← findings_programText named line, ← units, ← findings_programText named' line'] at faults
  simp only [diagnosticsOf_interpreter, diagnostics_ofText, List.map_append]
  refine congrArg₂ _ (congrArg _ faults) ?_
  rw [declarations_surveyFor named line, declarations_surveyFor named' line', units]
  exact gists_repeated _ _ _ _ _

end

end Program

/-! ### Compiling it -/

namespace UnitTable

variable {table other : UnitTable} {references : List String}

theorem gist_locate (table : UnitTable) (d : Diagnostic) :
    (table.locate d).gist = (d.unit, d.message, (d.unit.bind table.lineOf?).or d.templateLine) := by
  unfold locate
  cases d.unit.bind table.lineOf? <;> rfl

theorem gists_locate (units : other.units = table.units) {diagnostics diagnostics' : List Diagnostic}
    (same : diagnostics'.map Diagnostic.gist = diagnostics.map Diagnostic.gist) :
    (diagnostics'.map other.locate).map Diagnostic.gist = (diagnostics.map table.locate).map Diagnostic.gist := by
  have lines : other.lineOf? = table.lineOf? := by
    funext name
    rw [lineOf?, lineOf?, units]
  -- The lines are found by the names of the units, so that what is located depends on the gist alone.
  have located : ∀ (t : UnitTable) (ds : List Diagnostic), (ds.map t.locate).map Diagnostic.gist =
      (ds.map Diagnostic.gist).map fun d => (d.1, d.2.1, (d.1.bind t.lineOf?).or d.2.2) := by
    intro t ds
    rw [List.map_map, List.map_map]
    exact List.map_congr_left fun d _ => t.gist_locate d
  rw [located, located, same, lines]

variable (other references) in
/-- A batch compiles to the same code for another type of model, or is refused for the same problems at other places. -/
theorem compile_header (units : other.units = table.units) (named : ∀ unit ∈ table.units, IsUnitName unit.name)
    (line : '\n' ∉ table.modelType.toList) (line' : '\n' ∉ other.modelType.toList) :
    (∃ resolved, table.compile interpreter references = .ok resolved ∧
      other.compile interpreter references = .ok resolved) ∨
    ∃ diagnostics diagnostics', table.compile interpreter references =
        .error (.compilationFailed table.modelType diagnostics) ∧
      other.compile interpreter references = .error (.compilationFailed other.modelType diagnostics') ∧
      diagnostics'.map Diagnostic.gist = diagnostics.map Diagnostic.gist := by
  have gists := gists_interpreter references units named line line'
  have named' : ∀ unit ∈ other.units, IsUnitName unit.name := units ▸ named
  have answer := interpreter_eq (table.request references)
  have answer' := interpreter_eq (other.request references)
  -- Both are taken or both refused, since what is told is the same but for the places.
  have empty : (diagnosticsOf (interpreter (other.request references))).isEmpty =
      (diagnosticsOf (interpreter (table.request references))).isEmpty := by
    rw [← List.isEmpty_map (f := Diagnostic.gist), gists, List.isEmpty_map]
  rw [declarations_surveyFor named line, libraryOf_move] at answer
  rw [declarations_surveyFor named' line', libraryOf_move, empty, units] at answer'
  unfold compile
  split at answer
  · rename_i none
    rw [if_pos none] at answer'
    rw [answer, answer', units]
    dsimp only
    split
    · exact .inl ⟨_, rfl, rfl⟩
    · exact .inr ⟨_, _, rfl, rfl, gists_locate units rfl⟩
  · rename_i some
    rw [if_neg some] at answer'
    rw [answer, answer']
    exact .inr ⟨_, _, rfl, rfl, gists_locate units gists⟩

end UnitTable

end Stencil
