import Stencil.Proofs.Backend
import Stencil.Proofs.Program.Interpreter

/-! A batch compile against its units one by one.

Units that are whole expressions each for itself compile together, and each gets the code of its own
expression. A batch that compiles is made of such units, unless the code of a unit leaves a string open or
holds a closing brace; then the text of one unit can end its function or take in that of the next.
-/

set_option autoImplicit false

namespace Stencil

open Json (Value)
open Program

structure IsExpression (functions : List Function) (source : String) (e : Expr) : Prop where
  clean : (tokenize source).2 = []
  whole : IsWhole functions (tokenize source).1 e

/-- A piece of code, taken alone, leaves no string open and has no closing brace. -/
structure IsPlain (source : String) : Prop where
  closed : ¬ leavesOpen source.toList
  plain : ∀ t ∈ (tokenize source).1, t.token ≠ .symbol .closeBrace

def UnitTable.IsRegistered (table : UnitTable) : Prop :=
  ∃ modelType sharing calls, table = (UnitTable.empty modelType sharing).registerAll calls

/-- An entry point is of the kind of a unit and gives what the value of an expression comes to. -/
def Evaluates (e : Expr) : ReturnKind → EntryPoint → Prop
  | .text, .text call => ∀ model, call model =
    match evaluate model e with
    | .ok value => .ok (textOf value)
    | .error error => .error (.eval error)
  | .boolean, .boolean call => ∀ model, call model =
    match evaluate model e with
    | .ok (.bool b) => .ok b
    | .ok value => .error (.eval (.typeMismatch [.bool] value.kind))
    | .error error => .error (.eval error)
  | _, _ => False

theorem UnitTable.IsRegistered.named {table : UnitTable} (registered : table.IsRegistered)
    {first rest : List CodeUnit} (units : table.units = first ++ rest) :
    ∀ unit ∈ first, IsUnitName unit.name := by
  obtain ⟨modelType, sharing, calls, rfl⟩ := registered
  intro unit member
  apply isUnitName_registerAll modelType sharing calls
  rw [units]
  exact List.mem_append_left rest member

theorem Program.IsWhole.unique {functions : List Function} {tokens : List Lexeme} {e f : Expr}
    (first : IsWhole functions tokens e) (second : IsWhole functions tokens f) : e = f :=
  Except.ok.inj (first.outcome.symm.trans second.outcome)

theorem IsExpression.isPlain {functions : List Function} {source : String} {e : Expr}
    (expression : IsExpression functions source e) : IsPlain source := by
  constructor
  · intro open_
    obtain ⟨kind, member, bad⟩ := exists_bad_of_leavesOpen open_
    exact (errors_tokenize source).mp expression.clean kind member bad
  · exact expression.whole.plain

section

variable {table : UnitTable} {references : List String} {first rest : List CodeUnit}

theorem tokens_programText (line : '\n' ∉ table.modelType.toList) (units : table.units = first ++ rest)
    (named : ∀ unit ∈ first, IsUnitName unit.name)
    (closed : ∀ unit ∈ first, ¬ leavesOpen unit.source.toList) :
    (tokenize table.programText).1.map Lexeme.token =
      first.flatMap unitTokens ++ tokensOf (marks (rest.flatMap fun unit => unit.declaration.toList)) := by
  rw [tokens_tokenize, UnitTable.marks_programText line units named closed, tokensOf,
    List.filterMap_append]
  congr 1
  rw [List.filterMap_flatMap]
  congr 1
  funext unit
  exact tokensOf_unitMarks unit

theorem errors_unitMarks (unit : CodeUnit) :
    (∀ kind ∈ unit.marks, ¬ kind.isBad) ↔ (tokenize unit.source).2 = [] := by
  rw [errors_tokenize, CodeUnit.marks, List.forall_mem_append, List.forall_mem_append,
    List.forall_mem_map, List.forall_mem_singleton]
  simp [PieceKind.isBad]

theorem errors_programText (line : '\n' ∉ table.modelType.toList) (units : table.units = first ++ rest)
    (named : ∀ unit ∈ first, IsUnitName unit.name)
    (closed : ∀ unit ∈ first, ¬ leavesOpen unit.source.toList) :
    (tokenize table.programText).2 = [] ↔
      (∀ unit ∈ first, (tokenize unit.source).2 = []) ∧
        ∀ kind ∈ marks (rest.flatMap fun unit => unit.declaration.toList), ¬ kind.isBad := by
  rw [errors_tokenize, UnitTable.marks_programText line units named closed, List.forall_mem_append,
    List.forall_mem_flatMap]
  simp only [errors_unitMarks]

variable (references) in
/-- Units in front that are whole expressions are declared in order, and nothing else before them. -/
theorem survey_programText (line : '\n' ∉ table.modelType.toList) (units : table.units = first ++ rest)
    (named : ∀ unit ∈ first, IsUnitName unit.name)
    (closed : ∀ unit ∈ first, ¬ leavesOpen unit.source.toList)
    (wholes : ∀ unit ∈ first, ∃ e, IsWhole (functionsOf references) (tokenize unit.source).1 e) :
    ∃ declarations headers later,
      List.Forall₂ (Declares (functionsOf references)) first declarations ∧
      surveyFor (table.request references) =
        ({ declarations, findings := [], headers } : Survey).append later ∧
      (rest = [] → later = .empty) := by
  have tokens := tokens_programText line units named closed
  obtain ⟨more, declarations, headers, moreTokens, declares, found⟩ := survey_units wholes tokens
  refine ⟨declarations, headers, survey (functionsOf references) more, declares, found, ?_⟩
  rintro rfl
  rw [List.flatMap_nil, marks_nil] at moreTokens
  rw [List.map_eq_nil_iff.mp moreTokens, survey]

end

section

variable {functions : List Function} {unit : CodeUnit} {units : List CodeUnit}
  {declarations : List Declaration} {d : Declaration}

theorem Program.Declares.evaluates (declares : Declares functions unit d) :
    Evaluates d.body unit.kind d.entryPoint := by
  rw [← declares.kind]
  unfold Declaration.entryPoint
  cases d.kind with
  | text =>
    intro model
    show (textFor model d.body).mapError UnitError.eval = _
    unfold textFor
    cases evaluate model d.body <;> rfl
  | boolean =>
    intro model
    show (decideOn model d.body).mapError UnitError.eval = _
    unfold decideOn
    cases evaluate model d.body with
    | error error => rfl
    | ok value => cases value <;> rfl

theorem Program.Declares.entryPoint_kind (declares : Declares functions unit d) :
    d.entryPoint.kind = unit.kind := by
  rw [← declares.kind]
  unfold Declaration.entryPoint
  cases d.kind <;> rfl

theorem Program.Declares.entryPoint_eq {other : CodeUnit} {d' : Declaration} (declares : Declares functions unit d)
    (declares' : Declares functions other d') (kind : unit.kind = other.kind) (source : unit.source = other.source) :
    d.entryPoint = d'.entryPoint := by
  have body : d.body = d'.body := IsWhole.unique declares.body (source ▸ declares'.body)
  unfold Declaration.entryPoint
  rw [body, declares.kind, declares'.kind, kind]

theorem names_of_declares (declares : List.Forall₂ (Declares functions) units declarations) :
    declarations.map Declaration.name = units.map CodeUnit.name := by
  induction declares with
  | nil => rfl
  | cons first _ ih => rw [List.map_cons, List.map_cons, first.name, ih]

theorem find_declares (declares : List.Forall₂ (Declares functions) units declarations)
    (distinct : (units.map CodeUnit.name).Nodup) (member : unit ∈ units) :
    ∃ d, (declarations.find? fun d => d.name = unit.name) = some d ∧ Declares functions unit d := by
  induction declares with
  | nil => cases member
  | @cons other d units declarations first rest ih =>
    rw [List.map_cons, List.nodup_cons] at distinct
    by_cases here : d.name = unit.name
    · -- A later unit cannot have the name of the first one.
      rcases List.mem_cons.mp member with rfl | later
      · exact ⟨d, List.find?_cons_of_pos (by simpa using here), first⟩
      · rw [first.name] at here
        exact absurd (here ▸ List.mem_map_of_mem later) distinct.1
    · rcases List.mem_cons.mp member with rfl | later
      · exact absurd first.name here
      · rw [List.find?_cons_of_neg (by simpa using here)]
        exact ih distinct.2 later

theorem resolve_of_declares {other : CodeUnit}
    (declares : List.Forall₂ (Declares functions) units declarations)
    (distinct : (units.map CodeUnit.name).Nodup) (member : other ∈ units) (name : other.name = unit.name)
    (kind : other.kind = unit.kind) :
    ∃ d, Declares functions other d ∧ unit.resolve (libraryOf declarations) = .ok d.entryPoint := by
  obtain ⟨d, found, declared⟩ := find_declares declares distinct member
  refine ⟨d, declared, ?_⟩
  rw [CodeUnit.resolve_eq_ok_iff, ← name, ← kind]
  exact ⟨by simp [libraryOf, found], declared.entryPoint_kind⟩

end

section

variable {table : UnitTable} {references : List String} {shown : List CodeUnit}

/-- A program text that reads as the functions of units which are expressions declares them. -/
theorem surveyFor_of_tokens {request : Request}
    (tokens : (tokenize request.source).1.map Lexeme.token = shown.flatMap unitTokens)
    (wholes : ∀ unit ∈ shown, ∃ e, IsWhole (functionsOf request.references) (tokenize unit.source).1 e) :
    ∃ declarations headers, List.Forall₂ (Declares (functionsOf request.references)) shown declarations ∧
      surveyFor request = { declarations, findings := [], headers } := by
  rw [← List.append_nil (shown.flatMap unitTokens)] at tokens
  obtain ⟨more, declarations, headers, moreTokens, declares, found⟩ := survey_units wholes tokens
  refine ⟨declarations, headers, declares, Eq.trans found ?_⟩
  rw [List.map_eq_nil_iff.mp moreTokens, survey]
  simp [Survey.append, Survey.empty]

theorem answered_of_tokens (known : ∀ reference ∈ references, (library? reference).isSome)
    (errors : (tokenize table.programText).2 = [])
    (tokens : (tokenize table.programText).1.map Lexeme.token = shown.flatMap unitTokens)
    (wholes : ∀ unit ∈ shown, ∃ e, IsWhole (functionsOf references) (tokenize unit.source).1 e)
    (distinct : (shown.map CodeUnit.name).Nodup) :
    ∃ declarations, List.Forall₂ (Declares (functionsOf references)) shown declarations ∧
      interpreter (table.request references) = .ok (libraryOf declarations) := by
  have reads : ((tokenize (table.request references).source).1.map Lexeme.token) = shown.flatMap unitTokens := tokens
  obtain ⟨declarations, headers, declares, all⟩ := surveyFor_of_tokens reads wholes
  refine ⟨declarations, declares, ?_⟩
  rw [interpreter_eq_ok_iff, all, names_of_declares declares]
  exact ⟨known, rfl, errors, distinct, rfl⟩

theorem compile_of_declares {declarations : List Declaration}
    (answered : interpreter (table.request references) = .ok (libraryOf declarations))
    (declares : List.Forall₂ (Declares (functionsOf references)) shown declarations)
    (distinct : (shown.map CodeUnit.name).Nodup)
    (shows : ∀ unit ∈ table.units, ∃ other ∈ shown, other.name = unit.name ∧ other.kind = unit.kind) :
    ∃ resolved, table.compile interpreter references = .ok resolved := by
  apply UnitTable.exists_compile answered
  intro unit member
  obtain ⟨other, present, name, kind⟩ := shows unit member
  obtain ⟨d, _, resolved⟩ := resolve_of_declares declares distinct present name kind
  exact ⟨d.entryPoint, resolved⟩

theorem surveyFor_of_isExpression (named : ∀ unit ∈ table.units, IsUnitName unit.name)
    (line : '\n' ∉ table.modelType.toList)
    (expressions : ∀ unit ∈ table.units, ∃ e, IsExpression (functionsOf references) unit.source e) :
    (tokenize (table.request references).source).2 = [] ∧ ∃ declarations headers,
      List.Forall₂ (Declares (functionsOf references)) table.units declarations ∧
      surveyFor (table.request references) = { declarations, findings := [], headers } := by
  have closed : ∀ unit ∈ table.units, ¬ leavesOpen unit.source.toList := by
    intro unit member
    obtain ⟨e, expression⟩ := expressions unit member
    exact expression.isPlain.closed
  have units : table.units = table.units ++ [] := (List.append_nil _).symm
  have tokens : (tokenize (table.request references).source).1.map Lexeme.token = table.units.flatMap unitTokens := by
    show (tokenize table.programText).1.map Lexeme.token = _
    rw [tokens_programText line units named closed, List.flatMap_nil, marks_nil]
    exact List.append_nil _
  constructor
  · refine (errors_programText line units named closed).mpr ⟨fun unit member => ?_, by simp [marks_nil]⟩
    obtain ⟨e, expression⟩ := expressions unit member
    exact expression.clean
  · refine surveyFor_of_tokens tokens fun unit member => ?_
    obtain ⟨e, expression⟩ := expressions unit member
    exact ⟨e, expression.whole⟩

/-- Units that are expressions each for itself make up a program of their functions. -/
theorem answered_of_isExpression (registered : table.IsRegistered) (line : '\n' ∉ table.modelType.toList)
    (distinct : (table.units.map CodeUnit.name).Nodup)
    (known : ∀ reference ∈ references, (library? reference).isSome)
    (expressions : ∀ unit ∈ table.units, ∃ e, IsExpression (functionsOf references) unit.source e) :
    ∃ declarations, List.Forall₂ (Declares (functionsOf references)) table.units declarations ∧
      interpreter (table.request references) = .ok (libraryOf declarations) := by
  obtain ⟨errors, declarations, headers, declares, all⟩ :=
    surveyFor_of_isExpression (registered.named (List.append_nil _).symm) line expressions
  refine ⟨declarations, declares, ?_⟩
  rw [interpreter_eq_ok_iff, all, names_of_declares declares]
  exact ⟨known, rfl, errors, distinct, rfl⟩

/-- Such units are refused together for the libraries that are not known, and for nothing else. -/
theorem refused_of_isExpression (registered : table.IsRegistered) (line : '\n' ∉ table.modelType.toList)
    (distinct : (table.units.map CodeUnit.name).Nodup)
    (unknown : ∃ reference ∈ references, library? reference = none)
    (expressions : ∀ unit ∈ table.units, ∃ e, IsExpression (functionsOf references) unit.source e) :
    interpreter (table.request references) =
      .error ((references.filter fun name => (library? name).isNone).map unknownLibrary) := by
  obtain ⟨errors, declarations, headers, declares, all⟩ :=
    surveyFor_of_isExpression (registered.named (List.append_nil _).symm) line expressions
  have findings : (surveyFor (table.request references)).findings = [] := by rw [all]
  have names : ((surveyFor (table.request references)).declarations.map Declaration.name).Nodup := by
    rw [all, names_of_declares declares]
    exact distinct
  exact interpreter_eq_error findings errors names unknown

/-- Where the program declares the units of a batch, each handle has the code of its own unit. -/
theorem exists_compile_of_declares {declarations : List Declaration}
    (answered : interpreter (table.request references) = .ok (libraryOf declarations))
    (declares : List.Forall₂ (Declares (functionsOf references)) table.units declarations)
    (distinct : (table.units.map CodeUnit.name).Nodup) :
    ∃ resolved, table.compile interpreter references = .ok resolved ∧
      ∀ handle unit, table.units[handle]? = some unit →
        resolved.name handle = unit.name ∧
          ∃ d, Declares (functionsOf references) unit d ∧ resolved.get? handle = some d.entryPoint := by
  obtain ⟨resolved, compiled⟩ := compile_of_declares answered declares distinct
    fun unit member => ⟨unit, member, rfl, rfl⟩
  obtain ⟨library, again, good, names, entries⟩ := UnitTable.compile_eq_ok_iff.mp compiled
  -- The library that the compile got is the one made of the declarations.
  rw [answered] at again
  cases again
  refine ⟨resolved, compiled, fun handle unit place => ⟨ResolvedUnits.name_eq names place, ?_⟩⟩
  obtain ⟨d, declared, found⟩ := resolve_of_declares declares distinct (List.mem_of_getElem? place) rfl rfl
  refine ⟨d, declared, ?_⟩
  rw [ResolvedUnits.get?_eq good entries, place, Option.bind_some, found]
  rfl

end

/-- Units that are expressions each for itself compile together, and each evaluates its own. -/
theorem batch_evaluates {table : UnitTable} {references : List String} (registered : table.IsRegistered)
    (line : '\n' ∉ table.modelType.toList) (distinct : (table.units.map CodeUnit.name).Nodup)
    (known : ∀ reference ∈ references, (library? reference).isSome)
    (expressions : ∀ unit ∈ table.units, ∃ e, IsExpression (functionsOf references) unit.source e) :
    ∃ resolved, table.compile interpreter references = .ok resolved ∧
      ∀ handle unit e, table.units[handle]? = some unit →
        IsExpression (functionsOf references) unit.source e →
          ∃ entry, resolved.get? handle = some entry ∧ Evaluates e unit.kind entry := by
  obtain ⟨declarations, declares, answered⟩ :=
    answered_of_isExpression registered line distinct known expressions
  obtain ⟨resolved, compiled, entries⟩ := exists_compile_of_declares answered declares distinct
  refine ⟨resolved, compiled, ?_⟩
  intro handle unit e place expression
  obtain ⟨_, d, declared, found⟩ := entries handle unit place
  refine ⟨d.entryPoint, found, ?_⟩
  rw [expression.whole.unique declared.body]
  exact declared.evaluates

namespace Batch

def page : UnitTable :=
  (UnitTable.empty "Page" .dedupe).registerAll [("model.title", .text, 1), ("model.ok", .boolean, 2)]

theorem isExpression_title : IsExpression (functionsOf ["core"]) "model.title" (.member .model "title") := by
  have tokens : tokenize "model.title" =
      ([⟨.name "model", ⟨0, 5⟩⟩, ⟨.symbol .dot, ⟨5, 6⟩⟩, ⟨.name "title", ⟨6, 11⟩⟩], []) := by
    with_unfolding_all rfl
  constructor
  · rw [tokens]
  · rw [tokens]
    exact isWhole_member rfl rfl rfl

theorem isExpression_ok : IsExpression (functionsOf ["core"]) "model.ok" (.member .model "ok") := by
  have tokens : tokenize "model.ok" =
      ([⟨.name "model", ⟨0, 5⟩⟩, ⟨.symbol .dot, ⟨5, 6⟩⟩, ⟨.name "ok", ⟨6, 8⟩⟩], []) := by
    with_unfolding_all rfl
  constructor
  · rw [tokens]
  · rw [tokens]
    exact isWhole_member rfl rfl rfl

theorem sources_page : page.units.map CodeUnit.source = ["model.title", "model.ok"] := by
  rfl

theorem expressions_page :
    ∀ unit ∈ page.units, ∃ e, IsExpression (functionsOf ["core"]) unit.source e := by
  intro unit member
  have source : unit.source ∈ ["model.title", "model.ok"] := sources_page ▸ List.mem_map_of_mem member
  rcases List.mem_pair.mp source with same | same
  · exact ⟨_, same ▸ isExpression_title⟩
  · exact ⟨_, same ▸ isExpression_ok⟩

theorem distinct_page : (page.units.map CodeUnit.name).Nodup := by
  decide +kernel

end Batch

theorem batch_evaluates_page :
    ∃ resolved, Batch.page.compile interpreter ["core"] = .ok resolved ∧
      ∃ entry, resolved.get? 1 = some entry ∧ Evaluates (.member .model "ok") .boolean entry := by
  obtain ⟨resolved, compiled, evaluates⟩ := batch_evaluates ⟨_, _, _, rfl⟩ (by decide)
    Batch.distinct_page (by decide) Batch.expressions_page
  have place : (Batch.page.units[1]?.map fun unit => (unit.source, unit.kind)) =
      some ("model.ok", .boolean) := by
    rfl
  obtain ⟨unit, here, same⟩ := Option.map_eq_some_iff.mp place
  simp only [Prod.mk.injEq] at same
  refine ⟨resolved, compiled, ?_⟩
  rw [← same.2]
  exact evaluates 1 unit _ here (same.1 ▸ Batch.isExpression_ok)

end Stencil
