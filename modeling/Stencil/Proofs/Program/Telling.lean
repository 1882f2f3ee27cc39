import Stencil.Proofs.Program.Batch
import Stencil.Proofs.Program.Messages

/-! What a batch compile tells of a unit.

A unit whose code is no expression is told of under its own name, if no string is open in front of it. A batch
compile tells what the interpreter does of it, and in addition of functions that the library lacks.
-/

set_option autoImplicit false

namespace Stencil

open Program

def CompileError.diagnostics : CompileError → List Diagnostic
  | .compilationFailed _ diagnostics => diagnostics
  | _ => []

/-- The diagnostics of a batch compile by the interpreter; one that succeeds has none. -/
def UnitTable.reported (table : UnitTable) (references : List String) : List Diagnostic :=
  diagnosticsOf ((table.compile interpreter references).mapError CompileError.diagnostics)

theorem UnitTable.messagesOf_locate (table : UnitTable) (name : String) (diagnostics : List Diagnostic) :
    messagesOf name (diagnostics.map table.locate) = messagesOf name diagnostics := by
  have same : ∀ d, (table.locate d).unit = d.unit ∧ (table.locate d).message = d.message := by
    intro d
    unfold locate
    split <;> exact ⟨rfl, rfl⟩
  rw [messagesOf, List.filter_map, List.map_map, messagesOf]
  simp only [Function.comp_def, same]

theorem CodeUnit.unit_of_resolve {unit : CodeUnit} {library : Library} {d : Diagnostic}
    (failed : unit.resolve library = .error d) : d.unit = some unit.name := by
  unfold resolve at failed
  split at failed
  · split at failed <;> cases failed
    rfl
  · cases failed
    rfl

theorem UnitTable.messagesOf_reported_of_error {table : UnitTable} {references : List String}
    {diagnostics : List Diagnostic} (answer : interpreter (table.request references) = .error diagnostics)
    (name : String) : messagesOf name (table.reported references) = messagesOf name diagnostics := by
  unfold reported compile
  rw [answer]
  exact table.messagesOf_locate name diagnostics

/-- A batch compile tells of a unit what the interpreter does, if the unit has its entry point whenever there is
a library. -/
theorem UnitTable.messagesOf_reported {table : UnitTable} {references : List String} {unit : CodeUnit}
    (distinct : (table.units.map CodeUnit.name).Nodup) (member : unit ∈ table.units)
    (resolves : ∀ library, interpreter (table.request references) = .ok library →
      ∃ entry, unit.resolve library = .ok entry) :
    messagesOf unit.name (table.reported references) =
      messagesOf unit.name (diagnosticsOf (interpreter (table.request references))) := by
  cases answer : interpreter (table.request references) with
  | error diagnostics => exact table.messagesOf_reported_of_error answer unit.name
  | ok library =>
    unfold reported compile
    rw [answer]
    obtain ⟨entry, resolved⟩ := resolves library answer
    have none : messagesOf unit.name (problemsOf (table.units.map fun unit => unit.resolve library)) = [] := by
      rw [messagesOf, List.map_eq_nil_iff, List.filter_eq_nil_iff]
      intro d problem carries
      obtain ⟨result, inside, is⟩ := List.mem_filterMap.mp problem
      obtain ⟨other, present, rfl⟩ := List.mem_map.mp inside
      cases failed : other.resolve library with
      | ok entry =>
        rw [failed] at is
        cases is
      | error found =>
        rw [failed] at is
        cases is
        -- A problem is of the one unit that has its name.
        have name : other.name = unit.name :=
          Option.some.inj ((CodeUnit.unit_of_resolve failed).symm.trans (of_decide_eq_true carries))
        obtain rfl := List.inj_on_of_nodup_map distinct present member name
        rw [resolved] at failed
        cases failed
    dsimp only
    split
    · rfl
    · exact (table.messagesOf_locate unit.name _).trans none

/-! ### Units in their places -/

section

variable {table : UnitTable} {references : List String} {before after : List CodeUnit} {unit : CodeUnit}

theorem toList_programText_of_units {units : List CodeUnit} (whole : table.units = before ++ units) :
    table.programText.toList =
      header table.modelType ++ (CodeUnit.declarations before ++ CodeUnit.declarations units) := by
  rw [UnitTable.toList_programText, whole, CodeUnit.declarations, List.flatMap_append]
  rfl

theorem declared_of_survey {functions : List Function} {others : List Token} {lexemes : List Lexeme}
    (tokens : lexemes.map Lexeme.token = unit.head ++ others)
    (clean : (survey functions lexemes).findings = []) :
    ∃ d ∈ (survey functions lexemes).declarations, d.name = unit.name ∧ d.kind = unit.kind := by
  obtain ⟨front, body, rfl, heads, _⟩ := List.map_eq_append_iff.mp tokens
  obtain ⟨f, front, rfl, fn, heads⟩ := List.map_eq_cons_iff.mp heads
  obtain ⟨n, head, rfl, named, heads⟩ := List.map_eq_cons_iff.mp heads
  obtain ⟨outcome, _, _⟩ := readFunction_head functions unit.name f.span.start body heads
  rw [List.cons_append, List.cons_append, survey_function functions _ fn named] at clean ⊢
  have clean := (List.append_eq_nil_iff.mp clean).1
  cases read : (readFunction functions unit.name f.span.start (head ++ body)).outcome with
  | error fault => simp [surveyOf, read] at clean
  | ok d =>
    rw [read] at outcome
    obtain ⟨_, -, whole⟩ := ok_of_andThen outcome.symm
    obtain ⟨_, _, made⟩ := ok_of_map whole
    refine ⟨d, List.mem_append_left _ ?_, made ▸ rfl, made ▸ rfl⟩
    simp [surveyOf, read]

/-- Behind units that leave no string open, a unit is told of by itself. -/
theorem accountOf_behind (line : '\n' ∉ table.modelType.toList) (units : table.units = before ++ unit :: after)
    (named : ∀ unit ∈ table.units, IsUnitName unit.name)
    (closed : ∀ unit ∈ before, ¬ leavesOpen unit.source.toList) (functions : List Function) :
    accountOf functions table.programText.toList =
      ((accountOf functions (CodeUnit.declarations before)).move (byteLength (header table.modelType))).append
        ((accountOf functions (CodeUnit.declarations (unit :: after))).move
          (byteLength (CodeUnit.declarations before) + byteLength (header table.modelType))) := by
  obtain ⟨begins, none⟩ := isBlock_header line
  rw [units, List.forall_mem_append] at named
  have front := CodeUnit.isBlock_declarations named.1 closed
  have next := CodeUnit.isHeaded_declarations named.2
  have whole : IsHeaded (marks (CodeUnit.declarations before ++ CodeUnit.declarations (unit :: after))) := by
    rw [front.separate.marks_append]
    exact front.headed.append next
  rw [toList_programText_of_units units, accountOf_append begins whole, accountOf_of_marks_nil none,
    Account.append_empty, accountOf_append front next, Account.move_append, Account.move_move]

theorem find_declaration {declarations : List Declaration} {d : Declaration}
    (distinct : (declarations.map Declaration.name).Nodup) (member : d ∈ declarations) :
    (declarations.find? fun other => other.name = d.name) = some d := by
  have some : (declarations.find? fun other => other.name = d.name).isSome := by
    rw [List.find?_isSome]
    exact ⟨d, member, by simp⟩
  obtain ⟨found, is⟩ := Option.isSome_iff_exists.mp some
  have name : found.name = d.name := by simpa using List.find?_some is
  rw [is, List.inj_on_of_nodup_map distinct (List.mem_of_find?_eq_some is) member name]

theorem Program.Declaration.entryPoint_kind (d : Declaration) : d.entryPoint.kind = d.kind := by
  unfold Declaration.entryPoint
  cases d.kind <;> rfl

/-- Where the interpreter gives a library, it has an entry point for each unit that stands behind units which
leave no string open. -/
theorem resolves_of_answered {library : Library} (line : '\n' ∉ table.modelType.toList)
    (units : table.units = before ++ unit :: after) (named : ∀ unit ∈ table.units, IsUnitName unit.name)
    (closed : ∀ unit ∈ before, ¬ leavesOpen unit.source.toList)
    (answered : interpreter (table.request references) = .ok library) :
    ∃ entry, unit.resolve library = .ok entry := by
  obtain ⟨_, findings, _, distinct, rfl⟩ := interpreter_eq_ok_iff.mp answered
  have whole : surveyFor (table.request references) =
      (accountOf (functionsOf references) table.programText.toList).survey := surveyFor_eq _
  rw [whole, accountOf_behind line units named closed] at findings distinct ⊢
  have name : IsUnitName unit.name := named unit (by rw [units]; simp)
  have tokens : (lexemesOf (CodeUnit.declarations (unit :: after))).map Lexeme.token =
      unit.head ++ tokensOf (marks (unit.source.toList ++ '\n' :: '\x7d' :: '\n' ::
        CodeUnit.declarations after)) := by
    rw [tokens_lexemesOf, CodeUnit.declarations, List.flatMap_cons, unit.marks_declaration_source name,
      tokensOf, List.filterMap_append, List.filterMap_map]
    simp [Function.comp_def, PieceKind.token?, tokensOf, CodeUnit.declarations]
  -- The head of the function is read whatever the code holds, and nothing is told of what follows.
  have clean := (List.append_eq_nil_iff.mp findings).2
  simp only [Account.move, Survey.move, List.map_eq_nil_iff] at clean
  obtain ⟨d, member, here, kind⟩ := declared_of_survey tokens clean
  obtain ⟨moved, place⟩ : ∃ moved : Declaration, moved.name = unit.name ∧ moved.kind = unit.kind ∧
      moved ∈ (((accountOf (functionsOf references) (CodeUnit.declarations before)).move _).append
        ((accountOf (functionsOf references) (CodeUnit.declarations (unit :: after))).move _)).survey.declarations :=
    ⟨d.move _, here, kind, List.mem_append_right _ (List.mem_map_of_mem member)⟩
  -- No other declaration has the name, for the interpreter would have told so.
  refine ⟨moved.entryPoint, CodeUnit.resolve_eq_ok_iff.mpr ⟨?_, moved.entryPoint_kind.trans place.2.1⟩⟩
  rw [← place.1]
  exact congrArg (Option.map Declaration.entryPoint) (find_declaration distinct place.2.2)

/-- A unit whose code is no expression is told of under its own name, if neither it nor one in front of it leaves a
string open or ends its own function. -/
theorem messagesOf_ne_nil (line : '\n' ∉ table.modelType.toList)
    (units : table.units = before ++ unit :: after) (named : ∀ unit ∈ table.units, IsUnitName unit.name)
    (closed : ∀ unit ∈ before, ¬ leavesOpen unit.source.toList) (plain : IsPlain unit.source)
    (broken : ∀ e, ¬ IsWhole (functionsOf references) (tokenize unit.source).1 e) :
    messagesOf unit.name (diagnosticsOf (interpreter (table.request references))) ≠ [] := by
  intro none
  have silent := unit_ne_of_messagesOf none
  have name : IsUnitName unit.name := named unit (by rw [units]; simp)
  have tokens : (lexemesOf (CodeUnit.declarations (unit :: after))).map Lexeme.token =
      unitTokens unit ++ tokensOf (marks (CodeUnit.declarations after)) := by
    rw [tokens_lexemesOf, CodeUnit.declarations, List.flatMap_cons, unit.marks_declaration name plain.closed,
      tokensOf, List.filterMap_append, ← tokensOf, tokensOf_unitMarks]
    rfl
  have whole : ∃ e, IsWhole (functionsOf references) (tokenize unit.source).1 e := by
    refine isWhole_of_silent plain.plain tokens fun finding member => ?_
    refine silent (finding.move (byteLength (CodeUnit.declarations before) +
      byteLength (header table.modelType))) ?_
    show _ ∈ (accountOf _ table.programText.toList).findings
    rw [accountOf_behind line units named closed]
    exact List.mem_append_left _ (List.mem_append_right _ (List.mem_map_of_mem member))
  obtain ⟨e, whole⟩ := whole
  exact broken e whole

theorem refused_of_told {request : Request} {name : String}
    (told : messagesOf name (diagnosticsOf (interpreter request)) ≠ []) (library : Library) :
    interpreter request ≠ .ok library := by
  intro answered
  rw [answered] at told
  exact told rfl

theorem messagesOf_reported_of_refused
    (refused : ∀ library, interpreter (table.request references) ≠ .ok library) (name : String) :
    messagesOf name (table.reported references) =
      messagesOf name (diagnosticsOf (interpreter (table.request references))) := by
  cases answer : interpreter (table.request references) with
  | error diagnostics => exact table.messagesOf_reported_of_error answer name
  | ok library => exact absurd answer (refused library)

theorem messagesOf_reported_ne_nil {name : String}
    (told : messagesOf name (diagnosticsOf (interpreter (table.request references))) ≠ []) :
    messagesOf name (table.reported references) ≠ [] := by
  rw [messagesOf_reported_of_refused (refused_of_told told)]
  exact told

/-- Where some of the program is no token, only names of its functions are told of. -/
theorem messagesOf_reported_of_hidden {name : String} (bad : ∃ kind ∈ marks table.programText.toList, kind.isBad)
    (unnamed : name ∉ namedIn table.programText.toList) : messagesOf name (table.reported references) = [] := by
  have refused : ∀ library, interpreter (table.request references) ≠ .ok library := by
    intro library answered
    obtain ⟨kind, member, bad⟩ := bad
    exact (errors_tokenize table.programText).mp (interpreter_eq_ok_iff.mp answered).2.2.1 kind member bad
  rw [messagesOf_reported_of_refused refused]
  exact messagesOf_of_unnamed unnamed

theorem messagesOf_reported_of_missing {library : Library} (member : unit ∈ table.units)
    (answered : interpreter (table.request references) = .ok library)
    (missing : library.entryPoint? unit.name = none) :
    messagesOf unit.name (table.reported references) ≠ [] := by
  have failed : unit.resolve library = .error (unit.problem "compiled library has no such entry point") := by
    rw [CodeUnit.resolve, missing]
  have problem : unit.problem "compiled library has no such entry point" ∈
      problemsOf (table.units.map fun unit => unit.resolve library) := by
    refine List.mem_filterMap.mpr ⟨_, List.mem_map_of_mem member, ?_⟩
    rw [failed]
  unfold UnitTable.reported UnitTable.compile
  rw [answered]
  dsimp only
  split
  · rename_i none
    rw [none] at problem
    cases problem
  · have told := table.messagesOf_locate unit.name (problemsOf (table.units.map fun unit => unit.resolve library))
    refine ne_of_eq_of_ne told fun nothing => ?_
    rw [messagesOf, List.map_eq_nil_iff, List.filter_eq_nil_iff] at nothing
    exact nothing _ problem (by simp [CodeUnit.problem])

theorem messagesOf_reported_of_closed (registered : table.IsRegistered) (line : '\n' ∉ table.modelType.toList)
    (distinct : (table.units.map CodeUnit.name).Nodup) (units : table.units = before ++ unit :: after)
    (closed : ∀ unit ∈ before, ¬ leavesOpen unit.source.toList) :
    messagesOf unit.name (table.reported references) =
      messagesOf unit.name (diagnosticsOf (interpreter (table.request references))) := by
  have named := registered.named (List.append_nil table.units).symm
  exact UnitTable.messagesOf_reported distinct (by rw [units]; simp) fun library answered =>
    resolves_of_answered line units named closed answered

end

end Stencil
