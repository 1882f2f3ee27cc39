import Mathlib.Data.List.NodupEquivFin
import Stencil.Proofs.Names
import Stencil.Proofs.Program.Reports

/-! When a function is declared twice.

The interpreter says so exactly of the names that more than one declaration has. As far as units leave no string
open, the names in a program are those of the units and those that stand behind an `fn` in their code.
-/

set_option autoImplicit false

namespace Stencil

namespace Program

/-! ### The message -/

theorem head?_toList_append {first : String} {c : Char} (head : first.toList.head? = some c) (rest : String) :
    (first ++ rest).toList.head? = some c := by
  rw [String.toList_append, List.head?_append, head, Option.some_or]

def Problem.initial : Problem → Char
  | .unexpected _ _ => 'E'
  | .argumentCount _ _ => '`'
  | .duplicateFunction _ => 'D'
  | _ => 'U'

theorem Problem.head?_message (problem : Problem) : problem.message.toList.head? = some problem.initial := by
  cases problem with
  | unexpected expected found =>
    have start : "Expected ".toList.head? = some 'E' := rfl
    exact head?_toList_append (head?_toList_append (head?_toList_append start _) _) _
  | unknownReturnType name =>
    have start : "Unknown return type `".toList.head? = some 'U' := rfl
    exact head?_toList_append (head?_toList_append start _) _
  | unknownName name =>
    have start : "Unknown name `".toList.head? = some 'U' := rfl
    exact head?_toList_append (head?_toList_append start _) _
  | unknownFunction name =>
    have start : "Unknown function `".toList.head? = some 'U' := rfl
    exact head?_toList_append (head?_toList_append start _) _
  | argumentCount f given =>
    have start : "`".toList.head? = some '`' := rfl
    have name := head?_toList_append (head?_toList_append start f.name) "` takes "
    have arity := head?_toList_append (head?_toList_append name f.arity) " argument(s) but "
    exact head?_toList_append (head?_toList_append arity _) _
  | noToken text =>
    have start : "Unexpected character `".toList.head? = some 'U' := rfl
    exact head?_toList_append (head?_toList_append start _) _
  | duplicateFunction name =>
    have start : "Duplicate function `".toList.head? = some 'D' := rfl
    exact head?_toList_append (head?_toList_append start _) _

theorem Problem.duplicateFunction_inj {word name : String}
    (same : (Problem.duplicateFunction word).message = (Problem.duplicateFunction name).message) : word = name := by
  unfold Problem.message at same
  rw [String.append_left_inj, String.append_right_inj] at same
  exact same

theorem Problem.eq_of_message {problem : Problem} {name : String}
    (same : problem.message = (Problem.duplicateFunction name).message) : problem = .duplicateFunction name := by
  have initial : problem.initial = 'D' := by
    have head := problem.head?_message
    rw [same, Problem.head?_message] at head
    exact (Option.some.inj head).symm
  cases problem with
  | duplicateFunction word => rw [Problem.duplicateFunction_inj same]
  | unexpected expected found => cases initial
  | argumentCount f given => cases initial
  | unknownReturnType word => cases initial
  | unknownName word => cases initial
  | unknownFunction word => cases initial
  | noToken text => cases initial

/-! ### Names given twice -/

section

variable (request : Request) (name : String)

/-- The interpreter tells of a name given twice exactly where more than one declaration has the name. -/
theorem duplicate_mem_iff :
    (Problem.duplicateFunction name).message ∈ (diagnosticsOf (interpreter request)).map Diagnostic.message ↔
      2 ≤ ((surveyFor request).declarations.map Declaration.name).count name := by
  -- No other message is like it: neither one about a library nor one of a fault of reading.
  have unknown : (Problem.duplicateFunction name).message ∉
      ((request.references.filter fun name => (library? name).isNone).map unknownLibrary).map Diagnostic.message := by
    intro member
    obtain ⟨d, inside, same⟩ := List.mem_map.mp member
    obtain ⟨reference, _, rfl⟩ := List.mem_map.mp inside
    have start : "Unknown library reference `".toList.head? = some 'U' := rfl
    have head := head?_toList_append (head?_toList_append start reference) "`"
    have message := (Problem.duplicateFunction name).head?_message
    rw [← same] at message
    cases head.symm.trans message
  have reading : (Problem.duplicateFunction name).message ∉
      (Contents.ofText (functionsOf request.references) request.source).diagnostics.map Diagnostic.message := by
    intro member
    obtain ⟨d, inside, same⟩ := List.mem_map.mp member
    rw [diagnostics_ofText, List.mem_mergeSort] at inside
    obtain ⟨finding, found, rfl⟩ := List.mem_map.mp inside
    exact single_accountOf found name (Problem.eq_of_message same)
  have again : (Problem.duplicateFunction name).message ∈
      ((repeated [] (surveyFor request).declarations).map (Declaration.duplicate request.source)).map
        Diagnostic.message ↔
      messagesOf name ((repeated [] (surveyFor request).declarations).map (Declaration.duplicate request.source)) ≠
        [] := by
    rw [messagesOf, ne_eq, List.map_eq_nil_iff, List.filter_eq_nil_iff, List.mem_map]
    constructor
    · rintro ⟨_, inside, same⟩ none
      obtain ⟨d, given, rfl⟩ := List.mem_map.mp inside
      have here : d.name = name := Problem.duplicateFunction_inj same
      exact none _ inside (by simp [Declaration.duplicate, here])
    · intro some
      push Not at some
      obtain ⟨_, inside, carries⟩ := some
      obtain ⟨d, given, rfl⟩ := List.mem_map.mp inside
      have here : d.name = name := by simpa [Declaration.duplicate] using carries
      exact ⟨_, inside, by rw [Declaration.duplicate, here]⟩
  rw [diagnosticsOf_interpreter, List.map_append, List.map_append, List.mem_append, List.mem_append, again,
    messagesOf_repeated]
  simp only [unknown, reading, or_self, false_or, ne_eq, List.replicate_eq_nil_iff]
  omega

end

theorem functionNames_flatMap (units : List CodeUnit) :
    functionNames (units.flatMap unitTokens) =
      units.flatMap fun unit => unit.name :: namedIn unit.source.toList := by
  induction units with
  | nil => rfl
  | cons unit rest ih =>
    -- The last token of a unit is its closing brace.
    have last : (unitTokens unit).getLast? ≠ some (.keyword .fn) := by
      rw [unitTokens, ← List.append_assoc, List.getLast?_concat]
      intro same
      cases same
    rw [List.flatMap_cons, List.flatMap_cons, functionNames_append last, functionNames_unitTokens, ih, namedIn,
      tokens_tokenize]

end Program

open Program

/-! ### Units -/

section

variable {table : UnitTable}

/-- Units that leave no string open bring in their own names and those that their code gives to functions. -/
theorem namedIn_programText (registered : table.IsRegistered) (line : '\n' ∉ table.modelType.toList)
    (closed : ∀ unit ∈ table.units, ¬ leavesOpen unit.source.toList) :
    namedIn table.programText.toList =
      table.units.flatMap fun unit => unit.name :: namedIn unit.source.toList := by
  have units := (List.append_nil table.units).symm
  rw [namedIn, ← tokens_tokenize, tokens_programText line units (registered.named units) closed, List.flatMap_nil,
    marks_nil, ← functionNames_flatMap]
  exact congrArg _ (List.append_nil _)

theorem count_namedIn {name : String} {units : List CodeUnit}
    (silent : ∀ unit ∈ units, name ∉ namedIn unit.source.toList) :
    (units.flatMap fun unit => unit.name :: namedIn unit.source.toList).count name =
      (units.map CodeUnit.name).count name := by
  induction units with
  | nil => rfl
  | cons unit rest ih =>
    have ih := ih fun u member => silent u (List.mem_cons_of_mem _ member)
    have none := List.count_eq_zero.mpr (silent unit List.mem_cons_self)
    rw [List.flatMap_cons, List.count_append, ih, List.map_cons, List.count_cons, List.count_cons, none]
    omega

/-- A name that one unit has, and no code gives to a function, is given once. -/
theorem count_declared_le (registered : table.IsRegistered) (line : '\n' ∉ table.modelType.toList)
    (closed : ∀ unit ∈ table.units, ¬ leavesOpen unit.source.toList) {name : String}
    (silent : ∀ unit ∈ table.units, name ∉ namedIn unit.source.toList) (references : List String) :
    ((surveyFor (table.request references)).declarations.map Declaration.name).count name ≤
      (table.units.map CodeUnit.name).count name := by
  rw [surveyFor_eq, ← count_namedIn silent, ← namedIn_programText registered line closed]
  exact (declared_accountOf _ _).count_le name

theorem count_name_le {handle : Nat} {name : String}
    (alone : ∀ handle' unit', table.units[handle']? = some unit' → unit'.name = name → handle' = handle) :
    (table.units.map CodeUnit.name).count name ≤ 1 := by
  by_contra more
  have twice : 2 ≤ (table.units.map CodeUnit.name).count name := by omega
  rw [← List.duplicate_iff_two_le_count, List.duplicate_iff_exists_distinct_get] at twice
  obtain ⟨⟨n, nBound⟩, ⟨m, mBound⟩, less, first, second⟩ := twice
  simp only [List.get_eq_getElem, List.getElem_map] at first second
  rw [List.length_map] at nBound mBound
  have left := alone n _ (List.getElem?_eq_getElem nBound) first.symm
  have right := alone m _ (List.getElem?_eq_getElem mBound) second.symm
  have less : n < m := less
  omega

/-- Whether a library answers under each name with what a unit of that name comes to. -/
def Library.IsKeyed (library : Library) (units : List CodeUnit) (code : CodeUnit → EntryPoint) : Prop :=
  ∀ name entry, library.entryPoint? name = some entry → ∃ unit ∈ units, unit.name = name ∧ code unit = entry

/-- Where no other handle has the name of a unit, its handle gets what the unit itself comes to. -/
theorem get?_of_isKeyed {backend : Backend} {references : List String} {library : Library}
    {code : CodeUnit → EntryPoint} {resolved : ResolvedUnits}
    (answered : backend (table.request references) = .ok library) (keyed : library.IsKeyed table.units code)
    (compiled : table.compile backend references = .ok resolved) {handle : Nat} {unit : CodeUnit}
    (here : table.units[handle]? = some unit)
    (alone : ∀ handle' unit', table.units[handle']? = some unit' → unit'.name = unit.name → handle' = handle) :
    resolved.get? handle = some (code unit) := by
  obtain ⟨_, again, good, _, entries⟩ := UnitTable.compile_eq_ok_iff.mp compiled
  obtain rfl := Except.ok.inj (answered.symm.trans again)
  obtain ⟨entry, found⟩ := good unit (List.mem_of_getElem? here)
  obtain ⟨other, member, name, same⟩ := keyed unit.name entry (CodeUnit.resolve_eq_ok_iff.mp found).1
  -- The unit that the library knows under the name is the only one there is.
  obtain ⟨handle', there⟩ := List.mem_iff_getElem?.mp member
  obtain rfl := alone handle' other there name
  obtain rfl := Option.some.inj (here.symm.trans there)
  rw [ResolvedUnits.get?_eq good entries, here, Option.bind_some, found, same]
  rfl

end

/-- Handles share a name exactly where units are shared and different pieces of code have one checksum. A unit with a
name of its own gets its own entry point. -/
theorem registerAll_names (modelType : String) (sharing : Sharing) (calls : List (String × ReturnKind × Nat)) :
    let table := (UnitTable.empty modelType sharing).registerAll calls
    ∀ handle unit, table.units[handle]? = some unit →
      (∀ handle' unit', table.units[handle']? = some unit' → handle' ≠ handle →
        (unit'.name = unit.name ↔ sharing = .dedupe ∧ unit'.checksum = unit.checksum) ∧
          (sharing = .dedupe → (unit'.kind, unit'.source) ≠ (unit.kind, unit.source))) ∧
      ((∀ handle' unit', table.units[handle']? = some unit' → unit'.name = unit.name → handle' = handle) →
        (∀ backend references library code resolved, backend (table.request references) = .ok library →
          library.IsKeyed table.units code → table.compile backend references = .ok resolved →
            resolved.get? handle = some (code unit)) ∧
        ('\n' ∉ modelType.toList → (∀ other ∈ table.units, ¬ leavesOpen other.source.toList) →
          (∀ other ∈ table.units, unit.name ∉ namedIn other.source.toList) →
            ∀ references, (Problem.duplicateFunction unit.name).message ∉
              (diagnosticsOf (interpreter (table.request references))).map Diagnostic.message)) := by
  intro table handle unit here
  have named : table.IsNamed := (UnitTable.isNamed_empty modelType sharing).registerAll calls
  obtain ⟨model, shares⟩ : table.modelType = modelType ∧ table.sharing = sharing :=
    UnitTable.settings_registerAll _ calls
  refine ⟨fun handle' unit' there differ => ⟨?_, ?_⟩, fun alone => ⟨?_, ?_⟩⟩
  · cases sharing with
    | dedupe => simpa using named.name_eq_iff there here shares
    | perSite =>
      simp only [reduceCtorEq, false_and, iff_false]
      exact fun same => differ (named.handle_eq there here shares same)
  · exact fun shared => named.code_ne there here (shares.trans shared) differ
  · intro backend references library code resolved answered keyed compiled
    exact get?_of_isKeyed answered keyed compiled here alone
  · -- The name is declared as often as units have it, which is once.
    intro line closed silent references again
    have registered : table.IsRegistered := ⟨modelType, sharing, calls, rfl⟩
    have declared := count_declared_le registered (model ▸ line) closed silent references
    have once := count_name_le alone
    have twice := (duplicate_mem_iff _ unit.name).mp again
    omega

theorem registerAll_names_page :
    unitName .text "model.title" ≠ unitName .boolean "model.ok" ∧
      (Problem.duplicateFunction (unitName .boolean "model.ok")).message ∉
        (diagnosticsOf (interpreter (Batch.page.request ["core"]))).map Diagnostic.message := by
  have first : Batch.page.units[0]? = some ⟨unitName .text "model.title", "model.title", .text, 1⟩ := by
    decide +kernel
  have second : Batch.page.units[1]? = some ⟨unitName .boolean "model.ok", "model.ok", .boolean, 2⟩ := by
    decide +kernel
  obtain ⟨apart, alone⟩ := registerAll_names "Page" .dedupe [("model.title", .text, 1), ("model.ok", .boolean, 2)] 1 _
    second
  have only : ∀ handle unit, Batch.page.units[handle]? = some unit → unit.name = unitName .boolean "model.ok" →
      handle = 1 := fun handle unit found same =>
    UnitTable.handle_eq_of_nodup Batch.distinct_page found second same
  obtain ⟨_, once⟩ := alone only
  refine ⟨fun same => ?_, once (by decide +kernel) (by decide +kernel) (by decide +kernel) ["core"]⟩
  exact absurd ((apart 0 _ first (by decide)).1.mp same).2 (by decide +kernel)

namespace Batch

structure TellsTwice (table : UnitTable) (name : String) : Prop where
  registered : table.IsRegistered
  told : (Problem.duplicateFunction name).message ∈
    (diagnosticsOf (interpreter (table.request ["core"]))).map Diagnostic.message

def colliding : UnitTable := texts "Page" ["model.first_country", "model.role_color_height"]

theorem units_colliding :
    colliding.units = [textUnit "model.first_country", textUnit "model.role_color_height"] ++ [] := by
  decide +kernel

theorem tellsTwice_colliding : TellsTwice colliding (unitName .text "model.first_country") := by
  have registered : colliding.IsRegistered := ⟨_, _, _, rfl⟩
  have tokens : (tokenize (colliding.request ["core"]).source).1.map Lexeme.token =
      [textUnit "model.first_country", textUnit "model.role_color_height"].flatMap unitTokens := by
    show (tokenize colliding.programText).1.map Lexeme.token = _
    rw [tokens_programText line_page units_colliding (registered.named units_colliding) (by decide +kernel),
      List.flatMap_nil, marks_nil]
    exact List.append_nil _
  have country : (tokenize "model.first_country").1 =
      [⟨.name "model", ⟨0, 5⟩⟩, ⟨.symbol .dot, ⟨5, 6⟩⟩, ⟨.name "first_country", ⟨6, 19⟩⟩] := by
    with_unfolding_all rfl
  have height : (tokenize "model.role_color_height").1 =
      [⟨.name "model", ⟨0, 5⟩⟩, ⟨.symbol .dot, ⟨5, 6⟩⟩, ⟨.name "role_color_height", ⟨6, 23⟩⟩] := by
    with_unfolding_all rfl
  have wholes : ∀ unit ∈ [textUnit "model.first_country", textUnit "model.role_color_height"],
      ∃ e, IsWhole (functionsOf ["core"]) (tokenize unit.source).1 e := by
    intro unit member
    rcases List.mem_pair.mp member with rfl | rfl
    · exact ⟨_, country ▸ isWhole_member rfl rfl rfl⟩
    · exact ⟨_, height ▸ isWhole_member rfl rfl rfl⟩
  obtain ⟨declarations, headers, declares, all⟩ := surveyFor_of_tokens tokens wholes
  refine ⟨registered, (duplicate_mem_iff _ _).mpr ?_⟩
  rw [all, names_of_declares declares]
  decide +kernel

theorem tellsTwice_doubled : TellsTwice doubled.table (unitName .text "2") := by
  refine ⟨doubled.registered, (duplicate_mem_iff _ _).mpr ?_⟩
  rw [declared_doubled]
  decide +kernel

/-! ### Functions that an open string brings out -/

/-- A string that names no function, unless it ends one in front of it. -/
def naming : String := "\"' \x7d fn _60aed14f(model) -> text \x7b 2 //\""

def revealing : Sample := { modelType := "Page", codes := ["'", naming, "2"] }

def revealingModel : Sample := { modelType := openModel, codes := [naming, "2"] }

/-- What the program shows of a unit with an open string and of one with `naming` behind it. -/
def revealed : CodeUnit :=
  { name := unitName .text "'", kind := .text, line := 1
    source := "'\n\x7d\n\nfn _cbef0af4(model) -> text \x7b\n    " ++ naming }

def stretched : CodeUnit :=
  { name := unitName .text "'", kind := .text, line := 1
    source := "'\n\x7d\n\nfn _cbef0af4(model) -> text \x7b\n    \"'" }

theorem named_revealed : ∀ unit ∈ [revealed, textUnit "2"], IsUnitName unit.name := by
  simp [revealed, textUnit, isUnitName_unitName]

def revealedShown : Shown where
  units := [revealed, textUnit "2"]
  named := named_revealed

theorem tokens_revealed : (tokenize revealed.source).1.map Lexeme.token =
    (tokenize stretched.source).1.map Lexeme.token ++
      [Token.symbol .closeBrace, .keyword .fn, .name "_60aed14f", .symbol .openParen, .name "model",
        .symbol .closeParen, .symbol .arrow, .name "text", .symbol .openBrace, .integer 2] := by
  with_unfolding_all rfl

theorem isWhole_stretched : ∃ e, IsWhole (functionsOf ["core"]) (tokenize stretched.source).1 e := by
  have string : (tokenize stretched.source).1.map Lexeme.token =
      [.string "\n\x7d\n\nfn _cbef0af4(model) -> text \x7b\n    \""] := by
    with_unfolding_all rfl
  obtain ⟨a, none, whole, token, last⟩ := List.map_eq_cons_iff.mp string
  obtain rfl := List.map_eq_nil_iff.mp last
  exact ⟨_, whole ▸ isWhole_literal (by rw [token]; rfl)⟩

theorem declared_revealing {table : UnitTable} (text : table.programText = revealing.table.programText) :
    (surveyFor (table.request ["core"])).declarations.map Declaration.name =
      [unitName .text "'", "_60aed14f", unitName .text "2"] := by
  have same : revealing.table.programText = revealedShown.table.programText := by decide +kernel
  have tokens : (tokenize (table.request ["core"]).source).1.map Lexeme.token =
      [stretched, digit "_60aed14f" "2", textUnit "2"].flatMap unitTokens := by
    refine (revealedShown.tokens (text.trans same)).trans ?_
    unfold revealedShown
    simp only [List.flatMap_cons, List.flatMap_nil, unitTokens, tokens_revealed, textUnit, digit, tokens_two]
    simp [revealed, stretched, CodeUnit.head, ReturnKind.keyword]
  have wholes : ∀ unit ∈ [stretched, digit "_60aed14f" "2", textUnit "2"],
      ∃ e, IsWhole (functionsOf ["core"]) (tokenize unit.source).1 e := by
    rw [List.forall_mem_cons]
    exact ⟨isWhole_stretched, wholes_digits (by simp [digit, textUnit])⟩
  obtain ⟨declarations, headers, declares, all⟩ := surveyFor_of_tokens tokens wholes
  rw [all, names_of_declares declares]
  rfl

theorem tellsTwice_revealing : TellsTwice revealing.table (unitName .text "2") := by
  refine ⟨revealing.registered, (duplicate_mem_iff _ _).mpr ?_⟩
  rw [declared_revealing rfl]
  decide +kernel

theorem tellsTwice_revealingModel : TellsTwice revealingModel.table (unitName .text "2") := by
  refine ⟨revealingModel.registered, (duplicate_mem_iff _ _).mpr ?_⟩
  rw [declared_revealing (by decide +kernel)]
  decide +kernel

end Batch

/-- Two units may have one checksum and with it one name, and a piece of code may give the name of a single unit to a
function: the interpreter tells of both. -/
theorem names_given_twice :
    (∃ first second, Batch.colliding.units = [first, second] ∧ first.source ≠ second.source ∧
      first.name = second.name ∧ Batch.TellsTwice Batch.colliding first.name) ∧
    (((Batch.texts "Page" [Batch.again, "2"]).units.map CodeUnit.name).Nodup ∧
      Batch.TellsTwice (Batch.texts "Page" [Batch.again, "2"]) (unitName .text "2")) ∧
    (((Batch.texts "Page" ["'", Batch.naming, "2"]).units.map CodeUnit.name).Nodup ∧
      Batch.TellsTwice (Batch.texts "Page" ["'", Batch.naming, "2"]) (unitName .text "2")) ∧
    ((Batch.texts Batch.openModel [Batch.naming, "2"]).units.map CodeUnit.name).Nodup ∧
      Batch.TellsTwice (Batch.texts Batch.openModel [Batch.naming, "2"]) (unitName .text "2") := by
  refine ⟨⟨_, _, Batch.units_colliding, ?_, ?_, Batch.tellsTwice_colliding⟩,
    ⟨Batch.doubled.distinct_table, Batch.tellsTwice_doubled⟩,
    ⟨Batch.revealing.distinct_table, Batch.tellsTwice_revealing⟩,
    Batch.revealingModel.distinct_table, Batch.tellsTwice_revealingModel⟩
  · decide
  · decide +kernel

end Stencil
