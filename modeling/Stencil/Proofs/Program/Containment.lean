import Stencil.Proofs.Program.Batch

/-! What a batch that compiles can hold.

The code of a unit goes into the program text as it is, so that a closing brace in it ends the function, and a
string left open takes in the text of the next unit. Nothing else gets out of a unit: in a batch that compiles,
the units up to the first of that kind are expressions each for itself, and the program declares them in order
and no other function in front of them.
-/

set_option autoImplicit false

namespace Stencil

open Program

section

variable {table : UnitTable} {references : List String} {library : Library} {first rest : List CodeUnit}

theorem isExpression_of_answered (registered : table.IsRegistered) (line : '\n' ∉ table.modelType.toList)
    (answered : interpreter (table.request references) = .ok library)
    (units : table.units = first ++ rest) (plain : ∀ unit ∈ first, IsPlain unit.source) :
    ∀ unit ∈ first, ∃ e, IsExpression (functionsOf references) unit.source e := by
  obtain ⟨_, findings, errors, _, _⟩ := interpreter_eq_ok_iff.mp answered
  have closed : ∀ unit ∈ first, ¬ leavesOpen unit.source.toList := fun unit member =>
    (plain unit member).closed
  have named := registered.named units
  have clean := ((errors_programText line units named closed).mp errors).1
  have wholes := wholes_of_survey (fun unit member => (plain unit member).plain)
    (tokens_programText line units named closed) findings
  intro unit member
  obtain ⟨e, whole⟩ := wholes unit member
  exact ⟨e, clean unit member, whole⟩

theorem declares_of_answered (registered : table.IsRegistered) (line : '\n' ∉ table.modelType.toList)
    (answered : interpreter (table.request references) = .ok library)
    (units : table.units = first ++ rest) (plain : ∀ unit ∈ first, IsPlain unit.source) :
    ∃ declarations later,
      (Contents.ofText (functionsOf references) table.programText).declarations = declarations ++ later ∧
      List.Forall₂ (Declares (functionsOf references)) first declarations ∧ (rest = [] → later = []) := by
  have wholes : ∀ unit ∈ first,
      ∃ e, IsWhole (functionsOf references) (tokenize unit.source).1 e := by
    intro unit member
    obtain ⟨e, expression⟩ := isExpression_of_answered registered line answered units plain unit member
    exact ⟨e, expression.whole⟩
  obtain ⟨declarations, headers, later, declares, found, last⟩ := survey_programText references line units
    (registered.named units) (fun unit member => (plain unit member).closed) wholes
  refine ⟨declarations, later.declarations, ?_, declares, ?_⟩
  · show (surveyFor (table.request references)).declarations = _
    rw [found]
    rfl
  · intro none
    rw [last none]
    rfl

theorem entryPoint_of_answered (registered : table.IsRegistered) (line : '\n' ∉ table.modelType.toList)
    (answered : interpreter (table.request references) = .ok library)
    (plain : ∀ unit ∈ table.units, IsPlain unit.source) {name : String}
    (entry : (library.entryPoint? name).isSome) : name ∈ table.units.map CodeUnit.name := by
  obtain ⟨declarations, later, same, declares, last⟩ := declares_of_answered registered line answered
    (List.append_nil table.units).symm plain
  obtain ⟨_, _, _, _, rfl⟩ := interpreter_eq_ok_iff.mp answered
  have all : (surveyFor (table.request references)).declarations = declarations := by
    rw [last rfl, List.append_nil] at same
    exact same
  rw [← names_of_declares declares, ← all]
  simp only [libraryOf, Option.isSome_map, List.find?_isSome] at entry
  obtain ⟨d, member, named⟩ := entry
  exact List.mem_map.mpr ⟨d, member, of_decide_eq_true named⟩

end

/-- In a batch that compiles, all units are expressions exactly when none leaves a string open or holds a closing
brace. Those in front of the first that does are, in any case. -/
theorem batch_contains {table : UnitTable} {references : List String} {resolved : ResolvedUnits}
    (registered : table.IsRegistered) (line : '\n' ∉ table.modelType.toList)
    (compiled : table.compile interpreter references = .ok resolved) :
    ((∀ unit ∈ table.units, ∃ e, IsExpression (functionsOf references) unit.source e) ↔
      ∀ unit ∈ table.units, IsPlain unit.source) ∧
    (∀ first rest, table.units = first ++ rest → (∀ unit ∈ first, IsPlain unit.source) →
      (∀ unit ∈ first, ∃ e, IsExpression (functionsOf references) unit.source e) ∧
      ∃ declarations later,
        (Contents.ofText (functionsOf references) table.programText).declarations = declarations ++ later ∧
        List.Forall₂ (Declares (functionsOf references)) first declarations ∧ (rest = [] → later = [])) ∧
    ((∀ unit ∈ table.units, IsPlain unit.source) →
      ∀ library, interpreter (table.request references) = .ok library →
        ∀ name, (library.entryPoint? name).isSome → name ∈ table.units.map CodeUnit.name) := by
  obtain ⟨library, answered, _, _, _⟩ := UnitTable.compile_eq_ok_iff.mp compiled
  refine ⟨⟨?_, ?_⟩, ?_, ?_⟩
  · intro expressions unit member
    obtain ⟨e, expression⟩ := expressions unit member
    exact expression.isPlain
  · exact isExpression_of_answered registered line answered (List.append_nil table.units).symm
  · intro first rest units plain
    exact ⟨isExpression_of_answered registered line answered units plain,
      declares_of_answered registered line answered units plain⟩
  · intro plain library answered name entry
    exact entryPoint_of_answered registered line answered plain entry

theorem batch_contains_page :
    ∃ declarations,
      (Contents.ofText (functionsOf ["core"]) Batch.page.programText).declarations = declarations ∧
      List.Forall₂ (Declares (functionsOf ["core"])) Batch.page.units declarations := by
  have registered : Batch.page.IsRegistered := ⟨_, _, _, rfl⟩
  have line : '\n' ∉ Batch.page.modelType.toList := by decide
  obtain ⟨_, declares, answered⟩ := answered_of_isExpression registered line Batch.distinct_page
    (by decide) Batch.expressions_page
  obtain ⟨resolved, compiled⟩ := compile_of_declares answered declares Batch.distinct_page
    fun unit member => ⟨unit, member, rfl, rfl⟩
  obtain ⟨same, front, _⟩ := batch_contains registered line compiled
  obtain ⟨_, declarations, later, all, declares, none⟩ :=
    front Batch.page.units [] (List.append_nil _).symm (same.mp Batch.expressions_page)
  rw [none rfl, List.append_nil] at all
  exact ⟨declarations, all, declares⟩

namespace Batch

theorem line_page : '\n' ∉ "Page".toList := by decide

def texts (modelType : String) (codes : List String) : UnitTable :=
  (UnitTable.empty modelType .dedupe).registerAll (codes.map fun code => (code, .text, 1))

def textUnit (code : String) : CodeUnit := { name := unitName .text code, source := code, kind := .text, line := 1 }

structure Sample where
  modelType : String
  codes : List String
  units : (texts modelType codes).units = codes.map textUnit := by decide +kernel
  distinct : (codes.map (unitName .text)).Nodup := by decide +kernel

namespace Sample

def table (sample : Sample) : UnitTable := texts sample.modelType sample.codes

theorem registered (sample : Sample) : sample.table.IsRegistered := ⟨_, _, _, rfl⟩

theorem units_table {sample : Sample} {codes : List String} (same : sample.codes = codes) :
    sample.table.units = codes.map textUnit := same ▸ sample.units

theorem mem_units (sample : Sample) {code : String} (member : code ∈ sample.codes) :
    textUnit code ∈ sample.table.units := by
  rw [sample.units_table rfl]
  exact List.mem_map_of_mem member

theorem distinct_table (sample : Sample) : (sample.table.units.map CodeUnit.name).Nodup := by
  rw [sample.units_table rfl, List.map_map]
  exact sample.distinct

end Sample

/-- Units that a program text may read as, whatever those are that it was made from. -/
structure Shown where
  units : List CodeUnit
  named : ∀ unit ∈ units, IsUnitName unit.name
  closed : ∀ unit ∈ units, ¬ leavesOpen unit.source.toList := by decide +kernel
  clean : ∀ unit ∈ units, (tokenize unit.source).2.isEmpty := by decide +kernel
  distinct : (units.map CodeUnit.name).Nodup := by decide +kernel

namespace Shown

def table (shown : Shown) : UnitTable := { modelType := "Page", sharing := .dedupe, units := shown.units }

variable (shown : Shown) {table : UnitTable} (text : table.programText = shown.table.programText)

include text

theorem tokens : (tokenize table.programText).1.map Lexeme.token = shown.units.flatMap unitTokens := by
  have units : shown.table.units = shown.units ++ [] := (List.append_nil _).symm
  rw [text, tokens_programText line_page units shown.named shown.closed, List.flatMap_nil, marks_nil]
  exact List.append_nil _

theorem errors : (tokenize table.programText).2 = [] := by
  have units : shown.table.units = shown.units ++ [] := (List.append_nil _).symm
  rw [text, errors_programText line_page units shown.named shown.closed]
  exact ⟨fun unit member => List.isEmpty_iff.mp (shown.clean unit member), by simp [marks_nil]⟩

end Shown

def digit (name : String) (source : String) : CodeUnit := { name, source, kind := .text, line := 1 }

theorem tokens_one : (tokenize "1").1 = [⟨.integer 1, ⟨0, 1⟩⟩] := by with_unfolding_all rfl

theorem tokens_two : (tokenize "2").1 = [⟨.integer 2, ⟨0, 1⟩⟩] := by with_unfolding_all rfl

theorem isExpression_one (functions : List Function) : ∃ e, IsExpression functions "1" e :=
  ⟨_, by with_unfolding_all rfl, tokens_one ▸ isWhole_literal rfl⟩

theorem isExpression_two (functions : List Function) : ∃ e, IsExpression functions "2" e :=
  ⟨_, by with_unfolding_all rfl, tokens_two ▸ isWhole_literal rfl⟩

theorem isExpression_digits : ∀ unit ∈ ["1", "2"].map textUnit,
    ∃ e, IsExpression (functionsOf ["core"]) unit.source e := by
  intro unit member
  rcases List.mem_pair.mp member with rfl | rfl
  · exact isExpression_one _
  · exact isExpression_two _

theorem wholes_digits {functions : List Function} {units : List CodeUnit}
    (digits : ∀ unit ∈ units, unit.source = "1" ∨ unit.source = "2") :
    ∀ unit ∈ units, ∃ e, IsWhole functions (tokenize unit.source).1 e := by
  intro unit member
  rcases digits unit member with source | source
  · rw [source, tokens_one]
    exact ⟨_, isWhole_literal rfl⟩
  · rw [source, tokens_two]
    exact ⟨_, isWhole_literal rfl⟩

structure HasForeign (table : UnitTable) (name : String) : Prop where
  registered : table.IsRegistered
  compiles : ∃ resolved, table.compile interpreter ["core"] = .ok resolved
  foreign : ∃ library, interpreter (table.request ["core"]) = .ok library ∧
    (library.entryPoint? name).isSome ∧ name ∉ table.units.map CodeUnit.name

theorem hasForeign_of_tokens {table : UnitTable} (shown : List CodeUnit) (other : CodeUnit)
    (registered : table.IsRegistered) (errors : (tokenize table.programText).2 = [])
    (tokens : (tokenize table.programText).1.map Lexeme.token = shown.flatMap unitTokens)
    (digits : ∀ unit ∈ shown, unit.source = "1" ∨ unit.source = "2")
    (distinct : (shown.map CodeUnit.name).Nodup)
    (shows : ∀ unit ∈ table.units, ∃ other ∈ shown, other.name = unit.name ∧ other.kind = unit.kind)
    (present : other ∈ shown) (absent : other.name ∉ table.units.map CodeUnit.name) :
    HasForeign table other.name := by
  have known : ∀ reference ∈ ["core"], (library? reference).isSome := by decide
  obtain ⟨declarations, declares, answered⟩ :=
    answered_of_tokens known errors tokens (wholes_digits digits) distinct
  obtain ⟨d, found, _⟩ := find_declares declares distinct present
  refine ⟨registered, compile_of_declares answered declares distinct shows, _, answered, ?_, absent⟩
  simp [libraryOf, found]

def escape : CodeUnit :=
  { name := unitName .text "1 \x7d fn evil(model) -> text \x7b 2"
    source := "1 \x7d fn evil(model) -> text \x7b 2", kind := .text, line := 1 }

/-- A unit that ends its own function and declares another one. -/
def escaping : UnitTable :=
  (UnitTable.empty "Page" .dedupe).registerAll [("1 \x7d fn evil(model) -> text \x7b 2", .text, 1)]

def escapingSample : Sample := { modelType := "Page", codes := ["1 \x7d fn evil(model) -> text \x7b 2"] }

theorem units_escaping : escaping.units = [escape] := escapingSample.units

def escapeShown : Shown where
  units := [escape]
  named := by simp [escape, isUnitName_unitName]

theorem text_escaping : escaping.programText = escapeShown.table.programText := by
  unfold UnitTable.programText
  rw [units_escaping]
  rfl

theorem tokens_escape : (tokenize escape.source).1.map Lexeme.token =
    [.integer 1, .symbol .closeBrace, .keyword .fn, .name "evil", .symbol .openParen, .name "model",
      .symbol .closeParen, .symbol .arrow, .name "text", .symbol .openBrace, .integer 2] := by
  with_unfolding_all rfl

theorem tokens_escaping : (tokenize escaping.programText).1.map Lexeme.token =
    [digit escape.name "1", digit "evil" "2"].flatMap unitTokens := by
  rw [escapeShown.tokens text_escaping]
  simp only [escapeShown, List.flatMap_cons, List.flatMap_nil, unitTokens, tokens_escape, digit, tokens_one,
    tokens_two]
  rfl

theorem hasForeign_escaping : HasForeign escaping "evil" := by
  refine hasForeign_of_tokens _ (digit "evil" "2") ⟨_, _, _, rfl⟩
    (escapeShown.errors text_escaping) tokens_escaping (by decide) (by decide +kernel) ?_ (by simp) ?_
  · intro unit member
    rw [units_escaping] at member
    rw [List.mem_singleton.mp member]
    exact ⟨_, List.mem_cons_self, rfl, rfl⟩
  · rw [units_escaping]
    decide +kernel

theorem not_isExpression_escape {functions : List Function} {e : Expr} :
    ¬ IsExpression functions escape.source e := by
  intro expression
  have brace : Token.symbol .closeBrace ∈ (tokenize escape.source).1.map Lexeme.token := by
    rw [tokens_escape]
    exact List.mem_cons_of_mem _ List.mem_cons_self
  obtain ⟨t, member, token⟩ := List.mem_map.mp brace
  exact expression.whole.plain t member token

/-- A table whose type of model ends the comment at the head of the program. -/
def intruding : UnitTable :=
  (UnitTable.empty "Page\n\nfn _evil(model) -> text \x7b\n    2\n\x7d" .dedupe).registerAll [("1", .text, 1)]

def intruded : UnitTable :=
  { modelType := "Page", sharing := .dedupe, units := [digit "_evil" "2", digit (unitName .text "1") "1"] }

theorem units_intruding : intruding.units = [digit (unitName .text "1") "1"] := by
  rfl

theorem text_intruding : intruding.programText = intruded.programText := by
  have whole : ∀ table : UnitTable, table.programText =
      "// generated by nhaml\n// model: " ++ (table.modelType ++ "\n") ++
        String.join (table.units.map CodeUnit.declaration) := by
    intro table
    rw [← String.append_assoc]
    rfl
  -- The type of model spells out the declaration that a unit would have had in front.
  have head : intruding.modelType ++ "\n" =
      intruded.modelType ++ "\n" ++ (digit "_evil" "2").declaration := by
    rfl
  rw [whole, whole, units_intruding, head]
  simp only [intruded, List.map_cons, List.map_nil, String.join_cons, String.append_assoc]

def intrudedShown : Shown where
  units := intruded.units
  named := by
    intro unit member
    rcases List.mem_pair.mp member with rfl | rfl
    · exact ⟨"evil".toList, rfl, List.all_eq_true.mp rfl⟩
    · exact isUnitName_unitName .text "1"

theorem hasForeign_intruding : HasForeign intruding "_evil" := by
  refine hasForeign_of_tokens intruded.units (digit "_evil" "2") ⟨_, _, _, rfl⟩
    (intrudedShown.errors text_intruding) (intrudedShown.tokens text_intruding) (by decide)
    intrudedShown.distinct ?_ (by simp [intruded]) ?_
  · intro unit member
    rw [units_intruding] at member
    exact ⟨unit, List.mem_cons_of_mem _ member, rfl, rfl⟩
  · rw [units_intruding]
    decide +kernel

end Batch

/-- A closing brace in the code of a unit and a line feed in the type of model each bring in a function. -/
theorem batch_not_contained :
    (Batch.HasForeign Batch.escaping "evil" ∧
      ∃ unit ∈ Batch.escaping.units, ∀ e, ¬ IsExpression (functionsOf ["core"]) unit.source e) ∧
    Batch.HasForeign Batch.intruding "_evil" := by
  refine ⟨⟨Batch.hasForeign_escaping, Batch.escape, ?_, fun e => Batch.not_isExpression_escape⟩,
    Batch.hasForeign_intruding⟩
  exact Batch.units_escaping ▸ List.mem_cons_self

end Stencil
