import Stencil.Proofs.Program.Containment
import Stencil.Proofs.Program.Isolation
import Stencil.Proofs.Program.Telling

/-! What a batch compile tells of a unit, whatever the other units hold.

It is the same as long as no unit in front of it leaves a string open and none names it behind an `fn`. A string left
open takes in the functions behind it, or brings them out if a string in front of it was open already, be it in the
code of a unit or in the type of model. And code that ends its own function may go on with one of another unit's name.
-/

set_option autoImplicit false

namespace Stencil

open Program

section

variable {table : UnitTable} {first rest : List CodeUnit} {changed : CodeUnit} {name : String}

theorem isAround_unit (registered : table.IsRegistered) (line : '\n' ∉ table.modelType.toList)
    (units : table.units = first ++ changed :: rest) (closed : ¬ leavesOpen changed.source.toList)
    (other : name ≠ changed.name) (silent : name ∉ namedIn changed.source.toList) :
    IsAround name (CodeUnit.declarations first) (CodeUnit.declarations rest) table.programText := by
  have named : IsUnitName changed.name :=
    registered.named (List.append_nil table.units).symm changed (by rw [units]; simp)
  obtain ⟨begins, none⟩ := isBlock_header line
  refine ⟨header table.modelType, changed.declaration.toList, ?_, begins, none,
    .inl (CodeUnit.isBlock_declaration named closed), ?_⟩
  · rw [toList_programText_of_units units]
    rfl
  · have marks := changed.marks_declaration named closed []
    rw [marks_nil, List.append_nil, List.append_nil] at marks
    rw [namedIn, marks, tokensOf_unitMarks, functionNames_unitTokens, tokens_tokenize, List.mem_cons, not_or]
    exact ⟨other, silent⟩

theorem isAround_rest (registered : table.IsRegistered) (line : '\n' ∉ table.modelType.toList)
    (units : table.units = first ++ rest) (silent : name ∉ namedIn (CodeUnit.declarations rest)) :
    IsAround name (CodeUnit.declarations first) [] table.programText := by
  have named := registered.named (List.append_nil table.units).symm
  rw [units, List.forall_mem_append] at named
  obtain ⟨begins, none⟩ := isBlock_header line
  refine ⟨header table.modelType, CodeUnit.declarations rest, ?_, begins, none,
    .inr ⟨CodeUnit.isHeaded_declarations named.2, rfl⟩, silent⟩
  rw [toList_programText_of_units units, List.append_nil]

theorem name_ne_of_distinct (units : table.units = first ++ changed :: rest)
    (distinct : (table.units.map CodeUnit.name).Nodup) {unit : CodeUnit} (other : unit ∈ first ++ rest) :
    unit.name ≠ changed.name := by
  intro same
  rw [units, List.map_append, List.map_cons, List.nodup_middle, List.nodup_cons, ← List.map_append] at distinct
  exact distinct.1 (same ▸ List.mem_map_of_mem other)

theorem messagesOf_reported_of_between (registered : table.IsRegistered) (line : '\n' ∉ table.modelType.toList)
    (distinct : (table.units.map CodeUnit.name).Nodup) (units : table.units = first ++ changed :: rest)
    (closed : ∀ u ∈ first ++ [changed], ¬ leavesOpen u.source.toList) {unit : CodeUnit}
    (other : unit ∈ first ++ rest)
    (between : ∀ before after, rest = before ++ unit :: after → ∀ u ∈ before, ¬ leavesOpen u.source.toList)
    (references : List String) :
    messagesOf unit.name (table.reported references) =
      messagesOf unit.name (diagnosticsOf (interpreter (table.request references))) := by
  rcases List.mem_append.mp other with inside | inside
  · obtain ⟨before, after, rfl⟩ := List.append_of_mem inside
    rw [List.append_assoc, List.cons_append] at units
    exact messagesOf_reported_of_closed registered line distinct units fun u member =>
      closed u (by simp [member])
  · obtain ⟨before, after, rfl⟩ := List.append_of_mem inside
    have units : table.units = (first ++ [changed] ++ before) ++ unit :: after := by simpa using units
    refine messagesOf_reported_of_closed registered line distinct units ?_
    rw [List.forall_mem_append]
    exact ⟨closed, between before after rfl⟩

end

structure Variants (table table' : UnitTable) (first : List CodeUnit) (changed changed' : CodeUnit)
    (rest : List CodeUnit) : Prop where
  registered : table.IsRegistered
  registered' : table'.IsRegistered
  units : table.units = first ++ changed :: rest
  units' : table'.units = first ++ changed' :: rest
  distinct : (table.units.map CodeUnit.name).Nodup
  distinct' : (table'.units.map CodeUnit.name).Nodup

section

variable {table table' : UnitTable} {first rest : List CodeUnit} {changed changed' unit : CodeUnit}
  (line : '\n' ∉ table.modelType.toList) (line' : '\n' ∉ table'.modelType.toList)

include line line'

theorem interpreter_alike (variants : Variants table table' first changed changed' rest)
    (other : unit ∈ first ++ rest) (closed : ∀ u ∈ first ++ [changed], ¬ leavesOpen u.source.toList)
    (closed' : ¬ leavesOpen changed'.source.toList) (silent : unit.name ∉ namedIn changed.source.toList)
    (silent' : unit.name ∉ namedIn changed'.source.toList) (references : List String) :
    messagesOf unit.name (diagnosticsOf (interpreter (table.request references))) =
      messagesOf unit.name (diagnosticsOf (interpreter (table'.request references))) := by
  obtain ⟨registered, registered', units, units', distinct, distinct'⟩ := variants
  rw [List.forall_mem_append, List.forall_mem_singleton] at closed
  have named := registered.named (List.append_nil table.units).symm
  rw [units, List.forall_mem_append] at named
  have same : (table.request references).references = (table'.request references).references := rfl
  exact messagesOf_around same (CodeUnit.isBlock_declarations named.1 closed.1)
    (CodeUnit.isHeaded_declarations fun u member => named.2 u (List.mem_cons_of_mem _ member))
    (isAround_unit registered line units closed.2 (name_ne_of_distinct units distinct other) silent)
    (isAround_unit registered' line' units' closed' (name_ne_of_distinct units' distinct' other) silent')

theorem reported_alike {before after : List CodeUnit}
    (variants : Variants table table' (before ++ unit :: after) changed changed' rest)
    (closed : ∀ u ∈ before ++ [unit], ¬ leavesOpen u.source.toList)
    (silent : unit.name ∉ namedIn (CodeUnit.declarations (after ++ changed :: rest)))
    (silent' : unit.name ∉ namedIn (CodeUnit.declarations (after ++ changed' :: rest)))
    (references : List String) :
    messagesOf unit.name (table.reported references) = messagesOf unit.name (table'.reported references) := by
  obtain ⟨registered, registered', units, units', distinct, distinct'⟩ := variants
  rw [List.append_assoc, List.cons_append] at units units'
  have front : ∀ u ∈ before, ¬ leavesOpen u.source.toList := (List.forall_mem_append.mp closed).1
  rw [messagesOf_reported_of_closed registered line distinct units front,
    messagesOf_reported_of_closed registered' line' distinct' units' front]
  rw [List.append_cons] at units units'
  have same : (table.request references).references = (table'.request references).references := rfl
  exact messagesOf_around same (CodeUnit.isBlock_declarations (registered.named units) closed) (.inl marks_nil)
    (isAround_rest registered line units silent) (isAround_rest registered' line' units' silent')

end

/-- Where two batches differ in the code of one unit, they tell the same of another, unless a string is left open in
front of it or the code names it behind an `fn`. -/
theorem compile_isolates {table table' : UnitTable} {first rest : List CodeUnit} {changed changed' unit : CodeUnit}
    (variants : Variants table table' first changed changed' rest) (line : '\n' ∉ table.modelType.toList)
    (line' : '\n' ∉ table'.modelType.toList) (other : unit ∈ first ++ rest) (references : List String) :
    ((∀ u ∈ first ++ [changed, changed'], ¬ leavesOpen u.source.toList) →
      unit.name ∉ namedIn changed.source.toList → unit.name ∉ namedIn changed'.source.toList →
        messagesOf unit.name (diagnosticsOf (interpreter (table.request references))) =
            messagesOf unit.name (diagnosticsOf (interpreter (table'.request references))) ∧
          ((∀ before after, rest = before ++ unit :: after → ∀ u ∈ before, ¬ leavesOpen u.source.toList) →
            messagesOf unit.name (table.reported references) =
              messagesOf unit.name (table'.reported references))) ∧
    (∀ before after, first = before ++ unit :: after →
      (∀ u ∈ before ++ [unit], ¬ leavesOpen u.source.toList) →
        unit.name ∉ namedIn (CodeUnit.declarations (after ++ changed :: rest)) →
          unit.name ∉ namedIn (CodeUnit.declarations (after ++ changed' :: rest)) →
            messagesOf unit.name (table.reported references) =
              messagesOf unit.name (table'.reported references)) := by
  constructor
  · intro closed silent silent'
    have front : ∀ u ∈ first ++ [changed], ¬ leavesOpen u.source.toList := fun u member =>
      closed u (by simp at member ⊢; tauto)
    have front' : ∀ u ∈ first ++ [changed'], ¬ leavesOpen u.source.toList := fun u member =>
      closed u (by simp at member ⊢; tauto)
    have same := interpreter_alike line line' variants other front (front' changed' (by simp)) silent silent'
      references
    refine ⟨same, fun between => ?_⟩
    obtain ⟨registered, registered', units, units', distinct, distinct'⟩ := variants
    rw [messagesOf_reported_of_between registered line distinct units front other between,
      messagesOf_reported_of_between registered' line' distinct' units' front' other between, same]
  · rintro before after rfl closed silent silent'
    exact reported_alike line line' variants closed silent silent' references

namespace Batch

theorem Sample.variants (sample sample' : Sample) (first : List String) (code code' : String) (rest : List String)
    (codes : sample.codes = first ++ code :: rest) (codes' : sample'.codes = first ++ code' :: rest) :
    Variants sample.table sample'.table (first.map textUnit) (textUnit code) (textUnit code')
      (rest.map textUnit) where
  registered := sample.registered
  registered' := sample'.registered
  units := by rw [Sample.units_table codes, List.map_append, List.map_cons]
  units' := by rw [Sample.units_table codes', List.map_append, List.map_cons]
  distinct := sample.distinct_table
  distinct' := sample'.distinct_table

def dotted : Sample := { modelType := "Page", codes := ["nope", "model.", "absent"] }

def titled : Sample := { modelType := "Page", codes := ["nope", "model.title", "absent"] }

def single : Sample := { modelType := "Page", codes := ["nope", "1", "absent"] }

def quoted : Sample := { modelType := "Page", codes := ["nope", "'", "absent"] }

end Batch

open Batch in
theorem compile_isolates_texts :
    messagesOf (unitName .text "absent") (dotted.table.reported ["core"]) =
        messagesOf (unitName .text "absent") (titled.table.reported ["core"]) ∧
      messagesOf (unitName .text "nope") (single.table.reported ["core"]) =
        messagesOf (unitName .text "nope") (quoted.table.reported ["core"]) := by
  constructor
  · have variants : Variants _ _ [textUnit "nope"] _ _ [textUnit "absent"] :=
      dotted.variants titled ["nope"] "model." "model.title" ["absent"] rfl rfl
    have other : textUnit "absent" ∈ [textUnit "nope"] ++ [textUnit "absent"] := by simp
    obtain ⟨alike, _⟩ := compile_isolates variants line_page line_page other ["core"]
    refine (alike ?_ (by decide +kernel) (by decide +kernel)).2 ?_
    · decide +kernel
    · intro before after same
      cases before with
      | nil => simp
      | cons u before => simp at same
  · have variants : Variants _ _ [textUnit "nope"] _ _ [textUnit "absent"] :=
      single.variants quoted ["nope"] "1" "'" ["absent"] rfl rfl
    have other : textUnit "nope" ∈ [textUnit "nope"] ++ [textUnit "absent"] := by simp
    obtain ⟨_, alike⟩ := compile_isolates variants line_page line_page other ["core"]
    exact alike [] [] rfl (by decide +kernel) (by decide +kernel) (by decide +kernel)

/-! ### Units that get at others -/

/-- Two batches that are the same but for the code of one unit, and tell different things of another one. -/
def Interferes (table table' : UnitTable) (unit : CodeUnit) : Prop :=
  ∃ first changed changed' rest, Variants table table' first changed changed' rest ∧ unit ∈ first ++ rest ∧
    messagesOf unit.name (table.reported ["core"]) ≠ messagesOf unit.name (table'.reported ["core"])

namespace Batch

theorem tokens_nope : (tokenize "nope").1 = [⟨.name "nope", ⟨0, 4⟩⟩] := by with_unfolding_all rfl

theorem plain_nope : IsPlain "nope" := by
  constructor
  · decide +kernel
  · rw [tokens_nope]
    simp

theorem told_nope {table shown : UnitTable} {first rest : List CodeUnit} {references : List String}
    (text : table.programText = shown.programText) (line : '\n' ∉ shown.modelType.toList)
    (units : shown.units = first ++ textUnit "nope" :: rest) (named : ∀ unit ∈ shown.units, IsUnitName unit.name)
    (closed : ∀ unit ∈ first, ¬ leavesOpen unit.source.toList) :
    messagesOf (unitName .text "nope") (diagnosticsOf (interpreter (table.request references))) ≠ [] := by
  have broken : ∀ e, ¬ IsWhole (functionsOf references) (tokenize "nope").1 e := by
    rw [tokens_nope]
    exact not_isWhole_name rfl (by decide)
  have told := messagesOf_ne_nil line units named closed plain_nope broken
  rw [messagesOf_interpreter] at told ⊢
  show _ ++ _ ≠ []
  rw [show (table.request references).source = (shown.request references).source from text]
  exact told

theorem reports_nope {table shown : UnitTable} {first rest : List CodeUnit} {references : List String}
    (text : table.programText = shown.programText) (line : '\n' ∉ shown.modelType.toList)
    (units : shown.units = first ++ textUnit "nope" :: rest) (named : ∀ unit ∈ shown.units, IsUnitName unit.name)
    (closed : ∀ unit ∈ first, ¬ leavesOpen unit.source.toList) :
    messagesOf (unitName .text "nope") (table.reported references) ≠ [] :=
  messagesOf_reported_ne_nil (told_nope text line units named closed)

theorem silent_of_hidden {table shown : UnitTable} {units : List CodeUnit} {references : List String} {name : String}
    (text : table.programText = shown.programText) (line : '\n' ∉ shown.modelType.toList) (whole : shown.units = units)
    (bad : ∃ kind ∈ marks (CodeUnit.declarations units), kind.isBad)
    (unnamed : name ∉ namedIn (CodeUnit.declarations units)) :
    messagesOf name (table.reported references) = [] := by
  have kinds : marks table.programText.toList = marks (CodeUnit.declarations units) := by
    rw [text, UnitTable.marks_programText_declarations line, whole]
  rw [← kinds] at bad
  rw [namedIn, ← kinds] at unnamed
  exact messagesOf_reported_of_hidden bad unnamed

def shut : Sample := { modelType := "Page", codes := ["1", "nope"] }

def opened : Sample := { modelType := "Page", codes := ["'", "nope"] }

/-- An open string takes in the function of the next unit. -/
theorem interferes_open : Interferes shut.table opened.table (textUnit "nope") := by
  have variants : Variants shut.table opened.table [] _ _ [textUnit "nope"] :=
    shut.variants opened [] "1" "'" ["nope"] rfl rfl
  refine ⟨_, _, _, _, variants, List.mem_singleton_self _, ?_⟩
  have units : shut.table.units = [textUnit "1"] ++ textUnit "nope" :: [] := shut.units
  have told : messagesOf (unitName .text "nope") (shut.table.reported ["core"]) ≠ [] :=
    reports_nope rfl line_page units (shut.registered.named (List.append_nil _).symm) (by decide +kernel)
  have silent : messagesOf (unitName .text "nope") (opened.table.reported ["core"]) = [] :=
    silent_of_hidden rfl line_page opened.units (by decide +kernel) (by decide +kernel)
  exact ne_of_ne_of_eq told silent.symm

/-! ### Strings in front -/

/-- A string that ends one in front of it, and hides what follows in a comment. -/
def ending : String := "\"'//\""

/-- What the program shows of a unit with an open string and of one with `ending` behind it. -/
def joined : CodeUnit :=
  { name := unitName .text "'", kind := .text, line := 1
    source := "'\n\x7d\n\nfn _ba26401e(model) -> text \x7b\n    \"'//\"" }

theorem named_joined : ∀ unit ∈ [joined] ++ textUnit "nope" :: [], IsUnitName unit.name := by
  simp [joined, textUnit, isUnitName_unitName]

def ended : Shown where
  units := [joined] ++ textUnit "nope" :: []
  named := named_joined

theorem reports_ended {table : UnitTable} (text : table.programText = ended.table.programText) :
    messagesOf (unitName .text "nope") (table.reported ["core"]) ≠ [] :=
  reports_nope text line_page rfl ended.named fun unit member =>
    ended.closed unit (List.mem_append_left _ member)

def covered : Sample := { modelType := "Page", codes := ["'", "1", "nope"] }

def uncovered : Sample := { modelType := "Page", codes := ["'", ending, "nope"] }

theorem silent_covered {table : UnitTable} (text : table.programText = covered.table.programText) :
    messagesOf (unitName .text "nope") (table.reported ["core"]) = [] :=
  silent_of_hidden text line_page covered.units (by decide +kernel) (by decide +kernel)

/-- Behind an open string, another string brings out what follows. -/
theorem interferes_behind : Interferes covered.table uncovered.table (textUnit "nope") := by
  have variants : Variants covered.table uncovered.table [textUnit "'"] _ _ [textUnit "nope"] :=
    covered.variants uncovered ["'"] "1" ending ["nope"] rfl rfl
  refine ⟨_, _, _, _, variants, by simp, ?_⟩
  exact (ne_of_ne_of_eq (reports_ended (by decide +kernel)) (silent_covered rfl).symm).symm

/-- A type of model with an open string in its last line. -/
def openModel : String := "Page\n\nfn _0d7335a4(model) -> text \x7b\n    '\n\x7d"

def coveredModel : Sample := { modelType := openModel, codes := ["1", "nope"] }

def uncoveredModel : Sample := { modelType := openModel, codes := [ending, "nope"] }

theorem interferes_model : Interferes coveredModel.table uncoveredModel.table (textUnit "nope") := by
  have variants : Variants coveredModel.table uncoveredModel.table [] _ _ [textUnit "nope"] :=
    coveredModel.variants uncoveredModel [] "1" ending ["nope"] rfl rfl
  refine ⟨_, _, _, _, variants, List.mem_singleton_self _, ?_⟩
  have silent : messagesOf (unitName .text "nope") (coveredModel.table.reported ["core"]) = [] :=
    silent_covered (by decide +kernel)
  exact (ne_of_ne_of_eq (reports_ended (by decide +kernel)) silent.symm).symm

/-! ### Functions of one name -/

/-- Code that ends its own function and begins one of the name of the unit behind it. -/
def again : String := "1 \x7d fn _60aed14f(model) -> text \x7b 2"

theorem tokens_again : (tokenize again).1.map Lexeme.token =
    [.integer 1, .symbol .closeBrace, .keyword .fn, .name "_60aed14f", .symbol .openParen, .name "model",
      .symbol .closeParen, .symbol .arrow, .name "text", .symbol .openBrace, .integer 2] := by
  with_unfolding_all rfl

def once : Sample := { modelType := "Page", codes := ["1", "2"] }

def doubled : Sample := { modelType := "Page", codes := [again, "2"] }

theorem declared_doubled : (surveyFor (doubled.table.request ["core"])).declarations.map Declaration.name =
    [unitName .text again, "_60aed14f", unitName .text "2"] := by
  have units : doubled.table.units = [textUnit again, textUnit "2"] ++ [] := doubled.units
  have tokens : (tokenize (doubled.table.request ["core"]).source).1.map Lexeme.token =
      [digit (unitName .text again) "1", digit "_60aed14f" "2", textUnit "2"].flatMap unitTokens := by
    show (tokenize doubled.table.programText).1.map Lexeme.token = _
    rw [tokens_programText line_page units (doubled.registered.named units) (by decide +kernel),
      List.flatMap_nil, marks_nil]
    simp only [List.flatMap_cons, List.flatMap_nil, unitTokens, tokens_again, textUnit, digit, tokens_one, tokens_two]
    rfl
  obtain ⟨declarations, headers, declares, all⟩ :=
    surveyFor_of_tokens tokens (wholes_digits (by simp [digit, textUnit]))
  rw [all, names_of_declares declares]
  rfl

theorem interferes_again : Interferes once.table doubled.table (textUnit "2") := by
  have variants : Variants once.table doubled.table [] _ _ [textUnit "2"] :=
    once.variants doubled [] "1" again ["2"] rfl rfl
  refine ⟨_, _, _, _, variants, List.mem_singleton_self _, ?_⟩
  have silent : messagesOf (unitName .text "2") (once.table.reported ["core"]) = [] := by
    obtain ⟨resolved, compiled, _⟩ := batch_evaluates once.registered line_page once.distinct_table
      (by decide) fun unit member => isExpression_digits unit (once.units ▸ member)
    rw [UnitTable.reported, compiled]
    rfl
  have twice : [unitName .text again, "_60aed14f", unitName .text "2"].count (unitName .text "2") = 2 := by
    decide +kernel
  have told : messagesOf (unitName .text "2") (doubled.table.reported ["core"]) ≠ [] := by
    refine messagesOf_reported_ne_nil ?_
    rw [messagesOf_interpreter, ← surveyFor_eq, declared_doubled, twice]
    simp
  exact ne_of_eq_of_ne silent told.symm

/-! ### Missing functions -/

/-- What the program shows of a unit with an open string and of the one behind it that ends the string. -/
def taking : CodeUnit :=
  { name := unitName .text "'", kind := .text, line := 1
    source := "'\n\x7d\n\nfn _64cca776(model) -> text \x7b\n    '//" }

theorem named_taking : ∀ unit ∈ [textUnit "1", taking], IsUnitName unit.name := by
  simp [taking, textUnit, isUnitName_unitName]

def taken : Shown where
  units := [textUnit "1", taking]
  named := named_taking

theorem wholes_taken : ∀ unit ∈ taken.units, ∃ e, IsWhole (functionsOf ["core"]) (tokenize unit.source).1 e := by
  have string : (tokenize taking.source).1.map Lexeme.token =
      [.string "\n\x7d\n\nfn _64cca776(model) -> text \x7b\n    "] := by
    with_unfolding_all rfl
  obtain ⟨a, none, whole, token, last⟩ := List.map_eq_cons_iff.mp string
  obtain rfl := List.map_eq_nil_iff.mp last
  intro unit member
  rcases List.mem_pair.mp member with rfl | rfl
  · exact ⟨_, tokens_one ▸ isWhole_literal rfl⟩
  · rw [whole]
    exact ⟨_, isWhole_literal (by rw [token]; rfl)⟩

def missing : Sample := { modelType := "Page", codes := ["1", "'", "'//"] }

def broken : Sample := { modelType := "Page", codes := ["nope", "'", "'//"] }

theorem told_missing : messagesOf (unitName .text "'//") (missing.table.reported ["core"]) ≠ [] := by
  have text : missing.table.programText = taken.table.programText := by decide +kernel
  obtain ⟨declarations, declares, answered⟩ :=
    answered_of_tokens (by decide) (taken.errors text) (taken.tokens text) wholes_taken taken.distinct
  have member : textUnit "'//" ∈ missing.table.units := missing.mem_units (by decide)
  refine messagesOf_reported_of_missing member answered ?_
  have others : unitName .text "'//" ∉ taken.units.map CodeUnit.name := by decide +kernel
  rw [← names_of_declares declares] at others
  rw [libraryOf, Option.map_eq_none_iff, List.find?_eq_none]
  intro d inside same
  exact others (List.mem_map.mpr ⟨d, inside, of_decide_eq_true same⟩)

theorem silent_broken : messagesOf (unitName .text "'//") (broken.table.reported ["core"]) = [] := by
  have units : broken.table.units = [] ++ textUnit "nope" :: [textUnit "'", textUnit "'//"] := broken.units
  have told : messagesOf (unitName .text "nope") (diagnosticsOf (interpreter (broken.table.request ["core"]))) ≠ [] :=
    told_nope rfl line_page units (broken.registered.named (List.append_nil _).symm) (by simp)
  rw [messagesOf_reported_of_refused (refused_of_told told)]
  have unnamed : unitName .text "'//" ∉ namedIn broken.table.programText.toList := by
    rw [namedIn, UnitTable.marks_programText_declarations line_page, units]
    decide +kernel
  exact messagesOf_of_unnamed unnamed

/-- Where the units in front compile, a unit behind an open string is told of for want of its function. -/
theorem interferes_missing : Interferes missing.table broken.table (textUnit "'//") := by
  have variants : Variants missing.table broken.table [] _ _ [textUnit "'", textUnit "'//"] :=
    missing.variants broken [] "1" "nope" ["'", "'//"] rfl rfl
  refine ⟨_, _, _, _, variants, by simp, ?_⟩
  exact ne_of_ne_of_eq told_missing silent_broken.symm

end Batch

/-- Code may leave a string open, stand behind an open string or name the unit; and a missing function is told of only
if nothing else is wrong. -/
theorem batch_interferes :
    Interferes (Batch.texts "Page" ["1", "nope"]) (Batch.texts "Page" ["'", "nope"]) (Batch.textUnit "nope") ∧
    Interferes (Batch.texts "Page" ["'", "1", "nope"]) (Batch.texts "Page" ["'", Batch.ending, "nope"])
      (Batch.textUnit "nope") ∧
    Interferes (Batch.texts Batch.openModel ["1", "nope"]) (Batch.texts Batch.openModel [Batch.ending, "nope"])
      (Batch.textUnit "nope") ∧
    Interferes (Batch.texts "Page" ["1", "2"]) (Batch.texts "Page" [Batch.again, "2"]) (Batch.textUnit "2") ∧
    Interferes (Batch.texts "Page" ["1", "'", "'//"]) (Batch.texts "Page" ["nope", "'", "'//"])
      (Batch.textUnit "'//") :=
  ⟨Batch.interferes_open, Batch.interferes_behind, Batch.interferes_model, Batch.interferes_again,
    Batch.interferes_missing⟩

end Stencil
