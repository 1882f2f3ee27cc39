import Stencil.Proofs.Names
import Stencil.Proofs.Program.Containment
import Stencil.Proofs.Sharing.Steps
import Stencil.Proofs.Sharing.Walk
import Stencil.Proofs.Walk.Handles
import Stencil.Proofs.Walk.Steps
import Stencil.Store.Files
import Stencil.View.Compile

/-! Sharing units is not to be seen in what a view writes.

Where every unit is an expression of its own, a batch compile gives a unit the code of its expression, whatever its name
and its handle are. So ops that are alike become steps with the same code, and these do the same on every model.
-/

set_option autoImplicit false

namespace Stencil

open Program

/-! ### Tables of expressions -/

structure UnitTable.OfExpressions (table : UnitTable) (references : List String) : Prop where
  registered : table.IsRegistered
  line : '\n' ∉ table.modelType.toList
  distinct : (table.units.map CodeUnit.name).Nodup
  expressions : ∀ unit ∈ table.units, ∃ e, IsExpression (functionsOf references) unit.source e

namespace UnitTable.OfExpressions

variable {table table' : UnitTable} {references : List String}

theorem compile_of_unknown (ready : table.OfExpressions references)
    (unknown : ∃ reference ∈ references, library? reference = none) :
    table.compile interpreter references = .error (.compilationFailed table.modelType
      ((references.filter fun name => (library? name).isNone).map unknownLibrary)) := by
  have refused := refused_of_isExpression ready.registered ready.line ready.distinct unknown ready.expressions
  simp only [UnitTable.compile, refused, failure, List.map_map]
  rfl

theorem exists_compile (ready : table.OfExpressions references)
    (known : ∀ reference ∈ references, (library? reference).isSome) :
    ∃ resolved, table.compile interpreter references = .ok resolved ∧
      ∀ handle unit, table.units[handle]? = some unit →
        resolved.name handle = unit.name ∧
          ∃ d, Declares (functionsOf references) unit d ∧ resolved.get? handle = some d.entryPoint := by
  obtain ⟨declarations, declares, answered⟩ :=
    answered_of_isExpression ready.registered ready.line ready.distinct known ready.expressions
  exact exists_compile_of_declares answered declares ready.distinct

theorem compile_alike (ready : table.OfExpressions references) (ready' : table'.OfExpressions references)
    (known : ∀ reference ∈ references, (library? reference).isSome) :
    ∃ resolved resolved', table.compile interpreter references = .ok resolved ∧
      table'.compile interpreter references = .ok resolved' ∧ resolved.Alike table.units table'.units resolved' := by
  obtain ⟨resolved, compiled, answers⟩ := ready.exists_compile known
  obtain ⟨resolved', compiled', answers'⟩ := ready'.exists_compile known
  refine ⟨resolved, resolved', compiled, compiled', ?_, ?_⟩
  · rintro kind handle handle' ⟨source, ⟨unit, here, rfl, rfl⟩, unit', there, kind, source⟩
    obtain ⟨_, d, declares, found⟩ := answers handle unit here
    obtain ⟨_, d', declares', found'⟩ := answers' handle' unit' there
    rw [declares'.entryPoint_eq declares kind source] at found'
    exact ⟨d.entryPoint, found, found', declares.entryPoint_kind⟩
  · rintro kind handle handle' ⟨source, ⟨unit, here, rfl, rfl⟩, unit', there, kind, source⟩
    exact ⟨unit, List.mem_of_getElem? here, unit', List.mem_of_getElem? there, (answers handle unit here).1.symm,
      (answers' handle' unit' there).1.symm, kind.symm, source.symm⟩

end UnitTable.OfExpressions

/-! ### Views -/

section
variable (context : Context) (store : Store) (memo : Memo) (modelType : String) (references : List String)

/-- What is asked of the code of a view: every piece of it is an expression of its own, and names tell pieces apart. -/
structure SoundCode : Prop where
  expressions : ∀ walked, walk context store memo modelType .perSite = .ok walked →
    ∀ unit ∈ walked.units.units, ∃ e, IsExpression (functionsOf references) unit.source e
  apart : ∀ walked, walk context store memo modelType .perSite = .ok walked →
    ∀ unit ∈ walked.units.units, ∀ other ∈ walked.units.units,
      unitName unit.kind unit.source = unitName other.kind other.source →
        unit.kind = other.kind ∧ unit.source = other.source

/-- Whether the same comes of a view with units shared and with units for each site: both walks fail with the same
failure, or both compile, and the renderers do the same on every model. -/
def SameView : Prop :=
  (∃ failure, walk context store memo modelType .dedupe = .error failure ∧
    walk context store memo modelType .perSite = .error failure) ∨
  ∃ shared single renderer renderer',
    walk context store memo modelType .dedupe = .ok shared ∧
    walk context store memo modelType .perSite = .ok single ∧
    shared.compile interpreter references = .ok renderer ∧
    single.compile interpreter references = .ok renderer' ∧
    ∀ sink model, (renderer.render sink model).Alike shared.units.units single.units.units (renderer'.render sink model)

end

namespace Walked

section
variable {walked : Walked} {backend : Backend} {references : List String}

theorem compile_eq_ok {resolved : ResolvedUnits} {steps : List Step}
    (compiled : walked.units.compile backend references = .ok resolved)
    (bound : Renderer.bindOps resolved walked.ops = .ok steps) :
    walked.compile backend references =
      .ok { modelType := walked.units.modelType, steps, units := resolved.size } := by
  rw [Walked.compile, compiled]
  simp only [Renderer.assemble, bound, bind, Except.bind]
  rfl

theorem compile_eq_error {error : CompileError} (failed : walked.units.compile backend references = .error error) :
    walked.compile backend references = .error error := by
  rw [Walked.compile, failed]
  rfl

end

variable {modelType : String} {references : List String} {shared single : Walked}

theorem ofExpressions_of_alike
    (alike : Alike (.empty modelType .dedupe) (.empty modelType .perSite) shared single)
    (line : '\n' ∉ modelType.toList)
    (expressions : ∀ unit ∈ single.units.units, ∃ e, IsExpression (functionsOf references) unit.source e)
    (apart : ∀ unit ∈ single.units.units, ∀ other ∈ single.units.units,
      unitName unit.kind unit.source = unitName other.kind other.source →
        unit.kind = other.kind ∧ unit.source = other.source) :
    shared.units.OfExpressions references ∧ single.units.OfExpressions references := by
  obtain ⟨calls, here, there⟩ := alike.units
  have settings := UnitTable.settings_registerAll (.empty modelType .dedupe) calls
  have settings' := UnitTable.settings_registerAll (.empty modelType .perSite) calls
  have named := (UnitTable.isNamed_empty modelType .dedupe).registerAll calls
  have named' := (UnitTable.isNamed_empty modelType .perSite).registerAll calls
  rw [← here] at settings named
  rw [← there] at settings' named'
  -- Every piece of code that is shared is one that has been registered, and so is one of the others.
  have code : ∀ unit ∈ shared.units.units, ∃ unit' ∈ single.units.units,
      unit'.kind = unit.kind ∧ unit'.source = unit.source := by
    intro unit member
    rw [there, UnitTable.mem_registerAll_iff]
    have registered : ∃ other ∈ ((UnitTable.empty modelType .dedupe).registerAll calls).units,
        other.kind = unit.kind ∧ other.source = unit.source := ⟨unit, here ▸ member, rfl, rfl⟩
    exact (UnitTable.mem_registerAll_iff (.empty modelType .dedupe) calls).mp registered
  refine ⟨⟨⟨_, _, _, here⟩, settings.1 ▸ line, ?_, ?_⟩, ⟨⟨_, _, _, there⟩, settings'.1 ▸ line, ?_, expressions⟩⟩
  · refine named.distinct_of_apart settings.2 fun unit member other member' same => ?_
    obtain ⟨unit', present, kind, source⟩ := code unit member
    obtain ⟨other', present', kind', source'⟩ := code other member'
    rw [← kind, ← source, ← kind', ← source'] at same ⊢
    exact apart unit' present other' present' same
  · intro unit member
    obtain ⟨unit', present, _, source⟩ := code unit member
    exact source ▸ expressions unit' present
  · exact named'.distinct settings'.2

theorem compile_alike {table table' : UnitTable} (alike : Alike table table' shared single)
    (ready : shared.units.OfExpressions references) (ready' : single.units.OfExpressions references)
    (known : ∀ reference ∈ references, (library? reference).isSome) :
    ∃ renderer renderer', shared.compile interpreter references = .ok renderer ∧
      single.compile interpreter references = .ok renderer' ∧
      ∀ sink model, (renderer.render sink model).Alike shared.units.units single.units.units
        (renderer'.render sink model) := by
  obtain ⟨resolved, resolved', compiled, compiled', entries⟩ := ready.compile_alike ready' known
  obtain ⟨steps, steps', bound, bound', same⟩ := Renderer.bindOps_alike entries alike.ops
  refine ⟨_, _, compile_eq_ok compiled bound, compile_eq_ok compiled' bound', fun sink model => ?_⟩
  exact Renderer.runSteps_alike sink model same ⟨rfl, .none⟩

theorem compile_of_unknown (alike : Alike (.empty modelType .dedupe) (.empty modelType .perSite) shared single)
    (ready : shared.units.OfExpressions references) (ready' : single.units.OfExpressions references)
    (unknown : ∃ reference ∈ references, library? reference = none) :
    ∃ error, shared.compile interpreter references = .error error ∧
      single.compile interpreter references = .error error := by
  obtain ⟨calls, here, there⟩ := alike.units
  have modelType : shared.units.modelType = single.units.modelType := by
    rw [here, there, (UnitTable.settings_registerAll _ calls).1, (UnitTable.settings_registerAll _ calls).1]
    rfl
  have failed := compile_eq_error (ready.compile_of_unknown unknown)
  have failed' := compile_eq_error (ready'.compile_of_unknown unknown)
  exact ⟨_, modelType ▸ failed, failed'⟩

end Walked

/-- If the type of model is one line and each piece of code is an expression of its own, sharing units is not seen in
what a view does, unless a library is unknown. -/
theorem sharing_unobservable {context : Context} {store : Store} {memo : Memo} {modelType : String}
    {references : List String} (line : '\n' ∉ modelType.toList)
    (sound : SoundCode context store memo modelType references) :
    SameView context store memo modelType references ∨
      (∃ reference ∈ references, library? reference = none) ∧ ∃ shared single error,
        walk context store memo modelType .dedupe = .ok shared ∧
        walk context store memo modelType .perSite = .ok single ∧
        shared.compile interpreter references = .error error ∧
        single.compile interpreter references = .error error := by
  obtain ⟨expressions, apart⟩ := sound
  have walks := walk_alike context store memo modelType .dedupe .perSite
  unfold SameView
  generalize walk context store memo modelType .dedupe = first, walk context store memo modelType .perSite = second
    at walks expressions apart ⊢
  cases walks with
  | error failure => exact .inl (.inl ⟨failure, rfl, rfl⟩)
  | @ok shared single alike =>
    obtain ⟨ready, ready'⟩ :=
      Walked.ofExpressions_of_alike alike line (expressions single rfl) (apart single rfl)
    -- Sound units are refused for unknown libraries alone.
    by_cases known : ∀ reference ∈ references, (library? reference).isSome
    · obtain ⟨renderer, renderer', compiled, compiled', same⟩ := Walked.compile_alike alike ready ready' known
      exact .inl (.inr ⟨shared, single, renderer, renderer', rfl, rfl, compiled, compiled', same⟩)
    · have unknown : ∃ reference ∈ references, library? reference = none := by simpa using known
      obtain ⟨error, failed, failed'⟩ := Walked.compile_of_unknown alike ready ready' unknown
      exact .inr ⟨unknown, shared, single, error, rfl, rfl, failed, failed'⟩

namespace SoundCode

variable {context : Context} {store : Store} {memo : Memo} {modelType : String} {references : List String}

def codesOf (walked : Walked) : List (ReturnKind × String) :=
  walked.units.units.map fun unit => (unit.kind, unit.source)

theorem of_codes {codes : List (ReturnKind × String)}
    (given : (walk context store memo modelType .perSite).toOption.map codesOf = some codes)
    (expressions : ∀ code ∈ codes, ∃ e, IsExpression (functionsOf references) code.2 e)
    (apart : ∀ code ∈ codes, ∀ other ∈ codes, unitName code.1 code.2 = unitName other.1 other.2 → code = other) :
    SoundCode context store memo modelType references := by
  have present {walked : Walked} (ended : walk context store memo modelType .perSite = .ok walked) {unit : CodeUnit}
      (member : unit ∈ walked.units.units) : (unit.kind, unit.source) ∈ codes := by
    rw [ended] at given
    exact Option.some.inj given ▸ List.mem_map_of_mem member
  refine ⟨fun walked ended unit member => expressions _ (present ended member), ?_⟩
  intro walked ended unit member other member' same
  exact Prod.mk.inj (apart _ (present ended member) _ (present ended member') same)

def page : Context where
  layout := none
  main := ⟨[.code "if (model.ok)" [.eval "model.title" 2] 1, .eval "model.title" 3]⟩
  folder := ⟨"views"⟩
  extension := "haml"

def codes (sharing : Sharing) : Option (List (ReturnKind × String)) :=
  (walk page Files.empty.store .empty "Page" sharing).toOption.map codesOf

theorem codes_page : codes .perSite = some [(.boolean, "model.ok"), (.text, "model.title"), (.text, "model.title")] ∧
    codes .dedupe = some [(.boolean, "model.ok"), (.text, "model.title")] := by
  decide +kernel

theorem sound_page : SoundCode page Files.empty.store .empty "Page" ["core"] := by
  have names : Batch.page.units.map CodeUnit.name = [unitName .text "model.title", unitName .boolean "model.ok"] := by
    rfl
  have differ : unitName .text "model.title" ≠ unitName .boolean "model.ok" := by
    simpa [names] using Batch.distinct_page
  refine of_codes codes_page.1 ?_ ?_
  · simp only [List.forall_mem_cons, List.not_mem_nil, false_implies, implies_true, and_true]
    exact ⟨⟨_, Batch.isExpression_ok⟩, ⟨_, Batch.isExpression_title⟩, _, Batch.isExpression_title⟩
  · simp [differ, differ.symm]

def count (sharing : Sharing) : Option Nat :=
  (walk page Files.empty.store .empty "Page" sharing).toOption.map fun walked => walked.units.units.length

theorem count_eq (sharing : Sharing) : count sharing = (codes sharing).map List.length := by
  simp [count, codes, codesOf, Function.comp_def]

theorem counts : count .dedupe = some 2 ∧ count .perSite = some 3 := by
  simp [count_eq, codes_page]

end SoundCode

open SoundCode in
theorem sharing_unobservable_page : ∃ shared single renderer renderer',
    walk page Files.empty.store .empty "Page" .dedupe = .ok shared ∧ shared.units.units.length = 2 ∧
    walk page Files.empty.store .empty "Page" .perSite = .ok single ∧ single.units.units.length = 3 ∧
    shared.compile interpreter ["core"] = .ok renderer ∧ single.compile interpreter ["core"] = .ok renderer' ∧
    ∀ sink model,
      (renderer.render sink model).Alike shared.units.units single.units.units (renderer'.render sink model) := by
  obtain ⟨count, count'⟩ := counts
  unfold SoundCode.count at count count'
  rcases sharing_unobservable Batch.line_page sound_page with (⟨failure, failed, _⟩ | same) | ⟨unknown, _⟩
  · rw [failed] at count
    cases count
  · obtain ⟨shared, single, renderer, renderer', ended, ended', compiled, compiled', alike⟩ := same
    rw [ended] at count
    rw [ended'] at count'
    exact ⟨shared, single, renderer, renderer', ended, Option.some.inj count, ended', Option.some.inj count',
      compiled, compiled', alike⟩
  · exact absurd unknown (by decide)

namespace SameView

def number : Context where
  layout := none
  main := ⟨[.eval "1" 1]⟩
  folder := ⟨"views"⟩
  extension := "haml"

def table (modelType : String) (sharing : Sharing) : UnitTable :=
  (UnitTable.empty modelType sharing).registerAll [("1", .text, 1)]

theorem walk_number (modelType : String) (sharing : Sharing) :
    walk number Files.empty.store .empty modelType sharing =
      .ok { ops := [.expression 0], units := table modelType sharing, memo := .empty } := by
  cases sharing <;> rfl

theorem units_table (modelType : String) (sharing : Sharing) : (table modelType sharing).units =
    [{ name := (UnitTable.empty modelType sharing).nameFor .text "1", source := "1", kind := .text, line := 1 }] := by
  cases sharing <;> rfl

theorem sound_number (modelType : String) (references : List String) :
    SoundCode number Files.empty.store .empty modelType references := by
  have codes : (walk number Files.empty.store .empty modelType .perSite).toOption.map SoundCode.codesOf =
      some [(.text, "1")] := by
    rw [walk_number, Except.toOption, Option.map_some, SoundCode.codesOf, units_table]
    rfl
  refine .of_codes codes ?_ ?_
  · simpa using Batch.isExpression_one (functionsOf references)
  · simp

/-- No view is the same under both policies if the interpreter refuses the program with shared units. -/
theorem not_of_refused {modelType : String} {references : List String}
    (refused : ∀ library, interpreter ((table modelType .dedupe).request references) ≠ .ok library) :
    ¬ SameView number Files.empty.store .empty modelType references := by
  rintro (⟨failure, failed, _⟩ | ⟨shared, _, renderer, _, ended, _, compiled, _⟩)
  · rw [walk_number] at failed
    cases failed
  · rw [walk_number] at ended
    cases ended
    obtain ⟨resolved, compiled, _⟩ := bind_eq_ok_iff.mp compiled
    obtain ⟨library, answered, _⟩ := UnitTable.compile_eq_ok_iff.mp compiled
    exact refused library answered

/-- A type of model with line feeds, which declare a function of the name that the number has as a shared unit. -/
def declaring : String := "Page\n\nfn _f9a780f5(model) -> text \x7b\n    2\n\x7d"

/-- The units that a program shows for which the type of model is `declaring`. -/
def shown (sharing : Sharing) : UnitTable where
  modelType := "Page"
  sharing := sharing
  units := Batch.digit (unitName .text "1") "2" :: (table declaring sharing).units

theorem text_declaring (sharing : Sharing) : (table declaring sharing).programText = (shown sharing).programText := by
  cases sharing <;> decide +kernel

theorem surveyFor_declaring (sharing : Sharing) :
    (tokenize ((table declaring sharing).request ["core"]).source).2 = [] ∧ ∃ declarations headers,
      List.Forall₂ (Declares (functionsOf ["core"])) (shown sharing).units declarations ∧
      surveyFor ((table declaring sharing).request ["core"]) = { declarations, findings := [], headers } := by
  have source : ((table declaring sharing).request ["core"]).source = ((shown sharing).request ["core"]).source :=
    text_declaring sharing
  have survey : surveyFor ((table declaring sharing).request ["core"]) =
      surveyFor ((shown sharing).request ["core"]) := by
    rw [surveyFor, source]
    rfl
  have named : ∀ unit ∈ (table declaring sharing).units, IsUnitName unit.name :=
    UnitTable.isUnitName_registerAll declaring sharing _
  rw [survey, source]
  refine surveyFor_of_isExpression (List.forall_mem_cons.mpr ⟨isUnitName_unitName _ _, named⟩) Batch.line_page ?_
  rw [shown, units_table]
  exact List.forall_mem_cons.mpr ⟨Batch.isExpression_two _, List.forall_mem_singleton.mpr (Batch.isExpression_one _)⟩

theorem refused_declaring : ∀ library, interpreter ((table declaring .dedupe).request ["core"]) ≠ .ok library := by
  intro library answered
  obtain ⟨_, declarations, _, declares, all⟩ := surveyFor_declaring .dedupe
  have distinct := (interpreter_eq_ok_iff.mp answered).2.2.2.1
  rw [all, names_of_declares declares] at distinct
  -- Without handles in them, both names are the checksum of the same code.
  simp [shown, units_table, Batch.digit, UnitTable.nameFor, UnitTable.empty] at distinct

theorem exists_compile_declaring :
    ∃ resolved, (table declaring .perSite).compile interpreter ["core"] = .ok resolved := by
  obtain ⟨errors, declarations, _, declares, all⟩ := surveyFor_declaring .perSite
  have distinct : ((shown .perSite).units.map CodeUnit.name).Nodup := by
    -- The name of the unit has its handle behind the checksum, and is longer.
    have longer : unitName .text "1" ≠ unitName .text "1" ++ "_" ++ Nat.repr 0 := by
      intro same
      have lengths := congrArg String.length same
      rw [String.length_append, String.length_append, show "_".length = 1 from rfl] at lengths
      omega
    simpa [shown, units_table, Batch.digit, UnitTable.nameFor, UnitTable.empty] using longer
  have answered : interpreter ((table declaring .perSite).request ["core"]) = .ok (libraryOf declarations) := by
    rw [interpreter_eq_ok_iff, all, names_of_declares declares]
    exact ⟨by decide, rfl, errors, distinct, rfl⟩
  exact compile_of_declares answered declares distinct
    fun unit member => ⟨unit, List.mem_cons_of_mem _ member, rfl, rfl⟩

end SameView

open SameView in
/-- A view compiles under neither policy with a library that is not known, and only without sharing if the type of
model brings in a function with the name of a shared unit. -/
theorem sharing_observable :
    (SoundCode number Files.empty.store .empty "Page" ["nope"] ∧
      ¬ SameView number Files.empty.store .empty "Page" ["nope"]) ∧
    SoundCode number Files.empty.store .empty declaring ["core"] ∧
      ¬ SameView number Files.empty.store .empty declaring ["core"] ∧
      ∃ single renderer, walk number Files.empty.store .empty declaring .perSite = .ok single ∧
        single.compile interpreter ["core"] = .ok renderer := by
  have unknown : ∀ library, interpreter ((table "Page" .dedupe).request ["nope"]) ≠ .ok library := by
    intro library answered
    exact absurd ((interpreter_eq_ok_iff.mp answered).1 "nope" (List.mem_singleton_self _)) (by decide)
  obtain ⟨resolved, compiled⟩ := exists_compile_declaring
  have fits : OpsFit (table declaring .perSite).units [.expression 0] := by
    simp [OpsFit, Op.Fits, HasKind, units_table]
  obtain ⟨renderer, assembled⟩ := Renderer.exists_assemble (UnitTable.covers_of_compile compiled) fits
    (table declaring .perSite).modelType
  refine ⟨⟨sound_number _ _, not_of_refused unknown⟩, sound_number _ _, not_of_refused refused_declaring,
    _, renderer, walk_number declaring .perSite, ?_⟩
  rw [Walked.compile, compiled]
  exact assembled

end Stencil
