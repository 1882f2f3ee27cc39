import Stencil.Proofs.Script
import Stencil.Proofs.Walk.Handles
import Stencil.View.Compile

/-! The internal errors of a compile never come up.

A walk closes every scope that it opens, a second branch finds its conditional again, and all handles fit the
units. So neither the builder nor the binding of entry points has anything to complain about.
-/

set_option autoImplicit false

namespace Stencil

/-- The errors that only a fault of the compiler itself could bring about. -/
def CompileError.isInternal : CompileError → Bool
  | .stackMisaligned _ | .aborted _ => true
  | _ => false

theorem CompileError.not_internal_of_isOfFiles {error : CompileError} (ofFiles : error.isOfFiles) :
    ¬ error.isInternal := by
  cases error <;> simp [isOfFiles, isInternal] at ofFiles ⊢

/-! ### The scripts of trees -/

mutual

def Instruction.Candid : Instruction → Prop
  | .write _ | .print _ _ | .pull _ => True
  | .choose _ _ body | .otherwise _ body => AllCandid body
  | .fail error => ¬ error.isInternal

def AllCandid : List Instruction → Prop
  | [] => True
  | instruction :: rest => instruction.Candid ∧ AllCandid rest

end

mutual

theorem Instruction.candid_iff : ∀ instruction : Instruction,
    instruction.Candid ↔ ∀ error ∈ instruction.failures, ¬ error.isInternal
  | .write _ | .print _ _ | .pull _ | .fail _ => by simp [Instruction.Candid, Instruction.failures]
  | .choose _ _ body | .otherwise _ body => by
    simpa only [Instruction.Candid, Instruction.failures] using allCandid_iff body

theorem allCandid_iff : ∀ instructions : List Instruction,
    AllCandid instructions ↔ ∀ error ∈ failuresOf instructions, ¬ error.isInternal
  | [] => by simp [AllCandid, failuresOf]
  | instruction :: rest => by
    rw [AllCandid, failuresOf, List.forall_mem_append, instruction.candid_iff, allCandid_iff rest]

end

theorem Script.candid_ofNodes (nodes : List Template.Node) : AllCandid (ofNodes nodes) :=
  (allCandid_iff _).mpr fun error member =>
    CompileError.not_internal_of_isOfFiles (isOfFiles_ofNodes nodes error member)

/-! ### Walks -/

namespace WalkState

def Fits (s : WalkState) : Prop := OpsFit s.units.units s.builder.current

structure Keeps (s s' : WalkState) : Prop where
  outer : s'.builder.outer = s.builder.outer
  units : s.units.units <+: s'.units.units
  fits : s.Fits → s'.Fits

/-- How a walk from `s` may end: in a state that keeps to `s`, or with a failure that is not internal. -/
def MayEnd (s : WalkState) : WalkResult → Prop
  | .ok s' => s.Keeps s'
  | .error failure => ¬ failure.error.isInternal

namespace Keeps

variable {s t u : WalkState}

theorem refl (s : WalkState) : s.Keeps s := ⟨rfl, List.prefix_rfl, id⟩

theorem trans (h : s.Keeps t) (h' : t.Keeps u) : s.Keeps u :=
  ⟨h'.outer.trans h.outer, h.units.trans h'.units, h'.fits ∘ h.fits⟩

end Keeps

theorem MayEnd.of_keeps {s t : WalkState} (first : s.Keeps t) {r : WalkResult} (ends : t.MayEnd r) :
    s.MayEnd r := by
  cases r with
  | ok u => exact first.trans ends
  | error failure => exact ends

variable {s inner : WalkState}

theorem keeps_write (s : WalkState) (text : String) : s.Keeps (s.write text) :=
  ⟨rfl, List.prefix_rfl, id⟩

theorem hasKind_register (table : UnitTable) (source : String) (kind : ReturnKind) (line : Nat) :
    HasKind (table.register source kind line).2.units (table.register source kind line).1 kind := by
  obtain ⟨unit, found, same, _⟩ := table.register_getElem? source kind line
  exact ⟨unit, found, same⟩

theorem keeps_print (s : WalkState) (source : String) (line : Nat) : s.Keeps (s.print source line) := by
  have grown := s.units.units_prefix_register source .text line
  refine ⟨?_, grown, fun fits => ?_⟩
  · simp [print, Builder.expression, Builder.emit]
  · have new : (Op.expression (s.units.register source .text line).1).Fits
        (s.units.register source .text line).2.units := by
      simpa only [Op.Fits] using hasKind_register s.units source .text line
    exact Builder.opsFit_emit (OpsFit.mono grown fits) new

theorem fits_pushScope (s : WalkState) : s.pushScope.Fits := by
  simp [Fits, pushScope, Builder.pushScope, OpsFit]

theorem popScope_eq (outer : inner.builder.outer = s.pushScope.builder.outer) :
    inner.popScope = .ok (inner.builder.flush.current, { inner with builder := s.builder.flush }) := by
  have popped := Builder.popScope_of_outer outer
  simp only [popScope, popped]

theorem mayEnd_endChoice {source : String} {line : Nat}
    (body : (s.condition source line).2.pushScope.Keeps inner) :
    s.MayEnd (inner.endChoice (s.condition source line).1) := by
  have grown := s.units.units_prefix_register source .boolean line
  have within := Builder.opsFit_flush (body.fits (fits_pushScope _))
  simp only [endChoice, popScope_eq body.outer, bind, Except.bind]
  refine ⟨?_, grown.trans body.units, fun fits => ?_⟩
  · simp [condition, Builder.conditional, Builder.emit]
  · -- The ops in front of the choice, and then the choice itself.
    have before := OpsFit.mono (grown.trans body.units) fits
    refine Builder.opsFit_emit (Builder.opsFit_flush before) ?_
    simp only [Op.Fits, OtherwiseFits, and_true]
    exact ⟨(hasKind_register s.units source .boolean line).mono body.units, within⟩

/-- The second branch of a choice always finds its place. -/
theorem exists_endOtherwise (open_ : s.builder.canAttachElse = true) (body : s.pushScope.Keeps inner)
    (line : Nat) : ∃ after, inner.endOtherwise line = .ok after ∧ s.Keeps after := by
  obtain ⟨attached, found⟩ := Builder.exists_attachElse open_ inner.builder.flush.current
  have within := Builder.opsFit_flush (body.fits (fits_pushScope s))
  refine ⟨{ inner with builder := attached }, ?_, ?_, body.units, fun fits => ?_⟩
  · simp only [endOtherwise, popScope_eq body.outer, bind, Except.bind, found]
    rfl
  · exact (Builder.attachElse_outer found).trans (Builder.flush_outer s.builder)
  · have before := OpsFit.mono body.units fits
    exact Builder.opsFit_attachElse (Builder.opsFit_flush before) within found

end WalkState

namespace Walk

open WalkState (MayEnd Keeps)

mutual

/-- Carrying out an instruction ends well or with a failure of the template, if entering a tree does. -/
theorem run_mayEnd {enter : Target → WalkState → WalkResult}
    (law : ∀ (target : Target) (s : WalkState), s.MayEnd (enter target s)) :
    ∀ {instruction : Instruction}, instruction.Candid → ∀ s : WalkState, s.MayEnd (run enter instruction s)
  | .write text, _, s => WalkState.keeps_write s text
  | .print source line, _, s => WalkState.keeps_print s source line
  | .choose source line body, candid, s => by
    simp only [Instruction.Candid] at candid
    have inside := runAll_mayEnd law candid (s.condition source line).2.pushScope
    -- A body that ends well keeps the scope that was opened for it, so that the choice can be closed.
    simp only [run, bind, Except.bind]
    cases walked : runAll enter body (s.condition source line).2.pushScope with
    | error failure =>
      rw [walked] at inside
      exact inside
    | ok inner =>
      rw [walked] at inside
      exact WalkState.mayEnd_endChoice inside
  | .otherwise line body, candid, s => by
    simp only [Instruction.Candid] at candid
    by_cases open_ : s.builder.canAttachElse = true
    · have inside := runAll_mayEnd law candid s.pushScope
      simp only [run, open_, if_true, bind, Except.bind]
      cases walked : runAll enter body s.pushScope with
      | error failure =>
        rw [walked] at inside
        exact inside
      | ok inner =>
        rw [walked] at inside
        obtain ⟨after, same, keeps⟩ := WalkState.exists_endOtherwise open_ inside line
        simp only [same]
        exact keeps
    · simp only [run, open_, Bool.false_eq_true, if_false]
      simp [MayEnd, WalkState.fail, CompileError.isInternal]
  | .pull target, _, s => law target s
  | .fail error, candid, s => by simpa only [Instruction.Candid, run, MayEnd, WalkState.fail] using candid

theorem runAll_mayEnd {enter : Target → WalkState → WalkResult}
    (law : ∀ (target : Target) (s : WalkState), s.MayEnd (enter target s)) :
    ∀ {instructions : List Instruction}, AllCandid instructions →
      ∀ s : WalkState, s.MayEnd (runAll enter instructions s)
  | [], _, s => Keeps.refl s
  | instruction :: rest, candid, s => by
    simp only [AllCandid] at candid
    have first := run_mayEnd law candid.1 s
    simp only [runAll, bind, Except.bind]
    cases walked : run enter instruction s with
    | error failure =>
      rw [walked] at first
      exact first
    | ok next =>
      rw [walked] at first
      exact (runAll_mayEnd law candid.2 next).of_keeps first

end

section
variable (context : Context) (store : Store)

theorem locate_mayEnd (target : Target) (s : WalkState) :
    s.MayEnd ((locate context store target s).map fun found => found.2.2.2) := by
  cases target with
  | main => exact Keeps.refl s
  | named name =>
    simp only [locate]
    cases resolved : context.resolve store s.memo name with
    | error error => exact CompileError.not_internal_of_isOfFiles (Context.isOfFiles_of_resolve resolved)
    | ok answer => exact ⟨rfl, List.prefix_rfl, id⟩

theorem enter_mayEnd (depth : Nat) : ∀ (opened : List Frame) (target : Target) (s : WalkState),
    s.MayEnd (enter context store depth opened target s) := by
  -- By the trees that may still be opened; where none may, entering one fails for a template.
  induction depth with
  | zero =>
    intro opened target s
    have first := locate_mayEnd context store target s
    simp only [enter, bind, Except.bind]
    cases located : locate context store target s with
    | error failure =>
      rw [located] at first
      exact first
    | ok tree => simp [MayEnd, WalkState.fail, CompileError.isInternal]
  | succ depth ih =>
    intro opened target s
    have first := locate_mayEnd context store target s
    simp only [enter, bind, Except.bind]
    cases located : locate context store target s with
    | error failure =>
      rw [located] at first
      exact first
    | ok tree =>
      rw [located] at first
      dsimp only
      split
      · simp [MayEnd, WalkState.fail, CompileError.isInternal]
      · exact (runAll_mayEnd (ih _) (Script.candid_ofNodes _) _).of_keeps first

end

end Walk

section
variable {context : Context} {store : Store} {memo : Memo} {modelType : String} {sharing : Sharing}

theorem walk_fits :
    match walk context store memo modelType sharing with
    | .ok walked => OpsFit walked.units.units walked.ops
    | .error failure => ¬ failure.error.isInternal := by
  have ends := Walk.runAll_mayEnd
    (Walk.enter_mayEnd context store (Walk.depthBound context store memo) (Walk.openedAtStart context))
    (Script.candid_ofNodes context.root.children) (.start modelType sharing memo)
  simp only [walk, Script.ofDocument, bind, Except.bind]
  cases ran : Walk.runAll
      (Walk.enter context store (Walk.depthBound context store memo) (Walk.openedAtStart context))
      (Script.ofNodes context.root.children) (.start modelType sharing memo) with
  | error failure =>
    rw [ran] at ends
    exact ends
  | ok s =>
    rw [ran] at ends
    have outer : s.builder.flush.outer = [] := (Builder.flush_outer _).trans ends.outer
    have fits : s.Fits := ends.fits (by simp [WalkState.Fits, WalkState.start, Builder.empty, OpsFit])
    simp only [WalkState.finish, Builder.finish?, outer]
    exact Builder.opsFit_flush fits

end

theorem UnitTable.compile_not_internal {table : UnitTable} {backend : Backend} {references : List String}
    {error : CompileError} (h : table.compile backend references = .error error) : ¬ error.isInternal := by
  unfold compile at h
  split at h
  · cases h
    simp [failure, CompileError.isInternal]
  · dsimp only at h
    split at h
    · cases h
    · cases h
      simp [failure, CompileError.isInternal]

/-- No view fails to compile for scopes that do not match or for units without fitting entry points: walks keep scopes
in balance, and ops refer to units of the kinds that they need. -/
theorem compileView_not_internal (context : Context) (store : Store) (backend : Backend) (options : Options)
    (modelType : String) (memo : Memo) :
    ((∀ depth, (compileView context store backend options modelType memo).1 ≠ .error (.stackMisaligned depth)) ∧
      ∀ cause, (compileView context store backend options modelType memo).1 ≠ .error (.aborted cause)) ∧
    (∀ walked, walk context store memo modelType options.sharing = .ok walked →
      OpsFit walked.units.units walked.ops ∧
      ∀ resolved, walked.units.compile backend options.references = .ok resolved →
        ∃ renderer, Renderer.assemble modelType walked.ops resolved = .ok renderer) ∧
    ∀ (depth : Nat) (opened : List Frame) (nodes : List Template.Node) (s inner : WalkState),
      (Walk.runAll (Walk.enter context store depth opened) (Script.ofNodes nodes) s = .ok inner →
        inner.builder.outer = s.builder.outer) ∧
      (s.builder.canAttachElse = true →
        Walk.runAll (Walk.enter context store depth opened) (Script.ofNodes nodes) s.pushScope = .ok inner →
        ∀ line, ∃ after, inner.endOtherwise line = .ok after) := by
  have walks := @walk_fits context store memo modelType options.sharing
  -- A compile fails in the walk or in the batch, for its ops are bound to the units of a batch that compiles.
  have external : ∀ error, (compileView context store backend options modelType memo).1 = .error error →
      ¬ error.isInternal := by
    intro error failed
    unfold compileView at failed
    cases walked : walk context store memo modelType options.sharing with
    | error failure =>
      rw [walked] at walks failed
      cases failed
      exact walks
    | ok view =>
      rw [walked] at walks failed
      simp only [Walked.compile, bind, Except.bind] at failed
      cases compiled : view.units.compile backend options.references with
      | error cause =>
        simp only [compiled, Except.error.injEq] at failed
        exact failed ▸ UnitTable.compile_not_internal compiled
      | ok resolved =>
        obtain ⟨renderer, bound⟩ := Renderer.exists_assemble (UnitTable.covers_of_compile compiled) walks
          view.units.modelType
        simp [compiled, bound] at failed
  refine ⟨⟨?_, ?_⟩, ?_, ?_⟩
  · intro depth failed
    exact external _ failed rfl
  · intro cause failed
    exact external _ failed rfl
  · intro walked ended
    rw [ended] at walks
    refine ⟨walks, fun resolved compiled => ?_⟩
    exact Renderer.exists_assemble (UnitTable.covers_of_compile compiled) walks modelType
  · intro depth opened nodes s inner
    have ends := Walk.runAll_mayEnd (Walk.enter_mayEnd context store depth opened)
      (Script.candid_ofNodes nodes)
    refine ⟨fun ran => ?_, fun open_ ran line => ?_⟩
    · have ends := ends s
      rw [ran] at ends
      exact ends.outer
    · have ends := ends s.pushScope
      rw [ran] at ends
      obtain ⟨after, attached, _⟩ := WalkState.exists_endOtherwise open_ ends line
      exact ⟨after, attached⟩

end Stencil
