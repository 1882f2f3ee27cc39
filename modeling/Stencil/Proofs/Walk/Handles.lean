import Stencil.Proofs.Backend
import Stencil.Proofs.Recital.Walk
import Stencil.Renderer.Basic

/-! The handles in the ops of a walk.

An op prints a unit of text or chooses by a boolean one, and the unit is there. Such ops can always be bound to
the entry points that a batch compile has found.
-/

set_option autoImplicit false

namespace Stencil

def HasKind (units : List CodeUnit) (handle : Nat) (kind : ReturnKind) : Prop :=
  ∃ unit, units[handle]? = some unit ∧ unit.kind = kind

section
variable (units : List CodeUnit)

mutual

/-- Whether every handle in an op is that of a unit of the kind that the op needs. -/
def Op.Fits : Op → Prop
  | .text _ => True
  | .expression unit => HasKind units unit .text
  | .conditional condition body otherwise =>
    HasKind units condition .boolean ∧ OpsFit body ∧ OtherwiseFits otherwise

def OtherwiseFits : Option (List Op) → Prop
  | some branch => OpsFit branch
  | none => True

def OpsFit : List Op → Prop
  | [] => True
  | op :: rest => op.Fits ∧ OpsFit rest

end

end

section
variable {units later : List CodeUnit}

theorem HasKind.mono (grown : units <+: later) {handle : Nat} {kind : ReturnKind}
    (known : HasKind units handle kind) : HasKind later handle kind := by
  obtain ⟨unit, found, same⟩ := known
  exact ⟨unit, UnitTable.getElem?_of_prefix grown found, same⟩

theorem opsFit_append {first rest : List Op} :
    OpsFit units (first ++ rest) ↔ OpsFit units first ∧ OpsFit units rest := by
  induction first with
  | nil => simp [OpsFit]
  | cons op first ih => simp only [List.cons_append, OpsFit, ih, and_assoc]

theorem opsFit_concat {ops : List Op} {op : Op} :
    OpsFit units (ops ++ [op]) ↔ OpsFit units ops ∧ op.Fits units := by
  rw [opsFit_append, OpsFit, OpsFit, and_true]

mutual

theorem Op.Fits.mono (grown : units <+: later) : ∀ {op : Op}, op.Fits units → op.Fits later
  | .text _, _ => by simp only [Op.Fits]
  | .expression unit, fits => by
    simp only [Op.Fits] at *
    exact fits.mono grown
  | .conditional condition body otherwise, fits => by
    simp only [Op.Fits] at *
    exact ⟨fits.1.mono grown, OpsFit.mono grown fits.2.1, OtherwiseFits.mono grown fits.2.2⟩

theorem OtherwiseFits.mono (grown : units <+: later) :
    ∀ {otherwise : Option (List Op)}, OtherwiseFits units otherwise → OtherwiseFits later otherwise
  | some branch, fits => by
    simp only [OtherwiseFits] at *
    exact OpsFit.mono grown fits
  | none, _ => by simp only [OtherwiseFits]

theorem OpsFit.mono (grown : units <+: later) : ∀ {ops : List Op}, OpsFit units ops → OpsFit later ops
  | [], _ => by simp only [OpsFit]
  | op :: rest, fits => by
    simp only [OpsFit] at *
    exact ⟨fits.1.mono grown, OpsFit.mono grown fits.2⟩

end

end

namespace Builder

variable {units : List CodeUnit} {b : Builder}

theorem opsFit_flush (fits : OpsFit units b.current) : OpsFit units b.flush.current := by
  by_cases nothing : b.run = ""
  · simpa [flush, nothing] using fits
  · simp only [flush, nothing, if_false, opsFit_concat]
    exact ⟨fits, by simp only [Op.Fits]⟩

theorem opsFit_emit (fits : OpsFit units b.current) {op : Op} (new : op.Fits units) :
    OpsFit units (b.emit op).current :=
  opsFit_concat.mpr ⟨opsFit_flush fits, new⟩

theorem opsFit_attachElse (fits : OpsFit units b.current) {branch : List Op} (new : OpsFit units branch)
    {attached : Builder} (h : b.attachElse? branch = some attached) : OpsFit units attached.current := by
  unfold attachElse? at h
  split at h
  · obtain ⟨ops, last, rfl⟩ := Option.map_eq_some_iff.1 h
    unfold attachToLast? at last
    split at last
    · rename_i condition body found
      cases last
      obtain ⟨earlier, same⟩ := List.getLast?_eq_some_iff.1 found
      simp only [same, List.dropLast_concat, opsFit_concat, Op.Fits] at fits ⊢
      exact ⟨fits.1, fits.2.1, fits.2.2.1, by simpa only [OtherwiseFits] using new⟩
    · cases last
  · cases h

theorem exists_attachElse (open_ : b.canAttachElse = true) (branch : List Op) :
    ∃ attached, b.flush.attachElse? branch = some attached := by
  -- There is no text behind the conditional, so that opening the branch has added nothing.
  have silent : b.flush = b := by
    simp only [canAttachElse, Bool.and_eq_true, decide_eq_true_eq] at open_
    simp only [flush, open_.1, if_true]
  rw [silent, ← Option.isSome_iff_exists, attachElse?_isSome, open_]

end Builder

/-- Whether units have entry points of their kinds at their handles. -/
def ResolvedUnits.Covers (resolved : ResolvedUnits) (units : List CodeUnit) : Prop :=
  ∀ handle kind, HasKind units handle kind → ∃ entry, resolved.get? handle = some entry ∧ entry.kind = kind

theorem UnitTable.covers_of_compile {table : UnitTable} {backend : Backend} {references : List String}
    {resolved : ResolvedUnits} (compiled : table.compile backend references = .ok resolved) :
    resolved.Covers table.units := by
  obtain ⟨library, _, good, _, entries⟩ := compile_eq_ok_iff.mp compiled
  rintro handle kind ⟨unit, found, rfl⟩
  obtain ⟨entry, answer⟩ := good unit (List.mem_of_getElem? found)
  refine ⟨entry, ?_, (CodeUnit.resolve_eq_ok_iff.mp answer).2⟩
  simp only [ResolvedUnits.get?_eq good entries, found, Option.bind_some, answer, Except.toOption]

namespace Renderer

variable {units : List CodeUnit} {resolved : ResolvedUnits}

mutual

theorem exists_bindOp (covers : resolved.Covers units) :
    ∀ {op : Op}, op.Fits units → ∃ step, bindOp resolved op = .ok step
  | .text content, _ => ⟨_, rfl⟩
  | .expression unit, fits => by
    simp only [Op.Fits] at fits
    obtain ⟨entry, found, kind⟩ := covers unit .text fits
    cases entry with
    | text call =>
      simp only [bindOp, found]
      exact ⟨_, rfl⟩
    | boolean call => cases kind
  | .conditional condition body otherwise, fits => by
    simp only [Op.Fits] at fits
    obtain ⟨entry, found, kind⟩ := covers condition .boolean fits.1
    obtain ⟨steps, bound⟩ := exists_bindOps covers fits.2.1
    obtain ⟨others, bound'⟩ := exists_bindOtherwise covers fits.2.2
    cases entry with
    | text call => cases kind
    | boolean call =>
      simp only [bindOp, found, bound, bound', bind, Except.bind]
      exact ⟨_, rfl⟩

theorem exists_bindOtherwise (covers : resolved.Covers units) :
    ∀ {otherwise : Option (List Op)}, OtherwiseFits units otherwise →
      ∃ steps, bindOtherwise resolved otherwise = .ok steps
  | some branch, fits => by
    simp only [OtherwiseFits] at fits
    obtain ⟨steps, bound⟩ := exists_bindOps covers fits
    exact ⟨steps, by simp only [bindOtherwise, bound]⟩
  | none, _ => ⟨[], by simp only [bindOtherwise]⟩

theorem exists_bindOps (covers : resolved.Covers units) :
    ∀ {ops : List Op}, OpsFit units ops → ∃ steps, bindOps resolved ops = .ok steps
  | [], _ => ⟨[], by simp only [bindOps]⟩
  | op :: rest, fits => by
    simp only [OpsFit] at fits
    obtain ⟨step, bound⟩ := exists_bindOp covers fits.1
    obtain ⟨steps, bound'⟩ := exists_bindOps covers fits.2
    simp only [bindOps, bound, bound', bind, Except.bind]
    exact ⟨_, rfl⟩

end

theorem exists_assemble (covers : resolved.Covers units) {ops : List Op} (fits : OpsFit units ops)
    (modelType : String) : ∃ renderer, assemble modelType ops resolved = .ok renderer := by
  obtain ⟨steps, bound⟩ := exists_bindOps covers fits
  simp only [assemble, bound, bind, Except.bind]
  exact ⟨_, rfl⟩

end Renderer

end Stencil
