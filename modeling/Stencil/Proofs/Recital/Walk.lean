import Stencil.Proofs.Composition
import Stencil.Proofs.Recital.Ops
import Stencil.Proofs.Units
import Stencil.Proofs.Walk.Steps

/-! What a walk has written says what the trees say.

The ops of a walk refer to units and to trees that are known only at its end. So a state speaks in the light of
a later one: units and documents, once there, stay as they are.
-/

set_option autoImplicit false

namespace Stencil

open Json (Value)
open Recital (tellAll ofNodes ofTarget)

namespace WalkState

structure Later (store : Store) (s t : WalkState) : Prop where
  units : s.units.units <+: t.units.units
  memo : s.memo.documents <+: t.memo.documents
  grown : s.memo.GrownFrom store t.memo

namespace Later

variable {store : Store} {s t u : WalkState}

theorem refl (store : Store) (s : WalkState) : Later store s s :=
  ⟨List.prefix_rfl, List.prefix_rfl, .refl _ _⟩

theorem trans (h : Later store s t) (h' : Later store t u) : Later store s u :=
  ⟨h.units.trans h'.units, h.memo.trans h'.memo, h.grown.trans h'.grown⟩

theorem ofBuilder (store : Store) (s : WalkState) (builder : Builder) :
    Later store s { s with builder } :=
  ⟨List.prefix_rfl, List.prefix_rfl, .refl _ _⟩

theorem ofRegister (store : Store) (s : WalkState) (builder : Builder) (source : String) (kind : ReturnKind)
    (line : Nat) : Later store s { s with units := (s.units.register source kind line).2, builder } :=
  ⟨s.units.units_prefix_register source kind line, List.prefix_rfl, .refl _ _⟩

end Later

/-- A walk from `s` to `s'` leaves the scopes around as they are and writes what `say` says, the units and
documents being those of any later state. -/
structure Speaks (store : Store) (m : Meaning) (model : Value) (say : WalkState → Recital → Recited)
    (s s' : WalkState) : Prop where
  later : Later store s s'
  outer : s'.builder.outer = s.builder.outer
  said : ∀ t, Later store s' t → ∀ r,
    s'.builder.said m model t.units.units r = (s.builder.said m model t.units.units r).bind (say t)

section
variable {store : Store} {m : Meaning} {model : Value}

theorem speaks_write (s : WalkState) (text : String) :
    Speaks store m model (fun _ r => .ok (r.write text)) s (s.write text) := by
  refine ⟨.ofBuilder store s _, rfl, fun t _ r => ?_⟩
  rw [write, Builder.said_write]
  cases s.builder.said m model t.units.units r <;> rfl

theorem getElem?_of_register {s t : WalkState} {builder : Builder} {source : String} {kind : ReturnKind}
    {line : Nat} (h : Later store { s with units := (s.units.register source kind line).2, builder } t) :
    ∃ unit, t.units.units[(s.units.register source kind line).1]? = some unit ∧
      unit.source = Text.trimText source := by
  obtain ⟨unit, found, _, same⟩ := s.units.register_getElem? source kind line
  exact ⟨unit, UnitTable.getElem?_of_prefix h.units found, same⟩

theorem speaks_print (s : WalkState) (source : String) (line : Nat) :
    Speaks store m model (fun _ r => r.print m model (Text.trimText source)) s (s.print source line) := by
  refine ⟨.ofRegister store s _ source .text line, ?_, fun t later r => ?_⟩
  · simp [print, Builder.expression, Builder.emit]
  · obtain ⟨unit, found, same⟩ := getElem?_of_register later
    simp only [print, Builder.expression, Builder.said_emit]
    congr 1
    funext r
    simp only [Recital.sayOp, found, same]

theorem popScope_ok {s inner : WalkState} {builder : Builder} {ops : List Op}
    (outer : inner.builder.outer = s.pushScope.builder.outer) (popped : inner.builder.popScope = (builder, some ops)) :
    builder = s.builder.flush ∧ ops = inner.builder.flush.current := by
  have same := popped.symm.trans (Builder.popScope_of_outer outer)
  simpa only [Prod.mk.injEq, Option.some.injEq] using same

variable {say : WalkState → Recital → Recited}

theorem sayOps_of_scope {s inner : WalkState} (body : Speaks store m model say s.pushScope inner) (t : WalkState)
    (later : Later store inner t) (r : Recital) :
    Recital.sayOps m model t.units.units inner.builder.flush.current r = say t r := by
  rw [Builder.sayOps_flush, body.said t later r, pushScope, Builder.said_pushScope]
  rfl

theorem speaks_choice {s inner after : WalkState} {source : String} {line : Nat}
    (body : Speaks store m model say (s.condition source line).2.pushScope inner)
    (h : inner.endChoice (s.condition source line).1 = .ok after) :
    Speaks store m model (fun t r => r.choose m model (Text.trimText source) fun r => say t r) s after := by
  have opened : Later store s inner := (Later.ofRegister store s s.builder.pushScope source .boolean line).trans body.later
  obtain ⟨builder, ops, popped, rfl⟩ := endChoice_eq_ok_iff.mp h
  obtain ⟨rfl, rfl⟩ := popScope_ok body.outer popped
  refine ⟨opened.trans (.ofBuilder store inner _), ?_, fun t later r => ?_⟩
  · simp [condition, Builder.conditional, Builder.emit]
  · have later : Later store inner t := (Later.ofBuilder store inner _).trans later
    obtain ⟨unit, found, same⟩ := getElem?_of_register (body.later.trans later)
    simp only [condition, Builder.conditional, Builder.said_emit, Builder.said_flush]
    congr 1
    funext r
    simp only [Recital.sayOp, found, same, Recital.sayOtherwise, sayOps_of_scope body t later, bind, Except.bind]
    cases r.choose m model (Text.trimText source) fun r => say t r <;> rfl

theorem speaks_otherwise {s inner after : WalkState} {line : Nat}
    (body : Speaks store m model say s.pushScope inner) (h : inner.endOtherwise line = .ok after) :
    Speaks store m model (fun t r => r.otherwise fun r => say t r) s after := by
  have opened : Later store s inner := (Later.ofBuilder store s _).trans body.later
  obtain ⟨builder, ops, attached, popped, attach, rfl⟩ := endOtherwise_eq_ok_iff.mp h
  obtain ⟨rfl, rfl⟩ := popScope_ok body.outer popped
  refine ⟨opened.trans (.ofBuilder store inner _), ?_, fun t later r => ?_⟩
  · rw [Builder.attachElse_outer attach, Builder.flush_outer]
  · have later : Later store inner t := (Later.ofBuilder store inner _).trans later
    rw [Builder.said_attachElse m model t.units.units attach, Builder.said_flush]
    congr 1
    funext r
    congr 1
    funext r
    exact sayOps_of_scope body t later r

theorem Speaks.andThen {say next : WalkState → Recital → Recited} {s s' s'' : WalkState}
    (first : Speaks store m model say s s') (second : Speaks store m model next s' s'') :
    Speaks store m model (fun t r => (say t r).bind (next t)) s s'' := by
  refine ⟨first.later.trans second.later, second.outer.trans first.outer, fun t later r => ?_⟩
  rw [second.said t later, first.said t (second.later.trans later)]
  cases s.builder.said m model t.units.units r <;> rfl

end

end WalkState

namespace Walk

open WalkState (Later Speaks)

section
variable {store : Store} {m : Meaning} {model : Value} {enter : Target → WalkState → WalkResult}
  {pull : WalkState → Target → Recital → Recited}

mutual

theorem run_speaks
    (law : ∀ (target : Target) (s s' : WalkState), enter target s = .ok s' →
      Speaks store m model (fun t => pull t target) s s') :
    ∀ (instruction : Instruction) {s s' : WalkState}, run enter instruction s = .ok s' →
    Speaks store m model (fun t => Recital.tell m model (pull t) instruction) s s'
  | .write text, s, s', h => by
    simp only [run, Except.ok.injEq] at h
    subst h
    simpa only [Recital.tell] using WalkState.speaks_write s text
  | .print source line, s, s', h => by
    simp only [run, Except.ok.injEq] at h
    subst h
    simpa only [Recital.tell] using WalkState.speaks_print s source line
  | .choose source line body, s, s', h => by
    obtain ⟨inner, walked, ended⟩ := run_choose_eq_ok_iff.mp h
    simpa only [Recital.tell] using WalkState.speaks_choice (runAll_speaks law body walked) ended
  | .otherwise line body, s, s', h => by
    obtain ⟨_, inner, walked, ended⟩ := run_otherwise_eq_ok_iff.mp h
    simpa only [Recital.tell] using WalkState.speaks_otherwise (runAll_speaks law body walked) ended
  | .pull target, s, s', h => by
    simp only [run] at h
    simpa only [Recital.tell] using law target s s' h
  | .fail error, s, s', h => by simp [run, WalkState.fail] at h

theorem runAll_speaks
    (law : ∀ (target : Target) (s s' : WalkState), enter target s = .ok s' →
      Speaks store m model (fun t => pull t target) s s') :
    ∀ (instructions : List Instruction) {s s' : WalkState}, runAll enter instructions s = .ok s' →
    Speaks store m model (fun t => tellAll m model (pull t) instructions) s s'
  | [], s, s', h => by
    simp only [runAll, Except.ok.injEq] at h
    subst h
    refine ⟨.refl store s, rfl, fun t _ r => ?_⟩
    cases s.builder.said m model t.units.units r <;> simp [tellAll, Except.bind]
  | instruction :: rest, s, s', h => by
    obtain ⟨next, walked, further⟩ := runAll_cons_eq_ok_iff.mp h
    simpa only [tellAll, bind] using (run_speaks law instruction walked).andThen (runAll_speaks law rest further)

end

end

variable {context : Context} {store : Store}

/-- Looking up a target changes no more than the memo, which has the tree of the target from then on. -/
theorem locate_ok {target : Target} {s found : WalkState} {frame : Frame} {name : String}
    {document : Template.Document} (h : locate context store target s = .ok (frame, name, document, found)) :
    Later store s found ∧ found.builder = s.builder ∧
      ∀ t, Later store found t → Recital.tree? context t.memo target = some document := by
  cases target with
  | main =>
    simp only [locate, Except.ok.injEq, Prod.mk.injEq] at h
    obtain ⟨_, _, rfl, rfl⟩ := h
    exact ⟨.refl store s, rfl, fun _ _ => rfl⟩
  | named partialName =>
    cases resolved : context.resolve store s.memo partialName with
    | error error => simp [locate, resolved, WalkState.fail] at h
    | ok answer =>
      obtain ⟨path, loaded, memo⟩ := answer
      simp only [locate, resolved, Except.ok.injEq, Prod.mk.injEq] at h
      obtain ⟨_, _, rfl, rfl⟩ := h
      obtain ⟨rfl, grown, remembered, origin⟩ := Context.resolve_ok resolved
      exact ⟨⟨List.prefix_rfl, grown, origin⟩, rfl, fun t later => Memo.find?_of_prefix later.memo remembered⟩

theorem enter_speaks (m : Meaning) (model : Value) (depth : Nat) :
    ∀ (opened : List Frame) (more : Nat) (target : Target) (s s' : WalkState),
      enter context store depth opened target s = .ok s' →
      Speaks store m model (fun t => ofTarget m model context t.memo (depth + more) target) s s' := by
  -- By the trees that may still be opened; a recital may open some more.
  induction depth with
  | zero =>
    intro opened more target s s' h
    obtain ⟨_, ⟨⟩, _⟩ := enter_eq_ok_iff.mp h
  | succ depth ih =>
    intro opened more target s s' h
    obtain ⟨_, ⟨⟩, frame, name, document, found, located, _, ran⟩ := enter_eq_ok_iff.mp h
    obtain ⟨later, builder, known⟩ := locate_ok located
    have body := runAll_speaks (ih (frame :: opened) more) _ ran
    refine ⟨later.trans body.later, body.outer.trans (congrArg _ builder), fun t later r => ?_⟩
    rw [body.said t later, builder]
    congr 1
    funext r
    -- The document found here is the one that is remembered when the walk is over.
    rw [Script.ofDocument, Recital.tellAll_ofNodes, Nat.add_right_comm]
    simp only [ofTarget, known t (body.later.trans later)]

end Walk

/-- The ops of a view say what its trees say, whatever number of trees more than a walk opens may be open
inside each other, and the documents come from the store. -/
theorem sayOps_of_walk {context : Context} {store : Store} {memo : Memo} {modelType : String}
    {sharing : Sharing} {walked : Walked} (h : walk context store memo modelType sharing = .ok walked)
    (m : Meaning) (model : Value) {depth : Nat} (deep : Walk.depthBound context store memo ≤ depth) :
    Recital.sayOps m model walked.units.units walked.ops .start =
        Recital.ofView m model context walked.memo depth ∧
      memo.GrownFrom store walked.memo := by
  obtain ⟨more, rfl⟩ := Nat.exists_eq_add_of_le deep
  obtain ⟨s, ops, ran, finished, rfl⟩ := walk_eq_ok_iff.mp h
  have spoken := Walk.runAll_speaks (Walk.enter_speaks m model _ _ more) _ ran
  refine ⟨?_, spoken.later.grown⟩
  -- The walk ends with all scopes closed, so that nothing is left outside the last sequence.
  have whole : ops = s.builder.flush.current := by
    simp only [Builder.finish?] at finished
    split at finished
    · exact (Option.some.inj finished).symm
    · cases finished
  rw [whole, Builder.sayOps_flush, spoken.said s (.refl store s), Recital.ofView]
  exact Recital.tellAll_ofNodes m model _ context.root.children .start

end Stencil
