import Stencil.Proofs.Sharing.Ops
import Stencil.Walk

/-! One walk over two tables of units.

How a walk goes on depends on the documents that it remembers and on the form of what it has built, but not on the
handles of its units. So walks over different tables, or over tables that share units in different ways, do the same
step by step: they register the same pieces of code, build ops that are alike, and fail alike.
-/

set_option autoImplicit false

namespace Stencil

/-- Two results with related values, or with the same failure. -/
inductive Matched {ε α : Type} (R : α → α → Prop) : Except ε α → Except ε α → Prop
  | ok {a b : α} (related : R a b) : Matched R (.ok a) (.ok b)
  | error (failure : ε) : Matched R (.error failure) (.error failure)

namespace Matched

variable {ε α β : Type} {R S : α → α → Prop} {x y : Except ε α}

theorem mono (matched : Matched R x y) (implies : ∀ a b, R a b → S a b) : Matched S x y := by
  cases matched with
  | ok related => exact .ok (implies _ _ related)
  | error failure => exact .error failure

theorem bind {T : β → β → Prop} {f g : α → Except ε β} (matched : Matched R x y)
    (next : ∀ a b, R a b → Matched T (f a) (g b)) : Matched T (x >>= f) (y >>= g) := by
  cases matched with
  | ok related => exact next _ _ related
  | error failure => exact .error failure

end Matched

namespace WalkState

structure Alike (s t : WalkState) : Prop where
  builder : Builder.Alike s.units.units t.units.units s.builder t.builder
  memo : s.memo = t.memo

structure Onward (s t s' t' : WalkState) : Prop where
  units : ∃ calls, s'.units = s.units.registerAll calls ∧ t'.units = t.units.registerAll calls
  alike : s'.Alike t'

variable {s t s' t' : WalkState}

namespace Onward

theorem refl (alike : s.Alike t) : Onward s t s t := ⟨⟨[], rfl, rfl⟩, alike⟩

theorem trans {s'' t'' : WalkState} (first : Onward s t s' t') (next : Onward s' t' s'' t'') : Onward s t s'' t'' := by
  obtain ⟨calls, here, there⟩ := first.units
  obtain ⟨more, here', there'⟩ := next.units
  refine ⟨⟨calls ++ more, ?_, ?_⟩, next.alike⟩
  · rw [UnitTable.registerAll_append, ← here, here']
  · rw [UnitTable.registerAll_append, ← there, there']

theorem andThen (first : Onward s t s' t') {x y : WalkResult} (next : Matched (Onward s' t') x y) :
    Matched (Onward s t) x y :=
  next.mono fun _ _ => first.trans

theorem sameCode (onward : Onward s t s' t') {kind : ReturnKind} {handle handle' : Nat}
    (code : SameCode s.units.units t.units.units kind handle handle') :
    SameCode s'.units.units t'.units.units kind handle handle' := by
  obtain ⟨calls, here, there⟩ := onward.units
  rw [here, there]
  exact code.mono (s.units.units_prefix_registerAll calls) (t.units.units_prefix_registerAll calls)

theorem withBuilder (onward : Onward s t s' t') {b b' : Builder}
    (builder : Builder.Alike s'.units.units t'.units.units b b') :
    Onward s t { s' with builder := b } { t' with builder := b' } :=
  ⟨onward.units, builder, onward.alike.memo⟩

end Onward

namespace Alike

theorem fail {α : Type} (alike : s.Alike t) {R : α → α → Prop} (error : CompileError) :
    Matched R (s.fail error) (t.fail error) := by
  rw [WalkState.fail, WalkState.fail, alike.memo]
  exact .error _

theorem register (alike : s.Alike t) (source : String) (kind : ReturnKind) (line : Nat) :
    Onward s t { s with units := (s.units.register source kind line).2 }
        { t with units := (t.units.register source kind line).2 } ∧
      SameCode (s.units.register source kind line).2.units (t.units.register source kind line).2.units kind
        (s.units.register source kind line).1 (t.units.register source kind line).1 := by
  refine ⟨⟨⟨[(source, kind, line)], rfl, rfl⟩, ?_, alike.memo⟩, Text.trimText source, ?_, ?_⟩
  · exact alike.builder.mono (s.units.units_prefix_register source kind line)
      (t.units.units_prefix_register source kind line)
  · exact s.units.register_getElem? source kind line
  · exact t.units.register_getElem? source kind line

theorem write (alike : s.Alike t) (text : String) : Onward s t (s.write text) (t.write text) :=
  (Onward.refl alike).withBuilder (alike.builder.write text)

theorem print (alike : s.Alike t) (source : String) (line : Nat) :
    Onward s t (s.print source line) (t.print source line) := by
  obtain ⟨registered, code⟩ := alike.register source .text line
  exact registered.withBuilder (registered.alike.builder.emit (.expression code))

theorem condition (alike : s.Alike t) (source : String) (line : Nat) :
    Onward s t (s.condition source line).2 (t.condition source line).2 ∧
      SameCode (s.condition source line).2.units.units (t.condition source line).2.units.units .boolean
        (s.condition source line).1 (t.condition source line).1 :=
  alike.register source .boolean line

theorem pushScope (alike : s.Alike t) : Onward s t s.pushScope t.pushScope :=
  (Onward.refl alike).withBuilder alike.builder.pushScope

theorem popScope (alike : s.Alike t) :
    Matched (fun found found' : List Op × WalkState =>
        OpsAlike found.2.units.units found'.2.units.units found.1 found'.1 ∧ Onward s t found.2 found'.2)
      s.popScope t.popScope := by
  obtain ⟨builder, popped⟩ := alike.builder.popScope
  unfold WalkState.popScope
  generalize s.builder.popScope = here, t.builder.popScope = there at builder popped
  obtain ⟨b, ops⟩ := here
  obtain ⟨b', ops'⟩ := there
  cases popped with
  | some body => exact .ok ⟨body, (Onward.refl alike).withBuilder builder⟩
  | none =>
    simp only [builder.depth]
    exact alike.fail _

theorem endChoice (alike : s.Alike t) {handle handle' : Nat}
    (code : SameCode s.units.units t.units.units .boolean handle handle') :
    Matched (Onward s t) (s.endChoice handle) (t.endChoice handle') := by
  refine alike.popScope.bind ?_
  rintro ⟨ops, closed⟩ ⟨ops', closed'⟩ ⟨body, onward⟩
  exact .ok (onward.withBuilder (onward.alike.builder.emit (.conditional (onward.sameCode code) body .none)))

theorem endOtherwise (alike : s.Alike t) (line : Nat) :
    Matched (Onward s t) (s.endOtherwise line) (t.endOtherwise line) := by
  refine alike.popScope.bind ?_
  rintro ⟨ops, closed⟩ ⟨ops', closed'⟩ ⟨body, onward⟩
  have attached := onward.alike.builder.attachElse? body
  dsimp only at attached ⊢
  generalize closed.builder.attachElse? ops = here, closed'.builder.attachElse? ops' = there at attached
  cases attached with
  | some builder => exact .ok (onward.withBuilder builder)
  | none => exact onward.alike.fail _

end Alike

end WalkState

namespace Walk

open WalkState (Alike Onward)

mutual

theorem run_onward {enter : Target → WalkState → WalkResult}
    (law : ∀ target s t, s.Alike t → Matched (Onward s t) (enter target s) (enter target t)) :
    ∀ (instruction : Instruction) {s t : WalkState}, s.Alike t →
      Matched (Onward s t) (run enter instruction s) (run enter instruction t)
  | .write text, _, _, alike => .ok (alike.write text)
  | .print source line, _, _, alike => .ok (alike.print source line)
  | .choose source line body, s, t, alike => by
    obtain ⟨chosen, code⟩ := alike.condition source line
    have opened := chosen.alike.pushScope
    refine (runAll_onward law body opened.alike).bind fun inner inner' body => ?_
    -- What the body has registered stands behind the condition, and leaves its handles as they are.
    have within := opened.trans body
    exact (chosen.trans within).andThen (within.alike.endChoice (within.sameCode code))
  | .otherwise line body, s, t, alike => by
    have opened := alike.pushScope
    simp only [run, alike.builder.canAttachElse]
    split
    · refine (runAll_onward law body opened.alike).bind fun inner inner' body => ?_
      exact (opened.trans body).andThen (body.alike.endOtherwise line)
    · exact alike.fail _
  | .pull target, _, _, alike => law target _ _ alike
  | .fail error, _, _, alike => alike.fail error

theorem runAll_onward {enter : Target → WalkState → WalkResult}
    (law : ∀ target s t, s.Alike t → Matched (Onward s t) (enter target s) (enter target t)) :
    ∀ (instructions : List Instruction) {s t : WalkState}, s.Alike t →
      Matched (Onward s t) (runAll enter instructions s) (runAll enter instructions t)
  | [], _, _, alike => .ok (.refl alike)
  | instruction :: rest, _, _, alike =>
    (run_onward law instruction alike).bind fun _ _ first => first.andThen (runAll_onward law rest first.alike)

end

variable {context : Context} {store : Store}

theorem locate_onward (target : Target) {s t : WalkState} (alike : s.Alike t) :
    Matched (fun found found' => found.1 = found'.1 ∧ found.2.1 = found'.2.1 ∧ found.2.2.1 = found'.2.2.1 ∧
        Onward s t found.2.2.2 found'.2.2.2) (locate context store target s) (locate context store target t) := by
  cases target with
  | main => exact .ok ⟨rfl, rfl, rfl, .refl alike⟩
  | named name =>
    simp only [locate, ← alike.memo]
    cases context.resolve store s.memo name with
    | ok found => exact .ok ⟨rfl, rfl, rfl, ⟨[], rfl, rfl⟩, alike.builder, rfl⟩
    | error error => exact alike.fail error

theorem enter_onward (depth : Nat) : ∀ (opened : List Frame) (target : Target) (s t : WalkState), s.Alike t →
    Matched (Onward s t) (enter context store depth opened target s) (enter context store depth opened target t) := by
  -- By the trees that may still be opened, which are as many in both walks.
  induction depth with
  | zero =>
    intro opened target s t alike
    refine (locate_onward target alike).bind ?_
    rintro ⟨frame, name, document, found⟩ ⟨_, _, _, found'⟩ ⟨⟨⟩, ⟨⟩, ⟨⟩, onward⟩
    exact onward.alike.fail _
  | succ depth ih =>
    intro opened target s t alike
    refine (locate_onward target alike).bind ?_
    rintro ⟨frame, name, document, found⟩ ⟨_, _, _, found'⟩ ⟨⟨⟩, ⟨⟩, ⟨⟩, onward⟩
    -- Both have found the same tree, so that it is open in both walks or in neither.
    dsimp only
    split
    · exact onward.alike.fail _
    · exact onward.andThen (runAll_onward (ih _) _ onward.alike)

end Walk

structure Walked.Alike (table table' : UnitTable) (walked walked' : Walked) : Prop where
  units : ∃ calls, walked.units = table.registerAll calls ∧ walked'.units = table'.registerAll calls
  ops : OpsAlike walked.units.units walked'.units.units walked.ops walked'.ops

open WalkState (Onward) in
/-- Walks under two policies succeed with ops that are alike, or fail with the same failure. -/
theorem walk_alike (context : Context) (store : Store) (memo : Memo) (modelType : String) (sharing sharing' : Sharing) :
    Matched (Walked.Alike (.empty modelType sharing) (.empty modelType sharing'))
      (walk context store memo modelType sharing) (walk context store memo modelType sharing') := by
  have starts : WalkState.Alike (.start modelType sharing memo) (.start modelType sharing' memo) :=
    ⟨Builder.alike_empty, rfl⟩
  refine (Walk.runAll_onward (Walk.enter_onward _ _) (Script.ofDocument context.root) starts).bind fun s t onward => ?_
  have finished := onward.alike.builder.finish?
  unfold WalkState.finish
  rw [onward.alike.builder.depth]
  generalize s.builder.finish? = ops, t.builder.finish? = ops' at finished ⊢
  cases finished with
  | some ops => exact .ok ⟨onward.units, ops⟩
  | none => exact onward.alike.fail _

theorem Walked.exists_registerAll {context : Context} {store : Store} {memo : Memo} {modelType : String}
    {sharing : Sharing} {walked : Walked} (ended : walk context store memo modelType sharing = .ok walked) :
    ∃ calls, walked.units = (UnitTable.empty modelType sharing).registerAll calls := by
  have alike := walk_alike context store memo modelType sharing sharing
  rw [ended] at alike
  obtain ⟨related⟩ := alike
  obtain ⟨calls, here, _⟩ := related.units
  exact ⟨calls, here⟩

end Stencil
