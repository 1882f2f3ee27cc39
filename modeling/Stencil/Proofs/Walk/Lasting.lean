import Stencil.Proofs.Recital.Walk
import Stencil.Proofs.Walk.Steps

/-! What lasts in a builder.

A walk does only a few things with its builder. What each of them keeps holds as long as the walk goes on, however many
trees it enters.
-/

set_option autoImplicit false

namespace Stencil

/-- What all operations keep that a walk carries out on its builder. A scope that is closed becomes a branch of a choice
at once. -/
structure Builder.Lasting (P : Builder → Prop) : Prop where
  write : ∀ {b : Builder} (text : String), P b → P (b.write text)
  expression : ∀ {b : Builder} (unit : Nat), P b → P (b.expression unit)
  pushScope : ∀ {b : Builder}, P b → P b.pushScope
  conditional : ∀ {b next : Builder} {ops : List Op} (unit : Nat), P b → b.popScope = (next, some ops) →
    P (next.conditional unit ops)
  attachElse : ∀ {b next attached : Builder} {ops : List Op}, P b → b.popScope = (next, some ops) →
    next.attachElse? ops = some attached → P attached

namespace Walk

variable {P : Builder → Prop}

section
variable {enter : Target → WalkState → WalkResult}

mutual

theorem run_lasting (lasting : Builder.Lasting P)
    (law : ∀ target s s', enter target s = .ok s' → P s.builder → P s'.builder) :
    ∀ (instruction : Instruction) {s s' : WalkState}, run enter instruction s = .ok s' → P s.builder → P s'.builder
  | .write text, s, s', ran, holds => by
    simp only [run, Except.ok.injEq] at ran
    subst ran
    exact lasting.write text holds
  | .print source line, s, s', ran, holds => by
    simp only [run, Except.ok.injEq] at ran
    subst ran
    exact lasting.expression _ holds
  | .choose source line body, s, s', ran, holds => by
    obtain ⟨inner, ran, ends⟩ := run_choose_eq_ok_iff.mp ran
    have inside := runAll_lasting lasting law body ran (lasting.pushScope holds)
    obtain ⟨builder, ops, popped, rfl⟩ := WalkState.endChoice_eq_ok_iff.mp ends
    exact lasting.conditional _ inside popped
  | .otherwise line body, s, s', ran, holds => by
    obtain ⟨_, inner, ran, ends⟩ := run_otherwise_eq_ok_iff.mp ran
    have inside := runAll_lasting lasting law body ran (lasting.pushScope holds)
    obtain ⟨builder, ops, attached, popped, attach, rfl⟩ := WalkState.endOtherwise_eq_ok_iff.mp ends
    exact lasting.attachElse inside popped attach
  | .pull target, s, s', ran, holds => by
    simp only [run] at ran
    exact law target s s' ran holds
  | .fail error, s, s', ran, _ => by simp [run, WalkState.fail] at ran

theorem runAll_lasting (lasting : Builder.Lasting P)
    (law : ∀ target s s', enter target s = .ok s' → P s.builder → P s'.builder) :
    ∀ (instructions : List Instruction) {s s' : WalkState}, runAll enter instructions s = .ok s' →
      P s.builder → P s'.builder
  | [], s, s', ran, holds => by
    simp only [runAll, Except.ok.injEq] at ran
    exact ran ▸ holds
  | instruction :: rest, s, s', ran, holds => by
    obtain ⟨next, first, others⟩ := runAll_cons_eq_ok_iff.mp ran
    exact runAll_lasting lasting law rest others (run_lasting lasting law instruction first holds)

end

end

theorem enter_lasting {context : Context} {store : Store} (lasting : Builder.Lasting P) (depth : Nat) :
    ∀ (opened : List Frame) (target : Target) (s s' : WalkState), enter context store depth opened target s = .ok s' →
      P s.builder → P s'.builder := by
  -- By the trees that may still be opened.
  induction depth with
  | zero =>
    intro opened target s s' entered
    obtain ⟨less, impossible, _⟩ := enter_eq_ok_iff.mp entered
    cases impossible
  | succ depth ih =>
    intro opened target s s' entered holds
    obtain ⟨_, ⟨⟩, frame, name, document, found, located, _, ran⟩ := enter_eq_ok_iff.mp entered
    have same : found.builder = s.builder := (locate_ok located).2.1
    exact runAll_lasting lasting (ih (frame :: opened)) _ ran (same ▸ holds)

end Walk

end Stencil
