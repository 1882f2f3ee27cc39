import Stencil.Walk

/-! What happens in a walk that succeeds.

A walk that comes to an end has carried out its instructions one after the other. Each of them either has been carried
out at once, or has opened a scope, carried out its body and closed the scope, or has opened another tree.
-/

set_option autoImplicit false

namespace Stencil

theorem bind_eq_ok_iff {ε α β : Type} {r : Except ε α} {f : α → Except ε β} {b : β} :
    (r >>= f) = .ok b ↔ ∃ a, r = .ok a ∧ f a = .ok b := by
  cases r <;> simp [bind, Except.bind]

namespace WalkState

variable {s after : WalkState}

theorem popScope_eq_ok_iff {ops : List Op} :
    s.popScope = .ok (ops, after) ↔
      ∃ builder, s.builder.popScope = (builder, some ops) ∧ after = { s with builder } := by
  unfold popScope
  obtain ⟨builder, popped⟩ := s.builder.popScope
  cases popped with
  | none => simp [fail]
  | some inside =>
    simp only [Except.ok.injEq, Prod.mk.injEq, Option.some.injEq]
    constructor
    · rintro ⟨rfl, rfl⟩
      exact ⟨builder, ⟨rfl, rfl⟩, rfl⟩
    · rintro ⟨_, ⟨rfl, rfl⟩, rfl⟩
      exact ⟨rfl, rfl⟩

theorem endChoice_eq_ok_iff {unit : Nat} :
    s.endChoice unit = .ok after ↔ ∃ builder ops, s.builder.popScope = (builder, some ops) ∧
      after = { s with builder := builder.conditional unit ops } := by
  simp only [endChoice, bind_eq_ok_iff, Prod.exists, popScope_eq_ok_iff, pure, Except.pure, Except.ok.injEq]
  constructor
  · rintro ⟨ops, _, ⟨builder, popped, rfl⟩, rfl⟩
    exact ⟨builder, ops, popped, rfl⟩
  · rintro ⟨builder, ops, popped, rfl⟩
    exact ⟨ops, _, ⟨builder, popped, rfl⟩, rfl⟩

theorem endOtherwise_eq_ok_iff {line : Nat} :
    s.endOtherwise line = .ok after ↔ ∃ builder ops attached, s.builder.popScope = (builder, some ops) ∧
      builder.attachElse? ops = some attached ∧ after = { s with builder := attached } := by
  simp only [endOtherwise, bind_eq_ok_iff, Prod.exists, popScope_eq_ok_iff]
  constructor
  · rintro ⟨ops, _, ⟨builder, popped, rfl⟩, attach⟩
    cases attached : builder.attachElse? ops with
    | none => simp [attached, fail] at attach
    | some found =>
      simp only [attached, pure, Except.pure, Except.ok.injEq] at attach
      exact ⟨builder, ops, found, popped, attached, attach.symm⟩
  · rintro ⟨builder, ops, attached, popped, attach, rfl⟩
    exact ⟨ops, _, ⟨builder, popped, rfl⟩, by simp only [attach]; rfl⟩

end WalkState

namespace Walk

variable {enter : Target → WalkState → WalkResult} {s s' : WalkState} {line : Nat} {body : List Instruction}

theorem run_choose_eq_ok_iff {source : String} :
    run enter (.choose source line body) s = .ok s' ↔
      ∃ inner, runAll enter body (s.condition source line).2.pushScope = .ok inner ∧
        inner.endChoice (s.condition source line).1 = .ok s' := by
  simp only [run, bind_eq_ok_iff]

theorem run_otherwise_eq_ok_iff :
    run enter (.otherwise line body) s = .ok s' ↔ s.builder.canAttachElse = true ∧
      ∃ inner, runAll enter body s.pushScope = .ok inner ∧ inner.endOtherwise line = .ok s' := by
  by_cases open_ : s.builder.canAttachElse = true
  · simp only [run, open_, if_true, bind_eq_ok_iff, true_and]
  · simp [run, open_, WalkState.fail]

theorem runAll_cons_eq_ok_iff {instruction : Instruction} {rest : List Instruction} :
    runAll enter (instruction :: rest) s = .ok s' ↔
      ∃ next, run enter instruction s = .ok next ∧ runAll enter rest next = .ok s' := by
  simp only [runAll, bind_eq_ok_iff]

theorem enter_eq_ok_iff {context : Context} {store : Store} {depth : Nat} {opened : List Frame} {target : Target} :
    Walk.enter context store depth opened target s = .ok s' ↔
      ∃ less, depth = less + 1 ∧ ∃ frame name document found,
        locate context store target s = .ok (frame, name, document, found) ∧ frame ∉ opened ∧
        runAll (Walk.enter context store less (frame :: opened)) (Script.ofDocument document) found = .ok s' := by
  cases depth with
  | zero => simp [Walk.enter, bind_eq_ok_iff, WalkState.fail]
  | succ less =>
    simp only [Walk.enter, bind_eq_ok_iff, Prod.exists, Nat.add_right_cancel_iff, exists_eq_left']
    constructor
    · rintro ⟨frame, name, document, found, located, entered⟩
      split at entered
      · cases entered
      · rename_i closed
        exact ⟨frame, name, document, found, located, closed, entered⟩
    · rintro ⟨frame, name, document, found, located, closed, entered⟩
      exact ⟨frame, name, document, found, located, by rw [if_neg closed]; exact entered⟩

end Walk

theorem walk_eq_ok_iff {context : Context} {store : Store} {memo : Memo} {modelType : String} {sharing : Sharing}
    {walked : Walked} :
    walk context store memo modelType sharing = .ok walked ↔
      ∃ s ops, Walk.runAll
          (Walk.enter context store (Walk.depthBound context store memo) (Walk.openedAtStart context))
          (Script.ofDocument context.root) (.start modelType sharing memo) = .ok s ∧
        s.builder.finish? = some ops ∧ walked = { ops, units := s.units, memo := s.memo } := by
  simp only [walk, bind_eq_ok_iff, WalkState.finish]
  constructor
  · rintro ⟨s, ran, finish⟩
    cases finished : s.builder.finish? with
    | none => simp [finished, WalkState.fail] at finish
    | some ops =>
      simp only [finished, Except.ok.injEq] at finish
      exact ⟨s, ops, ran, finished, finish.symm⟩
  · rintro ⟨s, ops, ran, finished, rfl⟩
    exact ⟨s, ran, by simp only [finished]⟩

end Stencil
