import Stencil.Proofs.Choice.Arrival

/-! An `else` belongs to the `if` in front of it at its level.

Whether a second branch can be attached is read off the last op and the text behind it. That agrees with the nodes of
the level: it can exactly where the last node that emits something is an `if`.
-/

set_option autoImplicit false

namespace Stencil

open Template (Node TagHead Document)
open Walk (run runAll runAll_append runAll_singleton Brings)

section
variable (context : Context) (store : Store) (memo : Memo) (modelType : String) (sharing : Sharing)

/-- An `if` is the last node of a level that emits something: what has been written is what had been when the walk
came to it, and a choice with this one branch. -/
structure LastIf (passed : List Node) (builder : Builder) where
  before : List Node
  content : String
  children : List Node
  line : Nat
  silent : List Node
  passed_eq : passed = before ++ .code content children line :: silent
  source : String
  condition : Script.ifCondition? content = some source
  quiet : ∀ node ∈ silent, node.isSilent
  start : WalkState
  depth : Nat
  opened : List Frame
  rest : List Pending
  arrives : Arrives context store memo modelType sharing before start (⟨depth, opened, .code content children line⟩ :: rest)
  body : List Op
  brings : Brings (Walk.enter context store depth opened) children (start.condition source line).2 body
  builder_eq : builder = start.builder.conditional (start.condition source line).1 body

end

variable {context : Context} {store : Store} {memo : Memo} {modelType : String} {sharing : Sharing}
  {passed : List Node} {s : WalkState} {ahead : List Pending}

def LastIf.choice {builder : Builder} (last : LastIf context store memo modelType sharing passed builder)
    (branch : List Op) : Op :=
  .conditional (last.start.condition last.source last.line).1 last.body (some branch)

def LastIf.passSilent {builder : Builder} (last : LastIf context store memo modelType sharing passed builder)
    {node : Node} (silent : node.isSilent) :
    LastIf context store memo modelType sharing (passed ++ [node]) builder :=
  { last with
    silent := last.silent ++ [node]
    passed_eq := by simp [last.passed_eq]
    quiet := by
      intro other member
      rcases List.mem_append.mp member with earlier | new
      · exact last.quiet other earlier
      · rwa [List.mem_singleton.mp new] }

theorem not_endsWithIf_nil : ¬ EndsWithIf [] := by
  rintro ⟨before, node, silent, same, _⟩
  simp at same

/-- At every node that a walk comes to, an `if` is the last node that emits something, or nothing can be attached. -/
theorem Arrives.level (arrives : Arrives context store memo modelType sharing passed s ahead) :
    Nonempty (LastIf context store memo modelType sharing passed s.builder) ∨
      (¬ EndsWithIf passed ∧ s.builder.canAttachElse = false) := by
  -- Only to pass a node makes a difference at a level. A new level begins with nothing to attach a branch to.
  induction arrives with
  | begin => exact .inr ⟨not_endsWithIf_nil, rfl⟩
  | group _ _ ih => exact ih
  | directive _ _ located _ ih =>
    rw [(Walk.locate_ok located).2.1]
    exact ih
  | @past passed s s' p rest arrives stands ran ih =>
    obtain ⟨depth, opened, node⟩ := p
    rcases Walk.pass_cases stands ran with
      ⟨silent, other, same⟩ | ⟨content, children, line, source, ops, rfl, is, brings, same⟩ | ⟨loud, other, closed⟩
    · rw [same]
      rcases ih with ⟨⟨last⟩⟩ | ⟨none, closed⟩
      · exact .inl ⟨last.passSilent silent⟩
      · refine .inr ⟨fun ends => ?_, closed⟩
        rcases endsWithIf_concat.mp ends with is | ⟨_, before⟩
        · simp [other] at is
        · exact none before
    · exact .inl ⟨⟨passed, content, children, line, [], rfl, source, is, by simp, s, depth, opened, rest, arrives, ops, brings,
        same⟩⟩
    · refine .inr ⟨fun ends => ?_, closed⟩
      rcases endsWithIf_concat.mp ends with is | ⟨silent, _⟩
      · simp [other] at is
      · exact loud silent
  | intoTag _ _ ran => exact .inr ⟨not_endsWithIf_nil, Walk.not_attachable_of_text (by decide) ran⟩
  | intoAttribute =>
    refine .inr ⟨not_endsWithIf_nil, Builder.canAttachElse_of_written ?_⟩
    simp [WalkState.write, Builder.write]
  | intoIf | intoElse =>
    refine .inr ⟨not_endsWithIf_nil, ?_⟩
    simp [WalkState.pushScope, Builder.pushScope, Builder.canAttachElse]

theorem LastIf.endsWithIf {builder : Builder} (last : LastIf context store memo modelType sharing passed builder) :
    EndsWithIf passed :=
  ⟨last.before, _, last.silent, last.passed_eq, by simp [Node.ifCondition?, last.condition], last.quiet⟩

theorem LastIf.canAttachElse {builder : Builder} (last : LastIf context store memo modelType sharing passed builder) :
    builder.canAttachElse = true := by
  rw [last.builder_eq, Builder.conditional, Builder.canAttachElse_emit]
  rfl

section
variable {depth : Nat} {opened : List Frame} {content : String} {children : List Node} {line : Nat} {rest : List Pending}

theorem LastIf.attach (last : LastIf context store memo modelType sharing passed s.builder)
    (is : Script.isElse content) {after : WalkState}
    (ran : Pending.run context store ⟨depth, opened, .code content children line⟩ s = .ok after) :
    ∃ branch, Brings (Walk.enter context store depth opened) children s branch ∧
      after.builder = last.start.builder.emit (last.choice branch) := by
  rw [Pending.run, Script.ofNode, Script.codeScript_of_else is, runAll_singleton] at ran
  obtain ⟨_, inner, inside, ends⟩ := Walk.run_otherwise_eq_ok_iff.mp ran
  obtain ⟨builder, branch, attached, popped, attach, rfl⟩ := WalkState.endOtherwise_eq_ok_iff.mp ends
  refine ⟨branch, ⟨inner, builder, inside, popped⟩, ?_⟩
  rw [Walk.builder_of_popScope inside popped, last.builder_eq, Builder.conditional, Builder.attachElse?_emit] at attach
  exact (Option.some.inj attach).symm

theorem run_else_of_not_attachable (is : Script.isElse content) (closed : s.builder.canAttachElse = false) :
    Pending.run context store ⟨depth, opened, .code content children line⟩ s =
      .error ⟨.elseWithoutIf line, s.memo⟩ := by
  rw [Pending.run, Script.ofNode, Script.codeScript_of_else is, runAll_singleton, run, closed]
  rfl

theorem Arrives.walk_eq_error {p : Pending} (arrives : Arrives context store memo modelType sharing passed s (p :: rest))
    {failure : WalkFailure} (failed : p.run context store s = .error failure) :
    walk context store memo modelType sharing = .error failure := by
  obtain ⟨onward, continues, same⟩ := arrives.continues
  rw [runPending, failed, Except.bind, continues.fails] at same
  simp only [walk, same]
  rfl

theorem Arrives.inside_of_walk {p : Pending}
    (arrives : Arrives context store memo modelType sharing passed s (p :: rest)) {walked : Walked}
    (succeeds : walk context store memo modelType sharing = .ok walked) :
    ∃ after, p.run context store s = .ok after ∧
      ∀ op : Op, op.isOpenConditional = false → after.builder.Holds op → op.Inside walked.ops := by
  obtain ⟨onward, continues, same⟩ := arrives.continues
  obtain ⟨final, ops, ran, finished, rfl⟩ := walk_eq_ok_iff.mp succeeds
  rw [same, runPending] at ran
  cases passes : p.run context store s with
  | error failure =>
    rw [passes, Except.bind, continues.fails] at ran
    cases ran
  | ok after =>
    rw [passes] at ran
    refine ⟨after, rfl, fun op settled holds => ?_⟩
    have onwards := (continues.bind (keeping_runPending context store rest)).keeping
    exact (onwards op settled after final ran holds).finish finished

theorem Arrives.joins (arrives : Arrives context store memo modelType sharing passed s
      (⟨depth, opened, .code content children line⟩ :: rest)) (is : Script.isElse content) :
    (∃ last : LastIf context store memo modelType sharing passed s.builder,
      ∀ walked, walk context store memo modelType sharing = .ok walked →
        ∃ branch after, Brings (Walk.enter context store depth opened) children s branch ∧
          Pending.run context store ⟨depth, opened, .code content children line⟩ s = .ok after ∧
          after.builder = last.start.builder.emit (last.choice branch) ∧ (last.choice branch).Inside walked.ops) ∨
    (¬ EndsWithIf passed ∧
      walk context store memo modelType sharing = .error ⟨.elseWithoutIf line, s.memo⟩) := by
  rcases arrives.level with ⟨⟨last⟩⟩ | ⟨none, closed⟩
  · refine .inl ⟨last, fun walked succeeds => ?_⟩
    obtain ⟨after, ran, stays⟩ := arrives.inside_of_walk succeeds
    obtain ⟨branch, brings, same⟩ := last.attach is ran
    refine ⟨branch, after, brings, ran, same, stays _ rfl (.inl (.here ?_))⟩
    rw [same]
    exact List.mem_append_right _ List.mem_cons_self
  · exact .inr ⟨none, arrives.walk_eq_error (run_else_of_not_attachable is closed)⟩

end

end Stencil
