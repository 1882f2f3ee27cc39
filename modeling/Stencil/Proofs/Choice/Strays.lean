import Stencil.Proofs.Choice.Joining
import Stencil.Store.Files

/-! A walk finds fault with an `else` only where no `if` stands in front of it.

By induction over the trees, a walk either comes past all nodes ahead, or it fails; and where it fails for an `else`,
it has come to this `else` with no `if` as the last node of the level that emits something.
-/

set_option autoImplicit false

namespace Stencil

open Template (Node TagHead Document)
open Walk (run runAll runAll_append runAll_singleton Brings)

/-- Whether an instruction is carried out at once, whatever the state is. -/
def Instruction.Emits : Instruction → Prop
  | .write _ | .print _ _ => True
  | _ => False

namespace Script

theorem emits_printAll (spaced : Bool) (pieces : List (String × Nat)) :
    ∀ instruction ∈ printAll spaced pieces, instruction.Emits := by
  induction pieces generalizing spaced with
  | nil => cases spaced <;> simp [printAll]
  | cons piece rest ih => cases spaced <;> simpa [printAll, Instruction.Emits] using ih true

theorem emits_attribute (a : Attribute) : ∀ instruction ∈ a.script, instruction.Emits := by
  intro instruction member
  simp only [Attribute.script, List.mem_cons, List.mem_append, List.not_mem_nil, or_false] at member
  rcases member with rfl | member | rfl
  · trivial
  · exact emits_printAll _ _ _ member
  · trivial

theorem attributeScript_cases (attributes : List Node) :
    (∀ instruction ∈ attributeScript attributes, instruction.Emits) ∨
      ∃ error, attributeScript attributes = [.fail (.template error)] := by
  unfold attributeScript
  split
  · refine .inl fun instruction member => ?_
    obtain ⟨a, _, member⟩ := List.mem_flatMap.mp member
    exact emits_attribute a instruction member
  · exact .inr ⟨_, rfl⟩

theorem emits_openTag (head : TagHead) {attributes : List Node}
    (emits : ∀ instruction ∈ attributeScript attributes, instruction.Emits) :
    ∀ instruction ∈ openTag head attributes, instruction.Emits := by
  intro instruction member
  simp only [openTag, List.mem_cons, List.mem_append, List.not_mem_nil, or_false] at member
  rcases member with rfl | member | rfl
  · trivial
  · exact emits instruction member
  · trivial

theorem emits_emptyTag (head : TagHead) {attributes : List Node}
    (emits : ∀ instruction ∈ attributeScript attributes, instruction.Emits) :
    ∀ instruction ∈ ofNode (.tag head attributes []), instruction.Emits := by
  intro instruction member
  simp only [ofNode, List.mem_cons, List.mem_append] at member
  rcases member with rfl | member | member
  · trivial
  · exact emits instruction member
  · by_cases closing : head.selfClosing <;> simp [closeTag, closing] at member <;> subst member <;> trivial

end Script

theorem Walk.exists_runAll_of_emits (enter : Target → WalkState → WalkResult) {instructions : List Instruction}
    (emits : ∀ instruction ∈ instructions, instruction.Emits) (s : WalkState) :
    ∃ s', runAll enter instructions s = .ok s' := by
  induction instructions generalizing s with
  | nil => exact ⟨s, rfl⟩
  | cons instruction rest ih =>
    obtain ⟨first, others⟩ := List.forall_mem_cons.mp emits
    cases instruction with
    | write text => exact ih others _
    | print source line => exact ih others _
    | choose | otherwise | pull | fail => cases first

theorem Walk.error_of_emits {enter : Target → WalkState → WalkResult} {first last : List Instruction}
    (emits : ∀ instruction ∈ last, instruction.Emits) {s : WalkState} {failure : WalkFailure}
    (failed : runAll enter (first ++ last) s = .error failure) : runAll enter first s = .error failure := by
  rw [runAll_append] at failed
  cases ran : runAll enter first s with
  | error other =>
    rw [ran] at failed
    exact failed
  | ok next =>
    obtain ⟨s', written⟩ := exists_runAll_of_emits enter emits next
    rw [ran, Except.bind, written] at failed
    cases failed

theorem Walk.error_of_endChoice {inner : WalkState} {unit : Nat} {failure : WalkFailure}
    (failed : inner.endChoice unit = .error failure) (line : Nat) : failure.error ≠ .elseWithoutIf line := by
  simp only [WalkState.endChoice, WalkState.popScope, bind, Except.bind, WalkState.fail] at failed
  rintro same
  split at failed
  · rename_i popped
    split at popped
    · cases popped
    · cases popped
      cases failed
      cases same
  · cases failed

theorem Walk.error_of_locate {context : Context} {store : Store} {target : Target} {s : WalkState}
    {failure : WalkFailure} (failed : locate context store target s = .error failure) (line : Nat) :
    failure.error ≠ .elseWithoutIf line := by
  cases target with
  | main => cases failed
  | named name =>
    simp only [locate] at failed
    split at failed
    · cases failed
    · rename_i error resolved
      cases failed
      rintro rfl
      cases Context.isOfFiles_of_resolve resolved

section
variable (context : Context) (store : Store) (memo : Memo) (modelType : String) (sharing : Sharing)

/-- Whether a walk has come to an `else` on a line, with no `if` as the last node of its level that emits something,
and with the given documents remembered. -/
def Strays (line : Nat) (last : Memo) : Prop :=
  ∃ passed s depth opened content children rest,
    Arrives context store memo modelType sharing passed s (⟨depth, opened, .code content children line⟩ :: rest) ∧
      Script.isElse content ∧ ¬ EndsWithIf passed ∧ s.memo = last

/-- Whether a walk has come past some nodes, to those behind them, or has failed; and a failure for an `else` is that
of a stray one. -/
def ComesPast (rest : List Pending) : WalkResult → Prop
  | .ok s => ∃ passed, Arrives context store memo modelType sharing passed s rest
  | .error failure => ∀ line, failure.error = .elseWithoutIf line →
      Strays context store memo modelType sharing line failure.memo

def ComesPastAll (depth : Nat) : Prop :=
  ∀ (opened : List Frame) (nodes passed : List Node) (s : WalkState) (rest : List Pending),
    Arrives context store memo modelType sharing passed s (pendingOf depth opened nodes ++ rest) →
    ComesPast context store memo modelType sharing rest
      (runAll (Walk.enter context store depth opened) (Script.ofNodes nodes) s)

end

section
variable {context : Context} {store : Store} {memo : Memo} {modelType : String} {sharing : Sharing}
  {depth : Nat} {opened : List Frame}

theorem ComesPast.of_other {rest : List Pending} {error : CompileError} {last : Memo}
    (other : ∀ line, error ≠ .elseWithoutIf line) :
    ComesPast context store memo modelType sharing rest (.error ⟨error, last⟩) :=
  fun line same => absurd same (other line)

/-- A node with a place of its own is passed, if it can be. -/
theorem Arrives.comesPast {passed : List Node} {s : WalkState} {p : Pending} {rest : List Pending}
    (arrives : Arrives context store memo modelType sharing passed s (p :: rest)) (stands : p.node.Stands)
    (fails : ∀ failure, p.run context store s = .error failure →
      ComesPast context store memo modelType sharing rest (.error failure)) :
    ComesPast context store memo modelType sharing rest (p.run context store s) := by
  cases ran : p.run context store s with
  | ok s' => exact ⟨_, arrives.past stands ran⟩
  | error failure => exact fails failure ran

theorem ComesPast.of_inside {rest others : List Pending} {result : WalkResult} {failure : WalkFailure}
    (inside : ComesPast context store memo modelType sharing others result) (failed : result = .error failure) :
    ComesPast context store memo modelType sharing rest (.error failure) := by
  rw [failed] at inside
  exact inside

theorem Arrives.comesPast_tag {passed : List Node} {s : WalkState} {rest : List Pending} {head : TagHead}
    {attributes children : List Node}
    (arrives : Arrives context store memo modelType sharing passed s
      (⟨depth, opened, .tag head attributes children⟩ :: rest))
    (inside : ∀ s', Arrives context store memo modelType sharing [] s' (pendingOf depth opened children) →
      ComesPast context store memo modelType sharing []
        (runAll (Walk.enter context store depth opened) (Script.ofNodes children) s')) :
    ComesPast context store memo modelType sharing rest
      (Pending.run context store ⟨depth, opened, .tag head attributes children⟩ s) := by
  refine arrives.comesPast ⟨rfl, rfl⟩ fun failure failed => ?_
  rcases Script.attributeScript_cases attributes with emits | ⟨error, refused⟩
  · by_cases content : children = []
    · subst content
      obtain ⟨s', ran⟩ :=
        Walk.exists_runAll_of_emits (Walk.enter context store depth opened) (Script.emits_emptyTag head emits) s
      rw [Pending.run, ran] at failed
      cases failed
    · obtain ⟨s', ran⟩ :=
        Walk.exists_runAll_of_emits (Walk.enter context store depth opened) (Script.emits_openTag head emits) s
      rw [Pending.run, Script.ofNode_tag head attributes content, ← List.append_assoc] at failed
      have failed := Walk.error_of_emits (by simp [Instruction.Emits]) failed
      rw [runAll_append, ran] at failed
      exact (inside s' (arrives.intoTag content ran)).of_inside failed
  · have refuses : Pending.run context store ⟨depth, opened, .tag head attributes children⟩ s =
        .error ⟨.template error, s.memo⟩ := by
      rw [Pending.run, Script.ofNode, refused]
      rfl
    rw [refuses] at failed
    cases failed
    exact .of_other (by simp)

section
variable {passed : List Node} {s : WalkState} {rest : List Pending} {content : String} {children : List Node} {line : Nat}

theorem Arrives.error_of_if {source : String}
    (arrives : Arrives context store memo modelType sharing passed s
      (⟨depth, opened, .code content children line⟩ :: rest))
    (is : Script.ifCondition? content = some source)
    (inside : ∀ s', Arrives context store memo modelType sharing [] s' (pendingOf depth opened children) →
      ComesPast context store memo modelType sharing []
        (runAll (Walk.enter context store depth opened) (Script.ofNodes children) s'))
    {failure : WalkFailure}
    (failed : Pending.run context store ⟨depth, opened, .code content children line⟩ s = .error failure) :
    ComesPast context store memo modelType sharing rest (.error failure) := by
  rw [Pending.run, Script.ofNode, Script.codeScript_of_if is, runAll_singleton] at failed
  simp only [run, bind, Except.bind] at failed
  have body := inside _ (arrives.intoIf is)
  split at failed
  · rename_i inner ran
    cases failed
    exact body.of_inside ran
  · exact .of_other (Walk.error_of_endChoice failed)

theorem Arrives.error_of_else
    (arrives : Arrives context store memo modelType sharing passed s
      (⟨depth, opened, .code content children line⟩ :: rest))
    (is : Script.isElse content)
    (inside : ∀ s', Arrives context store memo modelType sharing [] s' (pendingOf depth opened children) →
      ComesPast context store memo modelType sharing []
        (runAll (Walk.enter context store depth opened) (Script.ofNodes children) s'))
    {failure : WalkFailure}
    (failed : Pending.run context store ⟨depth, opened, .code content children line⟩ s = .error failure) :
    ComesPast context store memo modelType sharing rest (.error failure) := by
  rcases arrives.level with ⟨⟨last⟩⟩ | ⟨none, closed⟩
  · rw [Pending.run, Script.ofNode, Script.codeScript_of_else is, runAll_singleton] at failed
    simp only [run, last.canAttachElse, if_true, bind, Except.bind] at failed
    have body := inside _ (arrives.intoElse is last.canAttachElse)
    split at failed
    · rename_i ran
      cases failed
      exact body.of_inside ran
    · -- The body has closed the scopes that it opened, so that the choice is still the last op, and takes the branch.
      rename_i inner ran
      have ends := Walk.runAll_mayEnd (Walk.enter_mayEnd context store depth opened)
        (Script.candid_ofNodes children) s.pushScope
      rw [ran] at ends
      obtain ⟨after, same, _⟩ := WalkState.exists_endOtherwise last.canAttachElse ends line
      rw [same] at failed
      cases failed
  · rw [run_else_of_not_attachable is closed] at failed
    cases failed
    rintro _ ⟨⟩
    exact ⟨passed, s, depth, opened, content, children, rest, arrives, is, none, rfl⟩

theorem Arrives.comesPast_code
    (arrives : Arrives context store memo modelType sharing passed s
      (⟨depth, opened, .code content children line⟩ :: rest))
    (inside : ∀ s', Arrives context store memo modelType sharing [] s' (pendingOf depth opened children) →
      ComesPast context store memo modelType sharing []
        (runAll (Walk.enter context store depth opened) (Script.ofNodes children) s')) :
    ComesPast context store memo modelType sharing rest
      (Pending.run context store ⟨depth, opened, .code content children line⟩ s) := by
  refine arrives.comesPast ⟨rfl, rfl⟩ fun failure failed => ?_
  rcases Script.codeScript_cases content line (Script.ofNodes children) with
    ⟨_, script⟩ | ⟨source, is, _⟩ | ⟨is, _⟩ | ⟨_, error, other, script⟩
  · rw [Pending.run, Script.ofNode, script] at failed
    cases failed
  · exact arrives.error_of_if is inside failed
  · exact arrives.error_of_else is inside failed
  · rw [Pending.run, Script.ofNode, script] at failed
    cases failed
    exact .of_other other

end

theorem Arrives.comesPast_attribute {passed : List Node} {s : WalkState} {rest : List Pending} {name : String}
    {children : List Node} {line : Nat}
    (arrives : Arrives context store memo modelType sharing passed s
      (⟨depth, opened, .htmlAttribute name children line⟩ :: rest))
    (inside : ∀ s', Arrives context store memo modelType sharing [] s' (pendingOf depth opened children) →
      ComesPast context store memo modelType sharing []
        (runAll (Walk.enter context store depth opened) (Script.ofNodes children) s')) :
    ComesPast context store memo modelType sharing rest
      (Pending.run context store ⟨depth, opened, .htmlAttribute name children line⟩ s) := by
  refine arrives.comesPast ⟨rfl, rfl⟩ fun failure failed => ?_
  rw [Pending.run, Script.ofNode, ← List.cons_append] at failed
  have failed := Walk.error_of_emits (by simp [Instruction.Emits]) failed
  exact (inside _ arrives.intoAttribute).of_inside failed

theorem Arrives.comesPast_directive {passed : List Node} {s : WalkState} {rest : List Pending} {content : String}
    {line : Nat}
    (arrives : Arrives context store memo modelType sharing passed s (⟨depth, opened, .directive content line⟩ :: rest))
    (below : ∀ less, depth = less + 1 → ComesPastAll context store memo modelType sharing less) :
    ComesPast context store memo modelType sharing rest
      (Pending.run context store ⟨depth, opened, .directive content line⟩ s) := by
  cases leads : Script.target? content with
  | none =>
    refine arrives.comesPast ⟨rfl, leads⟩ fun failure failed => ?_
    simp only [Pending.run, Script.ofNode, Script.directiveScript, leads, runAll] at failed
    cases failed
  | some target =>
    have script : Script.ofNode (.directive content line) = [.pull target] := Node.ofNode_of_target leads
    rw [Pending.run, script, runAll_singleton, run]
    cases located : Walk.locate context store target s with
    | error failure =>
      have fails : Walk.enter context store depth opened target s = .error failure := by
        cases depth <;> simp only [Walk.enter, located, bind, Except.bind]
      rw [fails]
      exact .of_other (Walk.error_of_locate located)
    | ok tree =>
      obtain ⟨frame, name, document, found⟩ := tree
      cases depth with
      | zero =>
        -- The bound on the trees that may be open has run out, which is a failure of another kind.
        simp only [Walk.enter, located, bind, Except.bind]
        exact .of_other (by simp)
      | succ less =>
        by_cases open_ : frame ∈ opened
        · simp only [Walk.enter, located, bind, Except.bind, if_pos open_]
          exact .of_other (by simp)
        · rw [enter_of_located located open_]
          exact below less rfl _ _ _ _ _ (arrives.directive leads located open_)

mutual

theorem comesPast_node
    (below : ∀ less, depth = less + 1 → ComesPastAll context store memo modelType sharing less) :
    ∀ (node : Node) {passed : List Node} {s : WalkState} {rest : List Pending},
      Arrives context store memo modelType sharing passed s (⟨depth, opened, node⟩ :: rest) →
      ComesPast context store memo modelType sharing rest (Pending.run context store ⟨depth, opened, node⟩ s)
  | .tag head attributes children, passed, s, rest, arrives =>
    arrives.comesPast_tag fun s' inside => comesPast_nodes below children (by rwa [List.append_nil])
  | .htmlAttribute name children line, passed, s, rest, arrives =>
    arrives.comesPast_attribute fun s' inside => comesPast_nodes below children (by rwa [List.append_nil])
  | .code content children line, passed, s, rest, arrives =>
    arrives.comesPast_code fun s' inside => comesPast_nodes below children (by rwa [List.append_nil])
  | .idShorthand children line, passed, s, rest, arrives
  | .classShorthand children line, passed, s, rest, arrives
  | .collection children line, passed, s, rest, arrives
  | .textLine children line, passed, s, rest, arrives => by
    rw [Pending.run, Node.ofNode_of_grouped rfl]
    exact comesPast_nodes below children (arrives.group rfl)
  | .directive content line, passed, s, rest, arrives => arrives.comesPast_directive below
  | .text content line, passed, s, rest, arrives
  | .variable source line, passed, s, rest, arrives
  | .eval source line, passed, s, rest, arrives
  | .docType line, passed, s, rest, arrives =>
    arrives.comesPast ⟨rfl, rfl⟩ fun failure failed => by cases failed

theorem comesPast_nodes
    (below : ∀ less, depth = less + 1 → ComesPastAll context store memo modelType sharing less) :
    ∀ (nodes : List Node) {passed : List Node} {s : WalkState} {rest : List Pending},
      Arrives context store memo modelType sharing passed s (pendingOf depth opened nodes ++ rest) →
      ComesPast context store memo modelType sharing rest
        (runAll (Walk.enter context store depth opened) (Script.ofNodes nodes) s)
  | [], passed, s, rest, arrives => ⟨passed, arrives⟩
  | node :: more, passed, s, rest, arrives => by
    have first := comesPast_node below node arrives
    rw [Script.ofNodes, runAll_append]
    cases ran : Pending.run context store ⟨depth, opened, node⟩ s with
    | error failure =>
      rw [Pending.run] at ran
      rw [ran]
      exact first.of_inside ran
    | ok next =>
      rw [ran] at first
      obtain ⟨passed', onward⟩ := first
      rw [Pending.run] at ran
      rw [ran]
      exact comesPast_nodes below more onward

end

theorem comesPastAll (depth : Nat) : ComesPastAll context store memo modelType sharing depth := by
  -- By the trees that may still be opened: to come past the nodes of a tree takes one less.
  induction depth with
  | zero =>
    intro opened nodes passed s rest
    exact comesPast_nodes (by simp) nodes
  | succ depth ih =>
    intro opened nodes passed s rest
    refine comesPast_nodes (fun less same => ?_) nodes
    cases same
    exact ih

theorem strays_of_walk {line : Nat} {last : Memo}
    (fails : walk context store memo modelType sharing = .error ⟨.elseWithoutIf line, last⟩) :
    Strays context store memo modelType sharing line last := by
  have begins : Arrives context store memo modelType sharing [] (.start modelType sharing memo)
      (pendingOf (Walk.depthBound context store memo) (Walk.openedAtStart context) context.root.children ++ []) := by
    rw [List.append_nil]
    exact .begin
  have past := comesPastAll _ _ _ _ _ _ begins
  simp only [walk, bind, Except.bind] at fails
  split at fails
  · rename_i failure ran
    cases fails
    rw [Script.ofDocument] at ran
    rw [ran] at past
    exact past line rfl
  · rename_i s ran
    simp only [WalkState.finish, WalkState.fail] at fails
    split at fails <;> cases fails

end

/-- An `else` that a walk comes to belongs to the `if` in front of it at its level, over nodes that emit nothing and
across trees. Where there is none, the walk fails for it. -/
theorem else_joins_if (context : Context) (store : Store) (memo : Memo) (modelType : String) (sharing : Sharing) :
    (∀ (passed : List Node) (s : WalkState) (depth : Nat) (opened : List Frame) (content : String)
      (children : List Node) (line : Nat) (rest : List Pending),
      Arrives context store memo modelType sharing passed s (⟨depth, opened, .code content children line⟩ :: rest) →
      Script.isElse content →
      (∃ last : LastIf context store memo modelType sharing passed s.builder,
        ∀ walked, walk context store memo modelType sharing = .ok walked →
          ∃ branch after, Brings (Walk.enter context store depth opened) children s branch ∧
            Pending.run context store ⟨depth, opened, .code content children line⟩ s = .ok after ∧
            after.builder = last.start.builder.emit (last.choice branch) ∧ (last.choice branch).Inside walked.ops) ∨
      (¬ EndsWithIf passed ∧
        walk context store memo modelType sharing = .error ⟨.elseWithoutIf line, s.memo⟩)) ∧
    ∀ line last, walk context store memo modelType sharing = .error ⟨.elseWithoutIf line, last⟩ ↔
      Strays context store memo modelType sharing line last := by
  refine ⟨fun passed s depth opened content children line rest arrives is => arrives.joins is, fun line last =>
    ⟨strays_of_walk, ?_⟩⟩
  rintro ⟨passed, s, depth, opened, content, children, rest, arrives, is, none, rfl⟩
  rcases arrives.joins is with ⟨found, _⟩ | ⟨_, fails⟩
  · exact absurd found.endsWithIf none
  · exact fails

/-! ### A choice across two trees -/

namespace Straddling

/-- A layout with an `if` in front of the main template, which begins with an `else`. -/
def context : Context where
  layout := some ⟨[.code "if (true)" [.text "a" 2] 1, .directive "yield" 3]⟩
  main := ⟨[.code "else" [.text "b" 2] 1]⟩
  folder := ⟨"views"⟩
  extension := "haml"

theorem script_root : Script.ofDocument context.root = [.choose "true" 1 [.write "a"], .pull .main] := rfl

theorem script_main : Script.ofDocument context.main = [.otherwise 1 [.write "b"]] := rfl

theorem exists_walk : ∃ walked, walk context Files.empty.store .empty "Page" .dedupe = .ok walked ∧
    walked.ops = [.conditional 0 [.text "a"] (some [.text "b"])] := by
  obtain ⟨depth, bound⟩ : ∃ depth, Walk.depthBound context Files.empty.store .empty = depth + 1 := ⟨_, rfl⟩
  have opened : Walk.openedAtStart context = [] := rfl
  have entered (s : WalkState) : Walk.enter context Files.empty.store (depth + 1) [] .main s =
      Walk.runAll (Walk.enter context Files.empty.store depth [.main]) (Script.ofDocument context.main) s := by
    simp only [Walk.enter, Walk.locate, bind, Except.bind, List.not_mem_nil, if_false]
  rw [script_main] at entered
  simp only [walk, script_root, bound, opened]
  -- The main template is entered by its equation alone; what enters further trees stays closed.
  generalize Walk.enter context Files.empty.store depth [.main] = inner at entered
  generalize Walk.enter context Files.empty.store (depth + 1) [] = outer at entered
  simp [Walk.runAll, Walk.run, entered, WalkState.start, WalkState.write, WalkState.condition, WalkState.pushScope,
    WalkState.endChoice, WalkState.popScope, WalkState.endOtherwise, WalkState.finish, UnitTable.register,
    UnitTable.find?, UnitTable.empty, Builder.empty, Builder.write, Builder.pushScope, Builder.flush,
    Builder.popScope, Builder.conditional, Builder.emit, Builder.canAttachElse, Op.isOpenConditional,
    Builder.attachElse?, Builder.attachToLast?, Builder.finish?, bind, Except.bind, pure, Except.pure]

/-- The walk comes from the `if` of the layout straight to the `else` that the main template begins with. -/
theorem exists_arrives : ∃ passed s depth, Arrives context Files.empty.store .empty "Page" .dedupe passed s
    [⟨depth, [.main], .code "else" [.text "b" 2] 1⟩] := by
  obtain ⟨depth, bound⟩ : ∃ depth, Walk.depthBound context Files.empty.store .empty = depth + 1 := ⟨_, rfl⟩
  have begins : Arrives context Files.empty.store .empty "Page" .dedupe [] (.start "Page" .dedupe .empty)
      [⟨depth + 1, [], .code "if (true)" [.text "a" 2] 1⟩, ⟨depth + 1, [], .directive "yield" 3⟩] := by
    rw [← bound]
    exact .begin
  obtain ⟨walked, succeeds, _⟩ := exists_walk
  obtain ⟨after, ran, _⟩ := begins.inside_of_walk succeeds
  exact ⟨_, _, depth, (begins.past ⟨rfl, rfl⟩ ran).directive rfl rfl (by simp)⟩

/-- An `else` with no node in front of it in its tree can belong to an `if`, which is then one of another tree. -/
theorem else_across_trees :
    (∃ passed s depth, Arrives context Files.empty.store .empty "Page" .dedupe passed s
      [⟨depth, [.main], .code "else" [.text "b" 2] 1⟩]) ∧
    context.main.children = [.code "else" [.text "b" 2] 1] ∧
    ∃ walked, walk context Files.empty.store .empty "Page" .dedupe = .ok walked ∧
      walked.ops = [.conditional 0 [.text "a"] (some [.text "b"])] :=
  ⟨exists_arrives, rfl, exists_walk⟩

theorem else_joins_if_of_layout :
    ∃ passed s depth, Arrives context Files.empty.store .empty "Page" .dedupe passed s
        [⟨depth, [.main], .code "else" [.text "b" 2] 1⟩] ∧
      ∃ last : LastIf context Files.empty.store .empty "Page" .dedupe passed s.builder, ∃ branch,
        (last.choice branch).Inside [.conditional 0 [.text "a"] (some [.text "b"])] := by
  obtain ⟨passed, s, depth, arrives⟩ := exists_arrives
  obtain ⟨walked, succeeds, ops⟩ := exists_walk
  refine ⟨passed, s, depth, arrives, ?_⟩
  rcases (else_joins_if context Files.empty.store .empty "Page" .dedupe).1 passed s depth [.main] "else" _ 1 []
    arrives (by decide) with ⟨last, joined⟩ | ⟨_, fails⟩
  · obtain ⟨branch, _, _, _, _, inside⟩ := joined walked succeeds
    exact ⟨last, branch, ops ▸ inside⟩
  · rw [succeeds] at fails
    cases fails

end Straddling

end Stencil
