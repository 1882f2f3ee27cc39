import Mathlib.Data.List.Chain
import Stencil.Proofs.Choice.Ops
import Stencil.Proofs.Recital.View
import Stencil.Proofs.Walk.Internal

/-! Text is written in one piece.

A builder gathers text across nodes and trees, and ends a run only where an op stands or where a scope begins or ends.
So the ops of a walk have no empty text, and no two texts next to each other, in the whole sequence as in every branch.
Templates without any code come to a single text at most.
-/

set_option autoImplicit false

namespace Stencil

open Json (Value)

def Op.isText : Op → Bool
  | .text _ => true
  | _ => false

structure HasWholeRuns (ops : List Op) : Prop where
  filled : .text "" ∉ ops
  apart : ops.IsChain fun op next => ¬ (op.isText ∧ next.isText)

/-- Text stands in whole runs in a sequence and in every branch of every choice inside of it. -/
structure Coalesced (ops : List Op) : Prop where
  whole : HasWholeRuns ops
  inside : ∀ {condition : Nat} {body : List Op} {otherwise : Option (List Op)},
    (Op.conditional condition body otherwise).Inside ops →
      HasWholeRuns body ∧ ∀ branch ∈ otherwise, HasWholeRuns branch

def Op.IsCoalesced : Op → Prop
  | .text content => content ≠ ""
  | .expression _ => True
  | .conditional _ body otherwise => Coalesced body ∧ ∀ branch ∈ otherwise, Coalesced branch

theorem Op.Inside.of_concat {op other : Op} {ops : List Op} (inside : op.Inside (ops ++ [other])) :
    op.Inside ops ∨ op = other ∨ ∃ condition body otherwise, other = .conditional condition body otherwise ∧
      (op.Inside body ∨ ∃ branch ∈ otherwise, op.Inside branch) := by
  cases inside with
  | here member =>
    rcases List.mem_append.mp member with front | last
    · exact .inl (.here front)
    · exact .inr (.inl (List.mem_singleton.mp last))
  | body member inside =>
    rcases List.mem_append.mp member with front | last
    · exact .inl (.body front inside)
    · exact .inr (.inr ⟨_, _, _, (List.mem_singleton.mp last).symm, .inl inside⟩)
  | branch member inside =>
    rcases List.mem_append.mp member with front | last
    · exact .inl (.branch front inside)
    · exact .inr (.inr ⟨_, _, _, (List.mem_singleton.mp last).symm, .inr ⟨_, rfl, inside⟩⟩)

namespace Coalesced

variable {ops : List Op} {op : Op}

theorem nil : Coalesced [] := ⟨⟨List.not_mem_nil, .nil⟩, by rintro _ _ _ (⟨⟨⟩⟩ | ⟨⟨⟩, _⟩ | ⟨⟨⟩, _⟩)⟩

theorem concat (before : Coalesced ops) (joint : ∀ last ∈ ops.getLast?, ¬ (last.isText ∧ op.isText))
    (new : op.IsCoalesced) : Coalesced (ops ++ [op]) := by
  refine ⟨⟨?_, ?_⟩, fun {condition body otherwise} inside => ?_⟩
  · rw [List.mem_append, List.mem_singleton]
    rintro (old | rfl)
    · exact before.whole.filled old
    · exact new rfl
  · refine List.isChain_append.mpr ⟨before.whole.apart, .singleton op, fun last member next first => ?_⟩
    cases first
    exact joint last member
  · rcases inside.of_concat with old | rfl | ⟨_, _, _, rfl, old | ⟨branch, member, old⟩⟩
    · exact before.inside old
    · exact ⟨new.1.whole, fun branch member => (new.2 branch member).whole⟩
    · exact new.1.inside old
    · exact (new.2 branch member).inside old

theorem of_concat (whole : Coalesced (ops ++ [op])) : Coalesced ops ∧ op.IsCoalesced := by
  refine ⟨⟨⟨fun member => ?_, ?_⟩, fun inside => whole.inside (inside.mono (List.subset_append_left _ _))⟩, ?_⟩
  · exact whole.whole.filled (List.mem_append_left _ member)
  · exact (List.isChain_append.mp whole.whole.apart).1
  · have last : op ∈ ops ++ [op] := List.mem_append_right _ List.mem_cons_self
    cases op with
    | text content =>
      rintro rfl
      exact whole.whole.filled last
    | expression unit => trivial
    | conditional condition body otherwise =>
      obtain ⟨runs, others⟩ := whole.inside (.here last)
      refine ⟨⟨runs, fun inside => whole.inside (.body last inside)⟩, ?_⟩
      rintro branch ⟨⟩
      exact ⟨others branch rfl, fun inside => whole.inside (.branch last inside)⟩

end Coalesced

/-! ### Builders -/

namespace Builder

/-- The sequences of a builder are coalesced, and no op holds text that may still go on. -/
structure Tidy (b : Builder) : Prop where
  current : Coalesced b.current
  outer : ∀ ops ∈ b.outer, Coalesced ops
  unfinished : ∀ last ∈ b.current.getLast?, ¬ last.isText

variable {b : Builder}

theorem tidy_empty : empty.Tidy := ⟨.nil, nofun, nofun⟩

theorem Tidy.flush (tidy : b.Tidy) : Coalesced b.flush.current := by
  by_cases nothing : b.run = ""
  · simpa [Builder.flush, nothing] using tidy.current
  · simp only [Builder.flush, nothing, if_false]
    exact tidy.current.concat (fun last member both => tidy.unfinished last member both.1) nothing

theorem tidy_emit (current : Coalesced b.flush.current) (outer : ∀ ops ∈ b.outer, Coalesced ops) {op : Op}
    (new : op.IsCoalesced) (other : ¬ op.isText) : (b.emit op).Tidy where
  current := current.concat (fun _ _ both => other both.2) new
  outer ops member := outer ops (b.flush_outer ▸ member)
  unfinished last member := by
    rw [emit, List.getLast?_concat] at member
    cases member
    exact other

theorem Tidy.popScope (tidy : b.Tidy) {next : Builder} {ops : List Op} (popped : b.popScope = (next, some ops)) :
    Coalesced ops ∧ next.flush = next ∧ Coalesced next.current ∧ ∀ around ∈ next.outer, Coalesced around := by
  obtain ⟨rfl, outer, silent⟩ := popScope_eq_some popped
  have around := outer ▸ tidy.outer
  exact ⟨tidy.flush, if_pos silent, List.forall_mem_cons.mp around⟩

theorem lasting_tidy : Lasting Tidy where
  write _ tidy := ⟨tidy.current, tidy.outer, tidy.unfinished⟩
  expression _ tidy := tidy_emit tidy.flush tidy.outer trivial Bool.false_ne_true
  pushScope tidy := by
    refine ⟨.nil, fun ops member => ?_, nofun⟩
    rcases List.mem_cons.mp member with rfl | around
    · exact tidy.flush
    · exact tidy.outer ops (flush_outer _ ▸ around)
  conditional _ tidy popped := by
    obtain ⟨body, silent, current, outer⟩ := tidy.popScope popped
    exact tidy_emit (silent.symm ▸ current) outer ⟨body, nofun⟩ Bool.false_ne_true
  attachElse {b next attached ops} tidy popped found := by
    obtain ⟨branch, _, current, outer⟩ := tidy.popScope popped
    obtain ⟨_, before, condition, body, same, rfl⟩ := attachElse?_eq_some found
    obtain ⟨front, inside, _⟩ := (same ▸ current).of_concat
    refine ⟨front.concat (fun _ _ both => Bool.false_ne_true both.2) ⟨inside, ?_⟩, outer, fun last member => ?_⟩
    · rintro _ ⟨⟩
      exact branch
    · rw [List.getLast?_concat] at member
      cases member
      exact Bool.false_ne_true

end Builder

/-! ### Templates without code -/

theorem isText_of_opsFit {ops : List Op} (fits : OpsFit [] ops) : ∀ op ∈ ops, op.isText := by
  induction ops with
  | nil => exact nofun
  | cons op rest ih =>
    rw [OpsFit] at fits
    refine List.forall_mem_cons.mpr ⟨?_, ih fits.2⟩
    cases op with
    | text content => rfl
    | expression unit =>
      obtain ⟨_, found, _⟩ : HasKind [] unit .text := by simpa only [Op.Fits] using fits.1
      cases found
    | conditional condition body otherwise =>
      obtain ⟨⟨_, found, _⟩, _⟩ : HasKind [] condition .boolean ∧ _ := by simpa only [Op.Fits] using fits.1
      cases found

theorem HasWholeRuns.eq_of_isText {ops : List Op} (runs : HasWholeRuns ops) (texts : ∀ op ∈ ops, op.isText) :
    ∃ writes : List String, writes.length ≤ 1 ∧ "" ∉ writes ∧ ops = writes.map .text := by
  match ops with
  | [] => exact ⟨[], Nat.zero_le _, List.not_mem_nil, rfl⟩
  | [op] =>
    cases op with
    | text content =>
      refine ⟨[content], Nat.le_refl _, fun member => ?_, rfl⟩
      rcases List.mem_singleton.mp member with rfl
      exact runs.filled List.mem_cons_self
    | expression unit => cases texts _ List.mem_cons_self
    | conditional condition body otherwise => cases texts _ List.mem_cons_self
  | op :: next :: rest =>
    have apart := (List.isChain_cons_cons.mp runs.apart).1
    exact absurd ⟨texts op List.mem_cons_self, texts next (List.mem_cons_of_mem _ List.mem_cons_self)⟩ apart

namespace Renderer

theorem assemble_texts (modelType : String) (writes : List String) (resolved : ResolvedUnits) :
    assemble modelType (writes.map .text) resolved =
      .ok { modelType, steps := writes.map .write, units := resolved.size } := by
  have bound : bindOps resolved (writes.map .text) = .ok (writes.map .write) := by
    induction writes with
    | nil => rfl
    | cons text rest ih => simp [bindOps, bindOp, ih, bind, Except.bind, pure, Except.pure]
  simp [assemble, bound, bind, Except.bind, pure, Except.pure]

theorem runSteps_writes (sink : Sink) (model other : Value) (writes : List String) (r : Rendering) :
    runSteps sink model (writes.map .write) r = runSteps sink other (writes.map .write) r := by
  induction writes generalizing r with
  | nil => rfl
  | cons text rest ih =>
    simp only [List.map_cons, runSteps, runStep]
    exact if_congr Iff.rfl rfl (ih _)

theorem runSteps_unlimited (model : Value) (writes earlier : List String) :
    runSteps .unlimited model (writes.map .write) { writes := earlier, error := none } =
      { writes := earlier ++ writes, error := none } := by
  induction writes generalizing earlier with
  | nil => simp [runSteps]
  | cons text rest ih =>
    have written : ({ writes := earlier, error := none } : Rendering).write .unlimited text =
        { writes := earlier ++ [text], error := none } := rfl
    simp only [List.map_cons, runSteps, runStep, written, Option.isSome_none, Bool.false_eq_true, if_false]
    rw [ih, List.append_assoc, List.singleton_append]

end Renderer

/-- Text in the ops of a walk stands in whole runs at every depth: none is empty, and no two are next to each other.
So trees that register no unit become one text at most. -/
theorem walk_coalesces {context : Context} {store : Store} {memo : Memo} {modelType : String} {sharing : Sharing}
    {walked : Walked} (walks : walk context store memo modelType sharing = .ok walked) :
    Coalesced walked.ops ∧
    (walked.units.units = [] → ∃ writes : List String, writes.length ≤ 1 ∧ "" ∉ writes ∧
      walked.ops = writes.map .text ∧
      ∀ (modelType : String) (resolved : ResolvedUnits), ∃ renderer,
        Renderer.assemble modelType walked.ops resolved = .ok renderer ∧ renderer.steps = writes.map .write ∧
        ∀ model, renderer.render .unlimited model = { writes, error := none } ∧
          ∀ sink other, renderer.render sink model = renderer.render sink other) := by
  have fits : OpsFit walked.units.units walked.ops := by
    have fits := @walk_fits context store memo modelType sharing
    rwa [walks] at fits
  obtain ⟨s, ops, ran, finished, rfl⟩ := walk_eq_ok_iff.mp walks
  have tidy : s.builder.Tidy := Walk.runAll_lasting Builder.lasting_tidy
    (Walk.enter_lasting Builder.lasting_tidy _ _) _ ran Builder.tidy_empty
  have coalesced : Coalesced ops := by
    simp only [Builder.finish?] at finished
    split at finished
    · cases finished
      exact tidy.flush
    · cases finished
  refine ⟨coalesced, fun none => ?_⟩
  -- Without units there is nothing to print and no choice, so that all ops are texts.
  have fits : OpsFit [] ops := none ▸ fits
  obtain ⟨writes, few, filled, rfl⟩ := coalesced.whole.eq_of_isText (isText_of_opsFit fits)
  refine ⟨writes, few, filled, rfl, fun modelType resolved => ?_⟩
  refine ⟨_, Renderer.assemble_texts modelType writes resolved, rfl, fun model => ⟨?_, fun sink other => ?_⟩⟩
  · exact Renderer.runSteps_unlimited model writes []
  · exact Renderer.runSteps_writes sink model other writes .empty

namespace Plain

def context : Context where
  layout := some ⟨[.textLine [.text "<" 1] 1, .directive "yield" 2, .textLine [.text ">" 3] 3]⟩
  main := ⟨[.textLine [.text "hi" 1] 1, .textLine [.text "!" 2] 2]⟩
  folder := ⟨"views"⟩
  extension := "haml"

def walked : Walked where
  ops := [.text "<hi!>"]
  units := .empty "Page" .dedupe
  memo := .empty

theorem script_root : Script.ofDocument context.root = [.write "<", .pull .main, .write ">"] := rfl

theorem script_main : Script.ofDocument context.main = [.write "hi", .write "!"] := rfl

theorem walk_eq : walk context Files.empty.store .empty "Page" .dedupe = .ok walked := by
  obtain ⟨depth, bound⟩ : ∃ depth, Walk.depthBound context Files.empty.store .empty = depth + 1 := ⟨_, rfl⟩
  have opened : Walk.openedAtStart context = [] := rfl
  have entered (s : WalkState) : Walk.enter context Files.empty.store (depth + 1) [] .main s =
      .ok ((s.write "hi").write "!") := by
    simp only [Walk.enter, Walk.locate, bind, Except.bind, List.not_mem_nil, if_false, script_main]
    rfl
  simp only [walk, script_root, bound, opened]
  simp [Walk.runAll, Walk.run, entered, WalkState.start, WalkState.write, WalkState.finish, Builder.empty, Builder.write,
    Builder.flush, Builder.finish?, bind, Except.bind, walked]

end Plain

theorem walk_coalesces_plain :
    Coalesced [.text "<", .conditional 0 [.text "yes"] (some [.expression 1])] ∧
    ∃ renderer, Renderer.assemble "Page" Plain.walked.ops { names := [], entries := [] } = .ok renderer ∧
      ∀ model, renderer.render .unlimited model = { writes := ["<hi!>"], error := none } := by
  refine ⟨(walk_coalesces Recital.Greeting.walk_eq).1, ?_⟩
  obtain ⟨writes, _, _, same, bound⟩ := (walk_coalesces Plain.walk_eq).2 rfl
  obtain ⟨renderer, assembled, _, renders⟩ := bound "Page" { names := [], entries := [] }
  have written : writes = ["<hi!>"] := by
    have injective : Function.Injective Op.text := fun _ _ => Op.text.inj
    exact List.map_injective_iff.mpr injective same.symm
  exact ⟨renderer, assembled, fun model => written ▸ (renders model).1⟩

end Stencil
