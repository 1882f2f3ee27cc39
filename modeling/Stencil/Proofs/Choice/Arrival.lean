import Stencil.Proofs.Choice.Level
import Stencil.Proofs.Walk.Internal

/-! Where a walk comes.

A walk comes to a node with the nodes of its level behind it that it has passed, and with nodes ahead. It goes on past
a node, or into it. What a node groups belongs to the level of the node, and so does the tree that a directive leads
to; a tag, an attribute and the branches of a choice have levels of their own.
-/

set_option autoImplicit false

namespace Stencil

open Template (Node TagHead Document)
open Walk (run runAll runAll_append runAll_singleton Brings)

structure Pending where
  depth : Nat
  opened : List Frame
  node : Node

def pendingOf (depth : Nat) (opened : List Frame) (nodes : List Node) : List Pending :=
  nodes.map fun node => { depth, opened, node }

def Script.openTag (head : TagHead) (attributes : List Node) : List Instruction :=
  .write ("<" ++ head.qualifiedName) :: (attributeScript attributes ++ [.write ">"])

theorem Script.ofNode_tag (head : TagHead) (attributes : List Node) {children : List Node} (content : children ≠ []) :
    ofNode (.tag head attributes children) =
      openTag head attributes ++ (ofNodes children ++ [.write ("</" ++ head.qualifiedName ++ ">")]) := by
  have some_ : (!children.isEmpty) = true := by simp [content]
  simp [ofNode, closeTag, some_, openTag]

section
variable (context : Context) (store : Store)

def Pending.run (p : Pending) : WalkState → WalkResult :=
  runAll (Walk.enter context store p.depth p.opened) (Script.ofNode p.node)

def runPending : List Pending → WalkState → WalkResult
  | [], s => .ok s
  | p :: rest, s => (p.run context store s).bind (runPending rest)

variable (memo : Memo) (modelType : String) (sharing : Sharing)

/-- A walk comes to the first of the nodes ahead, in a state, and has passed the given nodes at the level. -/
inductive Arrives : (passed : List Node) → WalkState → (ahead : List Pending) → Prop
  | begin :
      Arrives [] (.start modelType sharing memo)
        (pendingOf (Walk.depthBound context store memo) (Walk.openedAtStart context) context.root.children)
  | past {passed : List Node} {s s' : WalkState} {p : Pending} {rest : List Pending}
      (arrives : Arrives passed s (p :: rest)) (stands : p.node.Stands) (ran : p.run context store s = .ok s') :
      Arrives (passed ++ [p.node]) s' rest
  | group {passed : List Node} {s : WalkState} {p : Pending} {rest : List Pending} {children : List Node}
      (arrives : Arrives passed s (p :: rest)) (groups : p.node.grouped? = some children) :
      Arrives passed s (pendingOf p.depth p.opened children ++ rest)
  | directive {passed : List Node} {s found : WalkState} {depth : Nat} {opened : List Frame} {node : Node}
      {rest : List Pending} {target : Target} {frame : Frame} {name : String} {document : Document}
      (arrives : Arrives passed s (⟨depth + 1, opened, node⟩ :: rest)) (leads : node.target? = some target)
      (located : Walk.locate context store target s = .ok (frame, name, document, found)) (closed : frame ∉ opened) :
      Arrives passed found (pendingOf depth (frame :: opened) document.children ++ rest)
  | intoTag {passed : List Node} {s s' : WalkState} {depth : Nat} {opened : List Frame} {head : TagHead}
      {attributes children : List Node} {rest : List Pending}
      (arrives : Arrives passed s (⟨depth, opened, .tag head attributes children⟩ :: rest)) (content : children ≠ [])
      (ran : runAll (Walk.enter context store depth opened) (Script.openTag head attributes) s = .ok s') :
      Arrives [] s' (pendingOf depth opened children)
  | intoAttribute {passed : List Node} {s : WalkState} {depth : Nat} {opened : List Frame} {name : String}
      {children : List Node} {line : Nat} {rest : List Pending}
      (arrives : Arrives passed s (⟨depth, opened, .htmlAttribute name children line⟩ :: rest)) :
      Arrives [] (s.write (" " ++ name ++ "=\"")) (pendingOf depth opened children)
  | intoIf {passed : List Node} {s : WalkState} {depth : Nat} {opened : List Frame} {content source : String}
      {children : List Node} {line : Nat} {rest : List Pending}
      (arrives : Arrives passed s (⟨depth, opened, .code content children line⟩ :: rest))
      (is : Script.ifCondition? content = some source) :
      Arrives [] (s.condition source line).2.pushScope (pendingOf depth opened children)
  | intoElse {passed : List Node} {s : WalkState} {depth : Nat} {opened : List Frame} {content : String}
      {children : List Node} {line : Nat} {rest : List Pending}
      (arrives : Arrives passed s (⟨depth, opened, .code content children line⟩ :: rest))
      (is : Script.isElse content) (attachable : s.builder.canAttachElse = true) :
      Arrives [] s.pushScope (pendingOf depth opened children)

end

section
variable {context : Context} {store : Store}

theorem runPending_append (first rest : List Pending) (s : WalkState) :
    runPending context store (first ++ rest) s =
      (runPending context store first s).bind (runPending context store rest) := by
  induction first generalizing s with
  | nil => rfl
  | cons p first ih =>
    simp only [List.cons_append, runPending]
    cases p.run context store s with
    | error failure => rfl
    | ok next => exact ih next

theorem runPending_pendingOf (depth : Nat) (opened : List Frame) (nodes : List Node) (s : WalkState) :
    runPending context store (pendingOf depth opened nodes) s =
      runAll (Walk.enter context store depth opened) (Script.ofNodes nodes) s := by
  induction nodes generalizing s with
  | nil => rfl
  | cons node rest ih =>
    rw [Script.ofNodes, runAll_append]
    simp only [pendingOf, List.map_cons, runPending]
    exact congrArg _ (funext ih)

/-- To enter a tree that is not open yet is to carry out its instructions. -/
theorem enter_of_located {depth : Nat} {opened : List Frame} {target : Target} {s found : WalkState} {frame : Frame}
    {name : String} {document : Document}
    (located : Walk.locate context store target s = .ok (frame, name, document, found)) (closed : frame ∉ opened) :
    Walk.enter context store (depth + 1) opened target s =
      runAll (Walk.enter context store depth (frame :: opened)) (Script.ofDocument document) found := by
  simp only [Walk.enter, located, bind, Except.bind, if_neg closed]

/-! ### What follows from where a walk is -/

/-- Whether a part of a walk leaves what is settled among the ops where it is. -/
def Keeping (part : WalkState → WalkResult) : Prop :=
  ∀ op : Op, op.isOpenConditional = false → ∀ s s', part s = .ok s' → s.builder.Holds op → s'.builder.Holds op

theorem keeping_runAll (context : Context) (store : Store) (depth : Nat) (opened : List Frame)
    (instructions : List Instruction) : Keeping (runAll (Walk.enter context store depth opened) instructions) :=
  fun _ settled _ _ ran holds =>
    have lasting := Builder.lasting_holds settled
    Walk.runAll_lasting lasting (Walk.enter_lasting lasting depth opened) instructions ran holds

theorem keeping_runPending (context : Context) (store : Store) (ahead : List Pending) :
    Keeping (runPending context store ahead) := by
  intro op settled s s' ran holds
  induction ahead generalizing s with
  | nil => exact Except.ok.inj ran ▸ holds
  | cons p rest ih =>
    obtain ⟨next, first, others⟩ := bind_eq_ok_iff.mp ran
    exact ih next others (keeping_runAll context store p.depth p.opened _ op settled s next first holds)

theorem keeping_endChoice (unit : Nat) : Keeping fun s => s.endChoice unit := by
  intro op settled s s' ends holds
  obtain ⟨builder, ops, popped, rfl⟩ := WalkState.endChoice_eq_ok_iff.mp ends
  exact .conditional (holds.popScope popped) _

theorem keeping_endOtherwise (line : Nat) : Keeping fun s => s.endOtherwise line := by
  intro op settled s s' ends holds
  obtain ⟨builder, ops, attached, popped, attach, rfl⟩ := WalkState.endOtherwise_eq_ok_iff.mp ends
  exact .attachElse settled (holds.popScope popped) attach

/-- The rest of a walk, as a function of what the nodes ahead come to. Failures are passed on. -/
structure Continues (onward : WalkResult → WalkResult) : Prop where
  fails : ∀ failure, onward (.error failure) = .error failure
  keeping : Keeping fun s => onward (.ok s)

theorem Continues.refl : Continues id :=
  ⟨fun _ => rfl, fun _ _ _ _ same holds => Except.ok.inj same ▸ holds⟩

theorem Continues.bind {onward : WalkResult → WalkResult} (continues : Continues onward)
    {part : WalkState → WalkResult} (keeping : Keeping part) : Continues fun r => onward (r.bind part) := by
  refine ⟨continues.fails, fun op settled s s' ends holds => ?_⟩
  simp only [Except.bind] at ends
  cases ran : part s with
  | error failure =>
    rw [ran, continues.fails] at ends
    cases ends
  | ok next =>
    rw [ran] at ends
    exact continues.keeping op settled next s' ends (keeping op settled s next ran holds)

variable {memo : Memo} {modelType : String} {sharing : Sharing}

/-- A walk as a whole is what lies ahead, and then the rest. -/
theorem Arrives.continues {passed : List Node} {s : WalkState} {ahead : List Pending}
    (arrives : Arrives context store memo modelType sharing passed s ahead) :
    ∃ onward, Continues onward ∧
      runAll (Walk.enter context store (Walk.depthBound context store memo) (Walk.openedAtStart context))
        (Script.ofDocument context.root) (.start modelType sharing memo) = onward (runPending context store ahead s) := by
  -- At one level the rest of the walk stays the same. Where the way goes into a node, what ends this node and then the
  -- nodes behind it are left for later.
  induction arrives with
  | begin => exact ⟨id, .refl, (runPending_pendingOf _ _ _ _).symm⟩
  | past _ _ ran ih =>
    obtain ⟨onward, continues, same⟩ := ih
    exact ⟨onward, continues, by rw [same, runPending, ran]; rfl⟩
  | @group passed s p rest children _ groups ih =>
    obtain ⟨onward, continues, same⟩ := ih
    refine ⟨onward, continues, ?_⟩
    rw [same, runPending_append, runPending_pendingOf, ← Node.ofNode_of_grouped groups]
    rfl
  | @directive passed s found depth opened node rest target frame name document _ leads located closed ih =>
    obtain ⟨onward, continues, same⟩ := ih
    refine ⟨onward, continues, ?_⟩
    rw [same, runPending_append, runPending_pendingOf, runPending, Pending.run, Node.ofNode_of_target leads,
      runAll_singleton, run, enter_of_located located closed]
    rfl
  | @intoTag passed s s' depth opened head attributes children rest _ content ran ih =>
    obtain ⟨onward, continues, same⟩ := ih
    let close : List Instruction := [.write ("</" ++ head.qualifiedName ++ ">")]
    refine ⟨_, (continues.bind (keeping_runPending context store rest)).bind
      (keeping_runAll context store depth opened close), ?_⟩
    rw [same, runPending_pendingOf, runPending, Pending.run, Script.ofNode_tag head attributes content, runAll_append,
      ran, Except.bind, runAll_append]
  | @intoAttribute passed s depth opened name children line rest _ ih =>
    obtain ⟨onward, continues, same⟩ := ih
    refine ⟨_, (continues.bind (keeping_runPending context store rest)).bind
      (keeping_runAll context store depth opened [.write "\""]), ?_⟩
    rw [same, runPending_pendingOf, runPending, Pending.run, Script.ofNode, ← runAll_append]
    rfl
  | @intoIf passed s depth opened content source children line rest _ is ih =>
    obtain ⟨onward, continues, same⟩ := ih
    refine ⟨_, (continues.bind (keeping_runPending context store rest)).bind
      (keeping_endChoice (s.condition source line).1), ?_⟩
    rw [same, runPending_pendingOf, runPending, Pending.run, Script.ofNode, Script.codeScript_of_if is, runAll_singleton]
    rfl
  | @intoElse passed s depth opened content children line rest _ is attachable ih =>
    obtain ⟨onward, continues, same⟩ := ih
    refine ⟨_, (continues.bind (keeping_runPending context store rest)).bind (keeping_endOtherwise line), ?_⟩
    rw [same, runPending_pendingOf, runPending, Pending.run, Script.ofNode, Script.codeScript_of_else is,
      runAll_singleton, run, if_pos attachable]
    rfl

end

end Stencil
