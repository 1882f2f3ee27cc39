import Stencil.Proofs.Walk.Lasting

/-! Choices in the ops of a walk.

A choice can take a second branch as long as it is the last op of its sequence. Once it has two branches, it stays
where it is, whatever the walk does next, and so do all other ops but choices with one branch.
-/

set_option autoImplicit false

namespace Stencil

/-- Whether an op is in a sequence, or in a branch of a choice in it. -/
inductive Op.Inside (op : Op) : List Op → Prop
  | here {ops : List Op} (member : op ∈ ops) : op.Inside ops
  | body {ops body : List Op} {condition : Nat} {otherwise : Option (List Op)}
      (member : .conditional condition body otherwise ∈ ops) (inside : op.Inside body) : op.Inside ops
  | branch {ops body branch : List Op} {condition : Nat}
      (member : .conditional condition body (some branch) ∈ ops) (inside : op.Inside branch) : op.Inside ops

namespace Op.Inside

variable {op : Op} {ops more : List Op}

theorem mono (inside : op.Inside ops) (sub : ops ⊆ more) : op.Inside more := by
  cases inside with
  | here member => exact .here (sub member)
  | body member inside => exact .body (sub member) inside
  | branch member inside => exact .branch (sub member) inside

end Op.Inside

namespace Builder

variable {op : Op} {b : Builder}

theorem attachToLast?_eq_some_iff {ops branch attached : List Op} :
    attachToLast? ops branch = some attached ↔ ∃ before condition body,
      ops = before ++ [Op.conditional condition body none] ∧
        attached = before ++ [Op.conditional condition body (some branch)] := by
  unfold attachToLast?
  constructor
  · intro found
    split at found
    · rename_i condition body last
      obtain ⟨before, rfl⟩ := List.getLast?_eq_some_iff.mp last
      rw [List.dropLast_concat] at found
      exact ⟨before, condition, body, rfl, (Option.some.inj found).symm⟩
    · cases found
  · rintro ⟨before, condition, body, rfl, rfl⟩
    simp

theorem emit_flush (b : Builder) (op : Op) : b.flush.emit op = b.emit op := by
  simp only [emit, flush_flush]

theorem canAttachElse_emit (b : Builder) (op : Op) : (b.emit op).canAttachElse = op.isOpenConditional := by
  simp [canAttachElse, emit]

theorem canAttachElse_of_written (some_ : b.run ≠ "") : b.canAttachElse = false := by
  simp [canAttachElse, some_]

theorem attachElse?_emit (b : Builder) (condition : Nat) (body branch : List Op) :
    (b.emit (.conditional condition body none)).flush.attachElse? branch =
      some (b.emit (.conditional condition body (some branch))) := by
  have silent : (b.emit (.conditional condition body none)).flush = b.emit (.conditional condition body none) :=
    if_pos b.flush_run
  rw [silent]
  simp [emit, attachElse?, attachToLast?]

def Holds (op : Op) (b : Builder) : Prop := op.Inside b.current ∨ ∃ ops ∈ b.outer, op.Inside ops

theorem Holds.of_current {next : Builder} (holds : b.Holds op) (current : op.Inside b.current → op.Inside next.current)
    (outer : next.outer = b.outer) : next.Holds op := by
  rcases holds with inside | ⟨ops, member, inside⟩
  · exact .inl (current inside)
  · exact .inr ⟨ops, outer ▸ member, inside⟩

theorem flush_subset (b : Builder) : b.current ⊆ b.flush.current := by
  unfold flush
  split
  · exact List.Subset.refl _
  · exact List.subset_append_left _ _

theorem Holds.finish (holds : b.Holds op) {ops : List Op} (finished : b.finish? = some ops) : op.Inside ops := by
  simp only [Builder.finish?] at finished
  split at finished
  · rename_i outer
    cases finished
    rcases holds with inside | ⟨others, member, _⟩
    · exact inside.mono b.flush_subset
    · rw [← b.flush_outer, outer] at member
      cases member
  · cases finished

theorem Holds.flush (holds : b.Holds op) : b.flush.Holds op :=
  holds.of_current (fun inside => inside.mono b.flush_subset) b.flush_outer

theorem Holds.emit (holds : b.Holds op) (other : Op) : (b.emit other).Holds op :=
  holds.flush.of_current (fun inside => inside.mono (List.subset_append_left _ _)) rfl

theorem Holds.pushScope (holds : b.Holds op) : b.pushScope.Holds op := by
  rcases holds.flush with inside | ⟨ops, member, inside⟩
  · exact .inr ⟨_, List.mem_cons_self, inside⟩
  · exact .inr ⟨ops, List.mem_cons_of_mem _ member, inside⟩

theorem popScope_eq_some {next : Builder} {ops : List Op} (popped : b.popScope = (next, some ops)) :
    ops = b.flush.current ∧ b.outer = next.current :: next.outer ∧ next.run = "" := by
  simp only [Builder.popScope] at popped
  split at popped
  · cases popped
  · rename_i around others outer
    cases popped
    exact ⟨rfl, b.flush_outer.symm.trans outer, b.flush_run⟩

theorem Holds.popScope (holds : b.Holds op) {next : Builder} {ops : List Op}
    (popped : b.popScope = (next, some ops)) : next.Holds op ∨ op.Inside ops := by
  obtain ⟨rfl, outer, _⟩ := popScope_eq_some popped
  rcases holds with inside | ⟨others, member, inside⟩
  · exact .inr (inside.mono b.flush_subset)
  · rw [outer] at member
    rcases List.mem_cons.mp member with rfl | member
    · exact .inl (.inl inside)
    · exact .inl (.inr ⟨others, member, inside⟩)

theorem Holds.conditional {next : Builder} {ops : List Op} (held : next.Holds op ∨ op.Inside ops) (unit : Nat) :
    (next.conditional unit ops).Holds op := by
  rcases held with holds | inside
  · exact holds.emit _
  · exact .inl (.body (List.mem_append_right _ List.mem_cons_self) inside)

theorem attachElse?_eq_some {branch : List Op} {attached : Builder} (found : b.attachElse? branch = some attached) :
    b.run = "" ∧ ∃ before condition body, b.current = before ++ [Op.conditional condition body none] ∧
      attached = { b with current := before ++ [Op.conditional condition body (some branch)] } := by
  unfold attachElse? at found
  split at found
  · rename_i empty
    obtain ⟨ops, last, rfl⟩ := Option.map_eq_some_iff.mp found
    obtain ⟨before, condition, body, same, rfl⟩ := attachToLast?_eq_some_iff.mp last
    exact ⟨empty, before, condition, body, same, rfl⟩
  · cases found

/-- The only op that goes when a branch is attached is the choice without one. -/
theorem Holds.attachElse (settled : op.isOpenConditional = false) {branch : List Op} {attached : Builder}
    (held : b.Holds op ∨ op.Inside branch) (found : b.attachElse? branch = some attached) : attached.Holds op := by
  obtain ⟨_, before, condition, body, current, rfl⟩ := attachElse?_eq_some found
  have new : Op.conditional condition body (some branch) ∈ before ++ [Op.conditional condition body (some branch)] :=
    List.mem_append_right _ List.mem_cons_self
  rcases held with holds | inside
  · refine holds.of_current (fun inside => ?_) rfl
    rw [current] at inside
    -- Only the choice at the end is changed: it is not settled itself, but its body stays.
    cases inside with
    | here member =>
      rcases List.mem_append.mp member with earlier | last
      · exact .here (List.mem_append_left _ earlier)
      · rw [List.mem_singleton.mp last] at settled
        cases settled
    | body member inside =>
      rcases List.mem_append.mp member with earlier | last
      · exact .body (List.mem_append_left _ earlier) inside
      · cases List.mem_singleton.mp last
        exact .body new inside
    | branch member inside =>
      rcases List.mem_append.mp member with earlier | last
      · exact .branch (List.mem_append_left _ earlier) inside
      · cases List.mem_singleton.mp last
  · exact .inl (.branch new inside)

/-- What is settled among the ops stays, whatever is done next. -/
theorem lasting_holds (settled : op.isOpenConditional = false) : Lasting (Holds op) where
  write _ holds := holds
  expression _ holds := holds.emit _
  pushScope holds := holds.pushScope
  conditional _ holds popped := .conditional (holds.popScope popped) _
  attachElse holds popped found := .attachElse settled (holds.popScope popped) found

end Builder

end Stencil
