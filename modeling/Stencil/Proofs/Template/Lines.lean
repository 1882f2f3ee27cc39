import Stencil.Template.Outline

/-! The lines of a template are the texts between its line feeds that are not blank, with their numbers. -/

set_option autoImplicit false

namespace Stencil.Template

section
variable {ε α β : Type} {x : Except ε α} {b : β}

theorem ok_of_map {f : α → β} (h : x.map f = .ok b) : ∃ a, x = .ok a ∧ f a = b := by
  cases x with
  | error e => cases h
  | ok a =>
    cases h
    exact ⟨a, rfl, rfl⟩

theorem ok_of_bind {f : α → Except ε β} (h : (x >>= f) = .ok b) : ∃ a, x = .ok a ∧ f a = .ok b := by
  cases x with
  | error e => cases h
  | ok a => exact ⟨a, rfl, h⟩

end

theorem not_mem_of_mem_splitOn {α : Type} [BEq α] [LawfulBEq α] {separator : α} (text : List α) :
    ∀ part ∈ text.splitOn separator, separator ∉ part := by
  induction text with
  | nil => simp
  | cons c text ih =>
    rw [List.splitOn_cons_eq_if_modifyHead]
    split
    · exact List.forall_mem_cons.mpr ⟨List.not_mem_nil, ih⟩
    · rename_i other
      cases parts : text.splitOn separator with
      | nil => simp
      | cons first rest =>
        rw [parts] at ih
        obtain ⟨own, others⟩ := List.forall_mem_cons.mp ih
        refine List.forall_mem_cons.mpr ⟨?_, others⟩
        simp only [List.mem_cons, not_or]
        exact ⟨fun same => other (beq_iff_eq.mpr same.symm), own⟩

theorem Line.number_of_ofText? {number : Nat} {raw : List Char} {line : Line}
    (h : Line.ofText? number raw = .ok (some line)) : line.number = number := by
  unfold Line.ofText? at h
  dsimp only at h
  split at h
  · cases h
  · split at h
    · cases h
    · cases h
      rfl

theorem linesFrom_cons {number : Nat} {raw : List Char} {rest : List (List Char)} {lines : List Line}
    (h : linesFrom number (raw :: rest) = .ok lines) :
    ∃ line more, Line.ofText? number raw = .ok line ∧ linesFrom (number + 1) rest = .ok more ∧
      lines = line.toList ++ more := by
  rw [linesFrom] at h
  obtain ⟨line, read, h⟩ := ok_of_bind h
  obtain ⟨more, others, h⟩ := ok_of_bind h
  exact ⟨line, more, read, others, (Except.ok.inj h).symm⟩

theorem mem_linesFrom {number : Nat} {raws : List (List Char)} {lines : List Line}
    (h : linesFrom number raws = .ok lines) (line : Line) :
    line ∈ lines ↔
      ∃ index raw, raws[index]? = some raw ∧ Line.ofText? (number + index) raw = .ok (some line) := by
  induction raws generalizing number lines with
  | nil =>
    simp only [linesFrom, Except.ok.injEq] at h
    simp [← h]
  | cons raw rest ih =>
    obtain ⟨first, more, read, others, rfl⟩ := linesFrom_cons h
    rw [List.mem_append, Option.mem_toList, ih others]
    constructor
    · rintro (here | ⟨index, other, found, read⟩)
      · exact ⟨0, raw, rfl, by rw [Nat.add_zero, read, Option.mem_def.mp here]⟩
      · exact ⟨index + 1, other, found, by rw [← Nat.add_assoc, Nat.add_right_comm, read]⟩
    · rintro ⟨index, other, found, read'⟩
      cases index with
      | zero =>
        cases found
        rw [Nat.add_zero, read] at read'
        exact .inl (Except.ok.inj read')
      | succ index => exact .inr ⟨index, other, found, by rw [Nat.add_right_comm, Nat.add_assoc, read']⟩

theorem pairwise_linesFrom {number : Nat} {raws : List (List Char)} {lines : List Line}
    (h : linesFrom number raws = .ok lines) : lines.Pairwise (·.number < ·.number) := by
  induction raws generalizing number lines with
  | nil =>
    simp only [linesFrom, Except.ok.injEq] at h
    exact h ▸ .nil
  | cons raw rest ih =>
    obtain ⟨first, more, read, others, rfl⟩ := linesFrom_cons h
    cases first with
    | none => exact ih others
    | some line =>
      refine .cons (fun other later => ?_) (ih others)
      obtain ⟨index, text, _, read'⟩ := (mem_linesFrom others other).mp later
      rw [Line.number_of_ofText? read, Line.number_of_ofText? read']
      omega

theorem mem_linesOf {source : String} {lines : List Line} (h : linesOf source = .ok lines) (line : Line) :
    line ∈ lines ↔
      ∃ index raw, (source.toList.splitOn '\n')[index]? = some raw ∧
        Line.ofText? (index + 1) raw = .ok (some line) := by
  rw [mem_linesFrom h]
  simp only [Nat.add_comm]

end Stencil.Template
