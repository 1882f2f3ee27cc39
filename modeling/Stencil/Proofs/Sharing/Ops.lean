import Mathlib.Data.List.Forall2
import Stencil.Ops.Builder
import Stencil.Proofs.Units

/-! Ops that differ in nothing but their handles.

Two tables may hold the same piece of code at different handles. Ops over the one and ops over the other are alike if
they are of one form and have the same code wherever they refer to a unit. Whatever is done to two builders, their
sequences stay alike.
-/

set_option autoImplicit false

namespace Stencil

def HasCode (units : List CodeUnit) (handle : Nat) (kind : ReturnKind) (source : String) : Prop :=
  ∃ unit, units[handle]? = some unit ∧ unit.kind = kind ∧ unit.source = source

/-- Two handles, each in a table of its own, with the same code of the given kind. -/
def SameCode (units units' : List CodeUnit) (kind : ReturnKind) (handle handle' : Nat) : Prop :=
  ∃ source, HasCode units handle kind source ∧ HasCode units' handle' kind source

section
variable (units units' : List CodeUnit)

mutual

inductive OpAlike : Op → Op → Prop
  | text (content : String) : OpAlike (.text content) (.text content)
  | expression {handle handle' : Nat} (code : SameCode units units' .text handle handle') :
    OpAlike (.expression handle) (.expression handle')
  | conditional {condition condition' : Nat} {body body' : List Op} {otherwise otherwise' : Option (List Op)}
    (code : SameCode units units' .boolean condition condition') (inside : OpsAlike body body')
    (others : OtherwiseAlike otherwise otherwise') :
    OpAlike (.conditional condition body otherwise) (.conditional condition' body' otherwise')

inductive OtherwiseAlike : Option (List Op) → Option (List Op) → Prop
  | none : OtherwiseAlike none none
  | some {branch branch' : List Op} (taken : OpsAlike branch branch') : OtherwiseAlike (some branch) (some branch')

inductive OpsAlike : List Op → List Op → Prop
  | nil : OpsAlike [] []
  | cons {op op' : Op} {rest rest' : List Op} (first : OpAlike op op') (more : OpsAlike rest rest') :
    OpsAlike (op :: rest) (op' :: rest')

end

end

variable {units units' later later' : List CodeUnit}

theorem HasCode.mono (grown : units <+: later) {handle : Nat} {kind : ReturnKind} {source : String}
    (code : HasCode units handle kind source) : HasCode later handle kind source := by
  obtain ⟨unit, found, same⟩ := code
  exact ⟨unit, UnitTable.getElem?_of_prefix grown found, same⟩

theorem SameCode.mono (grown : units <+: later) (grown' : units' <+: later') {kind : ReturnKind} {handle handle' : Nat}
    (same : SameCode units units' kind handle handle') : SameCode later later' kind handle handle' := by
  obtain ⟨source, here, there⟩ := same
  exact ⟨source, here.mono grown, there.mono grown'⟩

mutual

theorem OpAlike.mono (grown : units <+: later) (grown' : units' <+: later') :
    ∀ {op op' : Op}, OpAlike units units' op op' → OpAlike later later' op op'
  | _, _, .text content => .text content
  | _, _, .expression code => .expression (code.mono grown grown')
  | _, _, .conditional code inside others =>
    .conditional (code.mono grown grown') (inside.mono grown grown') (others.mono grown grown')

theorem OtherwiseAlike.mono (grown : units <+: later) (grown' : units' <+: later') :
    ∀ {otherwise otherwise' : Option (List Op)},
      OtherwiseAlike units units' otherwise otherwise' → OtherwiseAlike later later' otherwise otherwise'
  | _, _, .none => .none
  | _, _, .some taken => .some (taken.mono grown grown')

theorem OpsAlike.mono (grown : units <+: later) (grown' : units' <+: later') :
    ∀ {ops ops' : List Op}, OpsAlike units units' ops ops' → OpsAlike later later' ops ops'
  | _, _, .nil => .nil
  | _, _, .cons first more => .cons (first.mono grown grown') (more.mono grown grown')

end

theorem OpsAlike.concat {ops ops' : List Op} {op op' : Op} :
    OpsAlike units units' ops ops' → OpAlike units units' op op' → OpsAlike units units' (ops ++ [op]) (ops' ++ [op'])
  | .nil, last => .cons last .nil
  | .cons first more, last => .cons first (more.concat last)

theorem OpsAlike.exists_concat {ops both : List Op} {op : Op} (alike : OpsAlike units units' (ops ++ [op]) both) :
    ∃ ops' op', both = ops' ++ [op'] ∧ OpsAlike units units' ops ops' ∧ OpAlike units units' op op' := by
  induction ops generalizing both with
  | nil =>
    obtain _ | ⟨last, ⟨⟩⟩ := alike
    exact ⟨[], _, rfl, .nil, last⟩
  | cons _ ops ih =>
    obtain _ | ⟨first, rest⟩ := alike
    obtain ⟨ops', op', rfl, rest, last⟩ := ih rest
    exact ⟨_ :: ops', op', rfl, .cons first rest, last⟩

namespace Builder

theorem attachToLast?_alike {ops ops' branch branch' : List Op} (alike : OpsAlike units units' ops ops')
    (second : OpsAlike units units' branch branch') :
    Option.Rel (OpsAlike units units') (attachToLast? ops branch) (attachToLast? ops' branch') := by
  rcases List.eq_nil_or_concat ops with rfl | ⟨front, op, rfl⟩
  · cases alike
    exact .none
  · rw [List.concat_eq_append] at alike ⊢
    obtain ⟨front', op', rfl, first, last⟩ := alike.exists_concat
    simp only [attachToLast?, List.getLast?_concat, List.dropLast_concat]
    cases last with
    | text content => exact .none
    | expression code => exact .none
    | conditional code body otherwise =>
      cases otherwise with
      | none => exact .some (first.concat (.conditional code body (.some second)))
      | some branch => exact .none

structure Alike (units units' : List CodeUnit) (b b' : Builder) : Prop where
  current : OpsAlike units units' b.current b'.current
  outer : List.Forall₂ (OpsAlike units units') b.outer b'.outer
  run : b.run = b'.run

variable {b b' : Builder}

theorem alike_empty : Alike units units' empty empty := ⟨.nil, .nil, rfl⟩

namespace Alike

theorem mono (grown : units <+: later) (grown' : units' <+: later') (alike : Alike units units' b b') :
    Alike later later' b b' :=
  ⟨alike.current.mono grown grown', alike.outer.imp fun _ _ ops => ops.mono grown grown', alike.run⟩

theorem write (alike : Alike units units' b b') (text : String) : Alike units units' (b.write text) (b'.write text) :=
  ⟨alike.current, alike.outer, congrArg (· ++ text) alike.run⟩

theorem flush (alike : Alike units units' b b') : Alike units units' b.flush b'.flush := by
  unfold Builder.flush
  rw [alike.run]
  split
  · exact alike
  · exact ⟨alike.current.concat (.text _), alike.outer, rfl⟩

theorem emit (alike : Alike units units' b b') {op op' : Op} (new : OpAlike units units' op op') :
    Alike units units' (b.emit op) (b'.emit op') :=
  ⟨alike.flush.current.concat new, alike.flush.outer, alike.flush.run⟩

theorem pushScope (alike : Alike units units' b b') : Alike units units' b.pushScope b'.pushScope :=
  ⟨.nil, .cons alike.flush.current alike.flush.outer, alike.flush.run⟩

theorem popScope (alike : Alike units units' b b') :
    Alike units units' b.popScope.1 b'.popScope.1 ∧
      Option.Rel (OpsAlike units units') b.popScope.2 b'.popScope.2 := by
  have flushed := alike.flush
  unfold Builder.popScope
  cases outer : b.flush.outer with
  | nil =>
    have outer' : b'.flush.outer = [] := List.forall₂_nil_left_iff.mp (outer ▸ flushed.outer)
    simp only [outer, outer']
    exact ⟨flushed, .none⟩
  | cons around rest =>
    obtain ⟨around', rest', first, more, outer'⟩ := List.forall₂_cons_left_iff.mp (outer ▸ flushed.outer)
    simp only [outer, outer']
    exact ⟨⟨first, more, flushed.run⟩, .some flushed.current⟩

theorem attachElse? (alike : Alike units units' b b') {branch branch' : List Op}
    (second : OpsAlike units units' branch branch') :
    Option.Rel (Alike units units') (b.attachElse? branch) (b'.attachElse? branch') := by
  have attached := attachToLast?_alike alike.current second
  unfold Builder.attachElse?
  rw [alike.run]
  split
  · generalize attachToLast? b.current branch = ops, attachToLast? b'.current branch' = ops' at attached ⊢
    cases attached with
    | none => exact .none
    | some ops => exact .some ⟨ops, alike.outer, rfl⟩
  · exact .none

theorem canAttachElse (alike : Alike units units' b b') : b.canAttachElse = b'.canAttachElse := by
  have attached := alike.attachElse? .nil
  rw [← attachElse?_isSome b [], ← attachElse?_isSome b' []]
  generalize b.attachElse? [] = here, b'.attachElse? [] = there at attached
  cases attached with
  | none => rfl
  | some _ => rfl

theorem depth (alike : Alike units units' b b') : b.depth = b'.depth :=
  congrArg (· + 1) alike.outer.length_eq

theorem finish? (alike : Alike units units' b b') :
    Option.Rel (OpsAlike units units') b.finish? b'.finish? := by
  have flushed := alike.flush
  unfold Builder.finish?
  cases outer : b.flush.outer with
  | nil =>
    have outer' : b'.flush.outer = [] := List.forall₂_nil_left_iff.mp (outer ▸ flushed.outer)
    simp only [outer, outer']
    exact .some flushed.current
  | cons around rest =>
    obtain ⟨around', rest', _, _, outer'⟩ := List.forall₂_cons_left_iff.mp (outer ▸ flushed.outer)
    simp only [outer, outer']
    exact .none

end Alike

end Builder

end Stencil
