import Stencil.Proofs.Recital.Script

/-! What ops say, and what the operations of a builder add to what it has said. -/

set_option autoImplicit false

namespace Stencil

open Json (Value)

namespace Recital

section
variable (m : Meaning) (model : Value) (units : List CodeUnit)

mutual

/-- What an op says, its handles being those of the units. -/
def sayOp : Op → Recital → Recited
  | .text content, r => .ok (r.write content)
  | .expression unit, r =>
    match units[unit]? with
    | some unit => r.print m model unit.source
    | none => .error .senseless
  | .conditional condition body otherwise, r =>
    match units[condition]? with
    | some unit => do
      let r ← r.choose m model unit.source fun r => sayOps body r
      sayOtherwise otherwise r
    | none => .error .senseless

def sayOtherwise : Option (List Op) → Recital → Recited
  | some branch, r => r.otherwise fun r => sayOps branch r
  | none, r => .ok r

def sayOps : List Op → Recital → Recited
  | [], r => .ok r
  | op :: rest, r => do
    let r ← sayOp op r
    sayOps rest r

end

theorem sayOps_append (first rest : List Op) (r : Recital) :
    sayOps m model units (first ++ rest) r =
      (sayOps m model units first r).bind (sayOps m model units rest) := by
  induction first generalizing r with
  | nil => rfl
  | cons op first ih =>
    simp only [List.cons_append, sayOps, bind, Except.bind]
    split
    · rfl
    · exact ih _

theorem sayOps_concat (ops : List Op) (op : Op) (r : Recital) :
    sayOps m model units (ops ++ [op]) r =
      (sayOps m model units ops r).bind (sayOp m model units op) := by
  rw [sayOps_append]
  congr 1
  funext r
  cases said : sayOp m model units op r <;> simp [sayOps, said, bind, Except.bind]

theorem sayOps_attachToLast {ops branch attached : List Op}
    (h : Builder.attachToLast? ops branch = some attached) (r : Recital) :
    sayOps m model units attached r =
      (sayOps m model units ops r).bind fun r => r.otherwise fun r => sayOps m model units branch r := by
  unfold Builder.attachToLast? at h
  split at h
  · -- The choice is the last op, and has no second branch yet.
    rename_i condition body last
    cases h
    obtain ⟨earlier, same⟩ := List.getLast?_eq_some_iff.1 last
    subst same
    simp only [List.dropLast_concat, sayOps_concat, sayOp, sayOtherwise]
    cases sayOps m model units earlier r with
    | error halt => rfl
    | ok r =>
      cases units[condition]? with
      | none => rfl
      | some unit =>
        simp only [bind, Except.bind]
        cases r.choose m model unit.source fun r => sayOps m model units body r <;> rfl
  · cases h

end

end Recital

namespace Builder

variable (m : Meaning) (model : Value) (units : List CodeUnit)

/-- What has been written to the current sequence, the run of text included. -/
def said (b : Builder) (r : Recital) : Recited :=
  (Recital.sayOps m model units b.current r).map fun r => r.write b.run

theorem said_write (b : Builder) (text : String) (r : Recital) :
    (b.write text).said m model units r = (b.said m model units r).map fun r => r.write text := by
  simp only [said, write]
  cases Recital.sayOps m model units b.current r with
  | error halt => rfl
  | ok r => simp only [Except.map, Recital.write_write]

theorem sayOps_flush (b : Builder) (r : Recital) :
    Recital.sayOps m model units b.flush.current r = b.said m model units r := by
  -- A run without text becomes no op, and writing it would have changed nothing.
  by_cases nothing : b.run = ""
  · simp only [flush, nothing, if_true, said, Recital.write_empty]
    cases Recital.sayOps m model units b.current r <;> rfl
  · simp only [flush, nothing, if_false, Recital.sayOps_concat, said]
    cases Recital.sayOps m model units b.current r <;> rfl

theorem said_of_run_empty (b : Builder) (nothing : b.run = "") (r : Recital) :
    b.said m model units r = Recital.sayOps m model units b.current r := by
  simp only [said, nothing, Recital.write_empty]
  cases Recital.sayOps m model units b.current r <;> rfl

theorem said_flush (b : Builder) (r : Recital) : b.flush.said m model units r = b.said m model units r := by
  rw [said_of_run_empty m model units b.flush b.flush_run, sayOps_flush]

theorem said_emit (b : Builder) (op : Op) (r : Recital) :
    (b.emit op).said m model units r = (b.said m model units r).bind (Recital.sayOp m model units op) := by
  rw [said_of_run_empty _ _ _ _ (by simp [emit])]
  simp only [emit, Recital.sayOps_concat, sayOps_flush]

theorem said_attachElse {b attached : Builder} {branch : List Op} (h : b.attachElse? branch = some attached)
    (r : Recital) :
    attached.said m model units r =
      (b.said m model units r).bind fun r => r.otherwise fun r => Recital.sayOps m model units branch r := by
  unfold attachElse? at h
  split at h
  · rename_i nothing
    obtain ⟨ops, last, same⟩ := Option.map_eq_some_iff.1 h
    subst same
    rw [said_of_run_empty m model units b nothing, said_of_run_empty m model units { b with current := ops } nothing]
    exact Recital.sayOps_attachToLast m model units last r
  · cases h

theorem attachElse_outer {b attached : Builder} {branch : List Op}
    (h : b.attachElse? branch = some attached) : attached.outer = b.outer := by
  unfold attachElse? at h
  split at h
  · obtain ⟨ops, _, same⟩ := Option.map_eq_some_iff.1 h
    rw [← same]
  · cases h

theorem said_pushScope (b : Builder) (r : Recital) : b.pushScope.said m model units r = .ok r := by
  rw [said_of_run_empty _ _ _ _ (by simp [pushScope])]
  rfl

/-- Closing a scope opened from `b` gives what `b` had said, and hands over the ops of the scope. -/
theorem popScope_of_outer {b inner : Builder} (h : inner.outer = b.pushScope.outer) :
    inner.popScope = (b.flush, some inner.flush.current) := by
  have opened : inner.flush.outer = b.flush.current :: b.outer := by simpa [pushScope] using h
  have same : b.flush = { current := b.flush.current, outer := b.outer, run := "" } := by
    rw [← flush_outer b, ← flush_run b]
  simp only [popScope, opened, flush_run]
  rw [← same]

end Builder

end Stencil
