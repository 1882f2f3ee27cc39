import Stencil.Ops.Basic

/-! Building a sequence of ops.

Text is gathered into one run until an op or a change of scope ends the run. A scope holds the sequence of one
branch of a conditional; the innermost scope takes what is written, and the outermost one is always there.
-/

set_option autoImplicit false

namespace Stencil

/-- The sequence being written, those of the scopes around it, innermost first, and the text not yet written
as an op. -/
structure Builder where
  current : List Op
  outer : List (List Op)
  run : String
  deriving Repr

namespace Builder

def empty : Builder := { current := [], outer := [], run := "" }

def depth (b : Builder) : Nat := b.outer.length + 1

def write (b : Builder) (text : String) : Builder := { b with run := b.run ++ text }

def flush (b : Builder) : Builder :=
  if b.run = "" then b else { b with current := b.current ++ [.text b.run], run := "" }

@[simp] theorem flush_run (b : Builder) : b.flush.run = "" := by
  by_cases nothing : b.run = "" <;> simp [flush, nothing]

@[simp] theorem flush_outer (b : Builder) : b.flush.outer = b.outer := by
  by_cases nothing : b.run = "" <;> simp [flush, nothing]

theorem flush_flush (b : Builder) : b.flush.flush = b.flush := if_pos b.flush_run

def emit (b : Builder) (op : Op) : Builder :=
  let b := b.flush
  { b with current := b.current ++ [op] }

def expression (b : Builder) (unit : Nat) : Builder := b.emit (.expression unit)

def conditional (b : Builder) (condition : Nat) (body : List Op) : Builder :=
  b.emit (.conditional condition body none)

def pushScope (b : Builder) : Builder :=
  let b := b.flush
  { b with current := [], outer := b.current :: b.outer }

/-- Closes the innermost sequence and hands it over, unless it is the outermost. -/
def popScope (b : Builder) : Builder × Option (List Op) :=
  let b := b.flush
  match b.outer with
  | [] => (b, none)
  | around :: outer => ({ b with current := around, outer }, some b.current)

def canAttachElse (b : Builder) : Bool :=
  b.run = "" && match b.current.getLast? with
    | some op => op.isOpenConditional
    | none => false

def attachToLast? (ops branch : List Op) : Option (List Op) :=
  match ops.getLast? with
  | some (.conditional condition body none) =>
    some (ops.dropLast ++ [.conditional condition body (some branch)])
  | _ => none

def attachElse? (b : Builder) (branch : List Op) : Option Builder :=
  if b.run = "" then (attachToLast? b.current branch).map fun ops => { b with current := ops } else none

def finish? (b : Builder) : Option (List Op) :=
  let b := b.flush
  match b.outer with
  | [] => some b.current
  | _ :: _ => none

theorem attachElse?_isSome (b : Builder) (branch : List Op) :
    (b.attachElse? branch).isSome = b.canAttachElse := by
  unfold attachElse? canAttachElse attachToLast?
  by_cases written : b.run = ""
  · simp only [written, if_true, decide_true, Bool.true_and, Option.isSome_map]
    cases b.current.getLast? with
    | none => rfl
    | some op =>
      cases op with
      | text _ => rfl
      | expression _ => rfl
      | conditional _ _ otherwise => cases otherwise <;> rfl
  · simp [written]

end Builder

end Stencil
