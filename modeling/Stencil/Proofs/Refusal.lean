import Stencil.Ops.Calls

/-! What a refused call leaves behind in a builder.

A branch that is handed back leaves nothing behind. A scope that cannot be closed ends the run of text all the same, so
that text behind the refused call does not join the text in front of it. Nothing else comes of it: no answer to any
later call is another one, and the finished sequences differ in that one place.
-/

set_option autoImplicit false

namespace Stencil.Builder

/-! ### Ops in front of all others -/

def under (base : List Op) : List (List Op) → List (List Op)
  | [] => []
  | [root] => [base ++ root]
  | ops :: around :: outer => ops :: under base (around :: outer)

/-- A builder with ops in front of all that it has. -/
def onto (base : List Op) (b : Builder) : Builder :=
  match b.outer with
  | [] => { b with current := base ++ b.current }
  | around :: outer => { b with outer := under base (around :: outer) }

def Shut (base : List Op) : Prop := ∀ last ∈ base.getLast?, last.isOpenConditional = false

section

variable {base : List Op} (b : Builder)

theorem onto_run : (b.onto base).run = b.run := by
  unfold onto
  split <;> rfl

theorem onto_depth : (b.onto base).depth = b.depth := by
  have length : ∀ outer : List (List Op), (under base outer).length = outer.length := by
    intro outer
    fun_induction under base outer with
    | case1 => rfl
    | case2 root => rfl
    | case3 ops around outer ih => exact congrArg (· + 1) ih
  unfold onto depth
  split
  · rfl
  · rename_i around outer same
    rw [same]
    exact congrArg (· + 1) (length _)

theorem write_onto (text : String) : (b.onto base).write text = (b.write text).onto base := by
  obtain ⟨current, outer, run⟩ := b
  cases outer <;> rfl

theorem flush_onto : (b.onto base).flush = b.flush.onto base := by
  obtain ⟨current, outer, run⟩ := b
  by_cases silent : run = "" <;> cases outer <;> simp [onto, flush, silent]

theorem emit_onto (op : Op) : (b.onto base).emit op = (b.emit op).onto base := by
  unfold emit
  rw [flush_onto]
  obtain ⟨current, outer, run⟩ := b.flush
  cases outer <;> simp [onto]

theorem pushScope_onto : (b.onto base).pushScope = b.pushScope.onto base := by
  unfold pushScope
  rw [flush_onto]
  obtain ⟨current, outer, run⟩ := b.flush
  cases outer <;> rfl

theorem popScope_onto : (b.onto base).popScope = (b.popScope.1.onto base, b.popScope.2) := by
  unfold popScope
  rw [flush_onto]
  obtain ⟨current, outer, run⟩ := b.flush
  match outer with
  | [] => rfl
  | [_] => rfl
  | _ :: _ :: _ => rfl

theorem attachToLast?_append (shut : Shut base) (ops branch : List Op) :
    attachToLast? (base ++ ops) branch = (attachToLast? ops branch).map (base ++ ·) := by
  rcases List.eq_nil_or_concat ops with rfl | ⟨front, last, rfl⟩
  · rw [List.append_nil]
    unfold attachToLast?
    split
    · rename_i condition body last
      exact absurd (shut _ last) (by simp [Op.isOpenConditional])
    · rfl
  · simp only [attachToLast?, List.concat_eq_append, ← List.append_assoc, List.getLast?_concat, List.dropLast_concat]
    split
    · simp
    · rfl

theorem attachElse?_onto (shut : Shut base) (branch : List Op) :
    (b.onto base).attachElse? branch = (b.attachElse? branch).map (onto base) := by
  obtain ⟨current, outer, run⟩ := b
  by_cases silent : run = ""
  · cases outer with
    | nil =>
      simp only [attachElse?, onto, silent, if_true, attachToLast?_append shut, Option.map_map]
      rfl
    | cons around outer =>
      simp only [attachElse?, onto, silent, if_true, Option.map_map]
      rfl
  · have written : (onto base ⟨current, outer, run⟩).run ≠ "" := by rwa [onto_run]
    simp [attachElse?, written, silent]

theorem canAttachElse_onto (shut : Shut base) : (b.onto base).canAttachElse = b.canAttachElse := by
  rw [← attachElse?_isSome _ [], ← attachElse?_isSome _ [], attachElse?_onto b shut, Option.isSome_map]

/-- No call looks at what stands in front of all, or changes it. -/
theorem perform_onto (shut : Shut base) (call : Call) :
    (b.onto base).perform call = ((b.perform call).1.onto base, (b.perform call).2) := by
  cases call with
  | write text => exact congrArg (·, Answer.done) (write_onto b text)
  | writeChar c => exact congrArg (·, Answer.done) (write_onto b _)
  | expression unit => exact congrArg (·, Answer.done) (emit_onto b _)
  | conditional condition body => exact congrArg (·, Answer.done) (emit_onto b _)
  | pushScope => exact congrArg (·, Answer.done) (pushScope_onto b)
  | popScope =>
    simp only [perform, popScope_onto]
    obtain ⟨next, closed⟩ := b.popScope
    cases closed with
    | none => simp only [onto_depth]
    | some ops => rfl
  | attachElse branch =>
    simp only [perform, attachElse?_onto b shut]
    cases b.attachElse? branch <;> rfl
  | canAttachElse => simp only [perform, canAttachElse_onto b shut]
  | depth => simp only [perform, onto_depth]

theorem performAll_onto (shut : Shut base) (calls : List Call) :
    (b.onto base).performAll calls = ((b.performAll calls).1.onto base, (b.performAll calls).2) := by
  induction calls generalizing b with
  | nil => rfl
  | cons call rest ih => simp only [performAll, perform_onto b shut, ih]

theorem finish_onto : (b.onto base).finish = b.finish.map (base ++ ·) := by
  unfold finish finish?
  rw [flush_onto, onto_depth]
  obtain ⟨current, outer, run⟩ := b.flush
  cases outer with
  | nil => rfl
  | cons around outer =>
    cases outer <;> rfl

end

/-! ### Text that goes on -/

def textOps (text : String) : List Op := if text = "" then [] else [.text text]

/-- The text that calls go on with, until one of them ends it. -/
def writtenOn : List Call → String
  | .write text :: rest => text ++ writtenOn rest
  | .writeChar c :: rest => String.singleton c ++ writtenOn rest
  | .attachElse _ :: rest => writtenOn rest
  | .canAttachElse :: rest => writtenOn rest
  | .depth :: rest => writtenOn rest
  | .expression _ :: _ => ""
  | .conditional _ _ :: _ => ""
  | .pushScope :: _ => ""
  | .popScope :: _ => ""
  | [] => ""

def Call.EndsRun : Call → Prop
  | .expression _ => True
  | .conditional _ _ => True
  | .pushScope => True
  | .popScope => True
  | _ => False

theorem perform_flush (b : Builder) {call : Call} (ends : call.EndsRun) : b.flush.perform call = b.perform call := by
  cases call with
  | expression unit => simp only [perform, expression, emit, flush_flush]
  | conditional condition body => simp only [perform, conditional, emit, flush_flush]
  | pushScope => simp only [perform, pushScope, flush_flush]
  | popScope => simp only [perform, popScope, flush_flush]
  | _ => cases ends

theorem flush_of_run (front : List Op) (run : String) :
    (⟨front, [], run⟩ : Builder).flush = empty.onto (front ++ textOps run) := by
  by_cases silent : run = "" <;> simp [flush, onto, empty, textOps, silent]

theorem finish_of_run (front : List Op) (run : String) :
    (⟨front, [], run⟩ : Builder).finish = .ok (front ++ textOps run) := by
  by_cases silent : run = "" <;> simp [finish, finish?, flush, textOps, silent]

theorem writtenOn_of_endsRun {call : Call} (ends : call.EndsRun) (rest : List Call) :
    writtenOn (call :: rest) = "" := by
  cases call with
  | expression unit => rfl
  | conditional condition body => rfl
  | pushScope => rfl
  | popScope => rfl
  | _ => cases ends

theorem shut_concat_text (front : List Op) (text : String) : Shut (front ++ [.text text]) := by
  intro last member
  obtain rfl : Op.text text = last := by simpa using member
  rfl

theorem shut_text_textOps (front : List Op) (first more : String) : Shut (front ++ [.text first] ++ textOps more) := by
  unfold textOps
  split
  · rw [List.append_nil]
    exact shut_concat_text front first
  · exact shut_concat_text _ more

theorem attachElse?_of_shut {b : Builder} (shut : b.run = "" → Shut b.current) (branch : List Op) :
    b.attachElse? branch = none := by
  unfold attachElse?
  split
  · rename_i silent
    have none := attachToLast?_append (shut silent) [] branch
    rw [List.append_nil] at none
    rw [none]
    rfl
  · rfl

theorem canAttachElse_of_shut {b : Builder} (shut : b.run = "" → Shut b.current) : b.canAttachElse = false := by
  rw [← attachElse?_isSome b [], attachElse?_of_shut shut]
  rfl

/-- What ends the run of text leaves all that was written in front of what comes next. -/
theorem performAll_of_endsRun {front : List Op} {run : String} (shut : Shut (front ++ textOps run)) {call : Call}
    (ends : call.EndsRun) (rest : List Call) :
    (⟨front, [], run⟩ : Builder).performAll (call :: rest) =
      ((empty.performAll (call :: rest)).1.onto (front ++ textOps run), (empty.performAll (call :: rest)).2) := by
  have flushed : (⟨front, [], run⟩ : Builder).performAll (call :: rest) =
      (⟨front, [], run⟩ : Builder).flush.performAll (call :: rest) := by
    simp only [performAll, perform_flush _ ends]
  rw [flushed, flush_of_run, performAll_onto _ shut]

/-- Two runs of calls with the same answers, after which the finished sequences are the same but that a text stands in
one piece or in two. -/
structure Divides (front : List Op) (first more : String) (whole divided : Builder × List Answer) : Prop where
  answers : divided.2 = whole.2
  finished : ∃ rest : Except CompileError (List Op),
    whole.1.finish = rest.map (fun ops => front ++ [.text (first ++ more)] ++ ops) ∧
      divided.1.finish = rest.map fun ops => front ++ [.text first] ++ textOps more ++ ops

theorem Divides.cons {front : List Op} {first more : String} {whole divided next next' : Builder} {call : Call}
    {answer : Answer} {rest : List Call} (here : whole.perform call = (next, answer))
    (there : divided.perform call = (next', answer))
    (divides : Divides front first more (next.performAll rest) (next'.performAll rest)) :
    Divides front first more (whole.performAll (call :: rest)) (divided.performAll (call :: rest)) := by
  simp only [performAll, here, there]
  exact ⟨congrArg (answer :: ·) divides.answers, divides.finished⟩

section

variable {first : String} (filled : first ≠ "") (front : List Op)

include filled

theorem textOps_append (more : String) : textOps (first ++ more) = [.text (first ++ more)] :=
  if_neg fun none => filled (String.append_eq_empty_iff.mp none).1

theorem divides_of_endsRun (said : String) {call : Call} (ends : call.EndsRun) (rest : List Call) :
    Divides front first said ((⟨front, [], first ++ said⟩ : Builder).performAll (call :: rest))
      ((⟨front ++ [.text first], [], said⟩ : Builder).performAll (call :: rest)) := by
  have ops := textOps_append filled said
  have shut : Shut (front ++ textOps (first ++ said)) := ops ▸ shut_concat_text front _
  have whole := performAll_of_endsRun shut ends rest
  have divided := performAll_of_endsRun (shut_text_textOps front first said) ends rest
  rw [whole, divided, ops]
  exact ⟨rfl, _, finish_onto _, finish_onto _⟩

theorem divides (said : String) (calls : List Call) :
    Divides front first (said ++ writtenOn calls) ((⟨front, [], first ++ said⟩ : Builder).performAll calls)
      ((⟨front ++ [.text first], [], said⟩ : Builder).performAll calls) := by
  have shut (said : String) : (⟨front, [], first ++ said⟩ : Builder).run = "" → Shut front := fun none =>
    absurd (String.append_eq_empty_iff.mp none).1 filled
  have shut' (said : String) :
      (⟨front ++ [.text first], [], said⟩ : Builder).run = "" → Shut (front ++ [.text first]) :=
    fun _ => shut_concat_text front first
  -- By the calls, as long as neither builder has a conditional at its end and both go on with the same text.
  induction calls generalizing said with
  | nil =>
    rw [writtenOn, String.append_empty]
    refine ⟨rfl, .ok [], ?_, ?_⟩
    · rw [performAll, finish_of_run, textOps_append filled]
      simp [Except.map]
    · rw [performAll, finish_of_run]
      simp [Except.map]
  | cons call rest ih =>
    by_cases ends : call.EndsRun
    · -- The text is written out in front of the op, in one piece or in two, and no longer told apart from then on.
      rw [writtenOn_of_endsRun ends, String.append_empty]
      exact divides_of_endsRun filled front said ends rest
    cases call with
    | write text =>
      have goes := ih (said ++ text)
      rw [String.append_assoc] at goes
      exact goes.cons (by rw [perform, write, String.append_assoc]) rfl
    | writeChar c =>
      have goes := ih (said ++ String.singleton c)
      rw [String.append_assoc] at goes
      exact goes.cons (by rw [perform, write, String.append_assoc]) rfl
    | attachElse branch =>
      -- A text is the last op of both builders, or is about to be, so that both refuse the branch.
      have here := attachElse?_of_shut (shut said) branch
      have there := attachElse?_of_shut (shut' said) branch
      exact (ih said).cons (by rw [perform, here]) (by rw [perform, there])
    | canAttachElse =>
      have here := canAttachElse_of_shut (shut said)
      have there := canAttachElse_of_shut (shut' said)
      exact (ih said).cons (by rw [perform, here]) (by rw [perform, there])
    | depth => exact (ih said).cons rfl rfl
    | expression unit => exact absurd trivial ends
    | conditional condition body => exact absurd trivial ends
    | pushScope => exact absurd trivial ends
    | popScope => exact absurd trivial ends

end

theorem Divides.finish_eq_iff {front : List Op} {first more : String} {whole divided : Builder × List Answer}
    (divides : Divides front first more whole divided) :
    divided.1.finish = whole.1.finish ↔ more = "" ∨ ∃ error, whole.1.finish = .error error := by
  obtain ⟨rest, same, same'⟩ := divides.finished
  rw [same, same']
  cases rest with
  | error error => exact ⟨fun _ => .inr ⟨error, rfl⟩, fun _ => rfl⟩
  | ok ops =>
    constructor
    · intro alike
      have lists := Except.ok.inj alike
      simp only [List.append_assoc, List.append_cancel_left_eq, List.singleton_append] at lists
      have text : first = first ++ more := Op.text.inj (List.cons.inj lists).1
      have length := congrArg String.length text
      rw [String.length_append] at length
      exact .inl (String.length_eq_zero_iff.mp (by omega))
    · rintro (rfl | ⟨error, impossible⟩)
      · rw [String.append_empty, textOps, if_pos rfl, List.append_nil]
      · cases impossible

/-! ### Calls that are refused -/

section

variable (b : Builder)

theorem depth_eq_one_iff : b.depth = 1 ↔ b.outer = [] := by
  rw [depth, Nat.add_eq_right, List.length_eq_zero_iff]

theorem perform_attachElse (branch : List Op) :
    (b.canAttachElse = true → (b.perform (.attachElse branch)).2 = .attached) ∧
      (b.canAttachElse = false → b.perform (.attachElse branch) = (b, .returned branch)) := by
  rw [← attachElse?_isSome b branch, perform]
  cases b.attachElse? branch with
  | none => exact ⟨nofun, fun _ => rfl⟩
  | some next => exact ⟨fun _ => rfl, nofun⟩

theorem perform_popScope :
    (b.outer = [] → b.perform .popScope = (b.flush, .misaligned (.stackMisaligned 0))) ∧
      (b.outer ≠ [] → ∃ ops, (b.perform .popScope).2 = .closed ops) := by
  rw [perform, popScope, ← b.flush_outer]
  cases scopes : b.flush.outer with
  | nil =>
    refine ⟨fun _ => ?_, fun some_ => absurd rfl some_⟩
    simp [depth, b.flush_outer.symm.trans scopes]
  | cons around outer => exact ⟨nofun, fun _ => ⟨_, rfl⟩⟩

end

/-- What cannot be done is refused with nothing changed, but for a scope that is not open: to close it ends the run of
text, so that text behind the refused call stands by itself. -/
theorem refusal_traced (before after : List Call) :
    let b := (empty.performAll before).1
    let late := (b.perform .popScope).1
    let whole := b.performAll after
    let divided := late.performAll after
    (∀ branch, (b.canAttachElse = true → (b.perform (.attachElse branch)).2 = .attached) ∧
      (b.canAttachElse = false → b.perform (.attachElse branch) = (b, .returned branch))) ∧
    (b.depth ≠ 1 → ∃ ops, (b.perform .popScope).2 = .closed ops) ∧
    (b.depth = 1 → (b.perform .popScope).2 = .misaligned (.stackMisaligned 0) ∧ divided.2 = whole.2 ∧
      (b.run = "" → late = b) ∧
      (b.run ≠ "" → ∃ rest : Except CompileError (List Op),
        whole.1.finish = rest.map (fun ops => b.current ++ [.text (b.run ++ writtenOn after)] ++ ops) ∧
        divided.1.finish = rest.map fun ops => b.current ++ [.text b.run] ++ textOps (writtenOn after) ++ ops) ∧
      (divided.1.finish = whole.1.finish ↔
        b.run = "" ∨ writtenOn after = "" ∨ ∃ error, whole.1.finish = .error error)) := by
  intro b late whole divided
  have pop := perform_popScope b
  refine ⟨perform_attachElse b, fun open_ => pop.2 fun none => open_ ((depth_eq_one_iff b).mpr none), fun none => ?_⟩
  have outer := (depth_eq_one_iff b).mp none
  have refused := pop.1 outer
  have ended : late = b.flush := congrArg Prod.fst refused
  -- All that a refused call does is to end the run of text, so that nothing is to be seen of it if there is none.
  by_cases silent : b.run = ""
  · have same : late = b := by rw [ended, flush, if_pos silent]
    have alike : divided = whole := congrArg (·.performAll after) same
    exact ⟨congrArg Prod.snd refused, congrArg Prod.snd alike, fun _ => same, fun some_ => absurd silent some_,
      fun _ => .inl silent, fun _ => congrArg (·.1.finish) alike⟩
  · have divided_ : Divides b.current b.run (writtenOn after) whole divided := by
      obtain ⟨current, scopes, run⟩ := b
      obtain rfl : scopes = [] := outer
      have goes := divides silent current "" after
      rw [String.empty_append, String.append_empty] at goes
      rwa [show divided = _ from congrArg (·.performAll after) (ended.trans (if_neg silent))]
    exact ⟨congrArg Prod.snd refused, divided_.answers, fun none => absurd none silent, fun _ => divided_.finished,
      divided_.finish_eq_iff.trans (by simp [silent])⟩

/-- Text in front of a refused call and text behind it are two ops, which would be one without the call. -/
theorem refused_close_divides :
    let b := (empty.performAll [.write "a"]).1
    (b.perform .popScope).2 = .misaligned (.stackMisaligned 0) ∧
      (b.performAll [.write "b"]).1.finish = .ok [.text "ab"] ∧
      ((b.perform .popScope).1.performAll [.write "b"]).1.finish = .ok [.text "a", .text "b"] ∧
      ((b.perform .popScope).1.performAll [.write "b"]).1.finish ≠ (b.performAll [.write "b"]).1.finish := by
  refine ⟨rfl, rfl, rfl, ?_⟩
  show (Except.ok [Op.text "a", .text "b"] : Except CompileError (List Op)) ≠ .ok [.text "ab"]
  simp

theorem refusal_traced_text :
    let b := (empty.performAll [.write "a"]).1
    let after := [.write "b", .expression 0]
    b.depth = 1 ∧ b.run ≠ "" ∧ ((b.perform .popScope).1.performAll after).2 = (b.performAll after).2 ∧
      ∃ rest : Except CompileError (List Op),
        (b.performAll after).1.finish = rest.map (fun ops => [.text "ab"] ++ ops) ∧
        ((b.perform .popScope).1.performAll after).1.finish = rest.map fun ops => [.text "a", .text "b"] ++ ops := by
  intro b after
  obtain ⟨-, -, closed⟩ := refusal_traced [.write "a"] after
  obtain ⟨-, answers, -, finished, -⟩ := closed rfl
  exact ⟨rfl, by decide, answers, finished (by decide)⟩

end Stencil.Builder
