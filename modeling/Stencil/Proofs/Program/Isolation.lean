import Stencil.Proofs.Program.Batch
import Stencil.Proofs.Program.Messages

/-! One unit's mistakes stay with it.

What the interpreter tells of a unit does not depend on the code of another one, unless a string is left open in
front of it or the code of the other unit names the first one behind an `fn`. The two programs differ in a block
that does not name the unit; so what they tell of it stands in the same order, and only at other places.
-/

set_option autoImplicit false

namespace Stencil

namespace Program

/-! ### A program around a block -/

/-- What is told of a name in front of a block (`false`) and behind it (`true`). -/
def aroundBlock (functions : List Function) (name : String) (front back : List Char) : List (Bool × Finding) :=
  (findingsOf name (accountOf functions front).survey.findings).map (false, ·) ++
    (findingsOf name (accountOf functions back).survey.findings).map (true, ·) ++
      ((findingsOf name (accountOf functions front).strays).map (false, ·) ++
        (findingsOf name (accountOf functions back).strays).map (true, ·))

def placeAround (near far : Nat) : Bool × Finding → Finding
  | (false, finding) => finding.move near
  | (true, finding) => finding.move far

theorem findingsOf_append (name : String) (first rest : List Finding) :
    findingsOf name (first ++ rest) = findingsOf name first ++ findingsOf name rest :=
  List.filter_append _ _

theorem findingsOf_move (name : String) (distance : Nat) (findings : List Finding) :
    findingsOf name (findings.map (Finding.move distance)) =
      (findingsOf name findings).map (Finding.move distance) := by
  rw [findingsOf, List.filter_map]
  rfl

section

variable {functions : List Function} {head front block back : List Char}

/-- Whether a text is a block, or all that follows. -/
def IsMiddle (block back : List Char) : Prop := IsBlock block ∨ IsHeaded (marks block) ∧ back = []

theorem IsMiddle.headed (middle : IsMiddle block back) (last : IsHeaded (marks back)) :
    IsHeaded (marks (block ++ back)) := by
  rcases middle with block | ⟨headed, rfl⟩
  · rw [block.separate.marks_append]
    exact block.headed.append last
  · rw [List.append_nil]
    exact headed

theorem IsMiddle.accountOf_append (middle : IsMiddle block back) (last : IsHeaded (marks back)) :
    accountOf functions (block ++ back) =
      (accountOf functions block).append ((accountOf functions back).move (byteLength block)) := by
  rcases middle with block | ⟨_, rfl⟩
  · exact Program.accountOf_append block last
  · rw [accountOf_of_marks_nil marks_nil, List.append_nil]
    simp [Account.append, Account.move, Survey.append, Survey.move, Survey.empty]

theorem accountOf_around (begins : IsBlock head) (none : marks head = []) (first : IsBlock front)
    (middle : IsMiddle block back) (last : IsHeaded (marks back)) :
    accountOf functions (head ++ (front ++ (block ++ back))) =
      ((accountOf functions front).move (byteLength head)).append
        (((accountOf functions block).move (byteLength front + byteLength head)).append
          ((accountOf functions back).move (byteLength block + byteLength front + byteLength head))) := by
  have second := middle.headed last
  have third : IsHeaded (marks (front ++ (block ++ back))) := by
    rw [first.separate.marks_append]
    exact first.headed.append second
  rw [accountOf_append begins third, accountOf_of_marks_nil none, Account.append_empty,
    accountOf_append first second, middle.accountOf_append last]
  simp only [Account.move_append, Account.move_move, Nat.add_assoc]

variable {name : String}

/-- What is told of a name that the block does not name is told of the parts around it. -/
theorem findingsOf_around (begins : IsBlock head) (none : marks head = []) (first : IsBlock front)
    (middle : IsMiddle block back) (last : IsHeaded (marks back))
    (silent : name ∉ namedIn block) :
    findingsOf name (accountOf functions (head ++ (front ++ (block ++ back)))).findings =
      (aroundBlock functions name front back).map
        (placeAround (byteLength head) (byteLength block + byteLength front + byteLength head)) := by
  have other : findingsOf name (accountOf functions block).findings = [] := by
    rw [findingsOf, List.filter_eq_nil_iff]
    intro finding member carries
    exact silent ((finding_accountOf member).1 name (by simpa using carries))
  rw [Account.findings, findingsOf_append, List.append_eq_nil_iff] at other
  rw [accountOf_around begins none first middle last]
  simp only [Account.append, Account.move, Account.findings, Survey.append, Survey.move, findingsOf_append,
    findingsOf_move, other.1, other.2, List.map_nil, List.nil_append, aroundBlock, List.map_append, List.map_map,
    List.append_assoc]
  rfl

theorem count_around (begins : IsBlock head) (none : marks head = []) (first : IsBlock front)
    (middle : IsMiddle block back) (last : IsHeaded (marks back))
    (silent : name ∉ namedIn block) :
    ((accountOf functions (head ++ (front ++ (block ++ back)))).survey.declarations.map Declaration.name).count name =
      ((accountOf functions front).survey.declarations.map Declaration.name).count name +
        ((accountOf functions back).survey.declarations.map Declaration.name).count name := by
  have other : ((accountOf functions block).survey.declarations.map Declaration.name).count name = 0 :=
    List.count_eq_zero.mpr fun member => silent ((declared_accountOf functions block).subset member)
  have names : ∀ (distance : Nat) (a : Account),
      (a.move distance).survey.declarations.map Declaration.name = a.survey.declarations.map Declaration.name := by
    intro distance a
    simp only [Account.move, Survey.move, List.map_map]
    rfl
  rw [accountOf_around begins none first middle last]
  simp only [Account.append, Survey.append, List.map_append, List.count_append, names, other, Nat.zero_add]

def startAround (near far size : Nat) : Bool × Finding → Nat
  | (back, finding) =>
    match finding.fault.span with
    | some span => span.start + if back then far else near
    | none => size

theorem start_placeAround (source : String) (near far : Nat) (placed : Bool × Finding) :
    (Finding.diagnostic source (placeAround near far placed)).start =
      startAround near far source.utf8ByteSize placed := by
  obtain ⟨back, finding, span, problem⟩ := placed
  cases back <;> cases span <;> rfl

theorem start_of_mem_aroundBlock {placed : Bool × Finding} (member : placed ∈ aroundBlock functions name front back) :
    ∀ span ∈ placed.2.fault.span, span.start < if placed.1 then byteLength back else byteLength front := by
  have within : ∀ (text : List Char) (finding : Finding) (findings : List Finding),
      findings ⊆ (accountOf functions text).findings → finding ∈ findingsOf name findings →
        ∀ span ∈ finding.fault.span, span.start < byteLength text := fun text finding findings part member =>
    (finding_accountOf (part (List.mem_filter.mp member).1)).2
  simp only [aroundBlock, List.mem_append, List.mem_map] at member
  rcases member with (⟨finding, member, rfl⟩ | ⟨finding, member, rfl⟩) | (⟨finding, member, rfl⟩ | ⟨finding, member, rfl⟩)
  · exact within front finding _ (List.subset_append_left _ _) member
  · exact within back finding _ (List.subset_append_left _ _) member
  · exact within front finding _ (List.subset_append_right _ _) member
  · exact within back finding _ (List.subset_append_right _ _) member

/-- The parts keep their order, however far apart they are. -/
theorem startAround_le_iff {near far size near' far' size' : Nat} {a b : Bool × Finding}
    (apart : near + byteLength front ≤ far) (apart' : near' + byteLength front ≤ far')
    (ends : size = far + byteLength back) (ends' : size' = far' + byteLength back)
    (memberA : a ∈ aroundBlock functions name front back) (memberB : b ∈ aroundBlock functions name front back) :
    startAround near far size a ≤ startAround near far size b ↔
      startAround near' far' size' a ≤ startAround near' far' size' b := by
  have withinA := start_of_mem_aroundBlock memberA
  have withinB := start_of_mem_aroundBlock memberB
  obtain ⟨backA, _, spanA, _⟩ := a
  obtain ⟨backB, _, spanB, _⟩ := b
  -- A finding is in one of the parts, or at the end of the text.
  cases spanA with
  | none =>
    cases spanB with
    | none => simp [startAround]
    | some y =>
      have := withinB y rfl
      cases backB <;> simp only [startAround, Bool.false_eq_true, if_false, if_true] at this ⊢ <;> omega
  | some x =>
    have := withinA x rfl
    cases spanB with
    | none => cases backA <;> simp only [startAround, Bool.false_eq_true, if_false, if_true] at this ⊢ <;> omega
    | some y =>
      have := withinB y rfl
      cases backA <;> cases backB <;>
        simp only [startAround, Bool.false_eq_true, if_false, if_true] at * <;> omega

/-- Whether a program text has the given parts around a block that does not name a unit. -/
def IsAround (name : String) (front back : List Char) (source : String) : Prop :=
  ∃ head block, source.toList = head ++ (front ++ (block ++ back)) ∧ IsBlock head ∧ marks head = [] ∧
    IsMiddle block back ∧ name ∉ namedIn block

/-- Two programs that differ in such blocks have the same to tell of the unit. -/
theorem messagesOf_around {request request' : Request} (same : request.references = request'.references)
    (first : IsBlock front) (last : IsHeaded (marks back)) (around : IsAround name front back request.source)
    (around' : IsAround name front back request'.source) :
    messagesOf name (diagnosticsOf (interpreter request)) =
      messagesOf name (diagnosticsOf (interpreter request')) := by
  obtain ⟨head, block, text, begins, none, middle, silent⟩ := around
  obtain ⟨head', block', text', begins', none', middle', silent'⟩ := around'
  have length := byteLength_toList request.source
  have length' := byteLength_toList request'.source
  rw [text] at length
  rw [text'] at length'
  simp only [byteLength_append] at length length'
  rw [messagesOf_interpreter, messagesOf_interpreter, text, text', same,
    findingsOf_around begins none first middle last silent,
    findingsOf_around begins' none' first middle' last silent',
    count_around begins none first middle last silent, count_around begins' none' first middle' last silent',
    List.map_map, List.map_map]
  congr 1
  refine map_mergeSort_alike (fun a memberA b memberB => ?_) fun a _ => ?_
  · simp only [Function.comp_def, start_placeAround]
    rw [decide_eq_decide]
    exact startAround_le_iff (by omega) (by omega) (by omega) (by omega) memberA memberB
  · obtain ⟨back, finding⟩ := a
    cases back <;> rfl

end

end Program

end Stencil
