import Mathlib.Algebra.Order.BigOperators.Group.List
import Mathlib.Algebra.Order.Ring.Nat
import Stencil.Proofs.Template.Concatenation
import Stencil.Proofs.Template.Lines
import Stencil.Proofs.Template.Values
import Stencil.Script.Attributes

/-! Interpolations in quoted values.

A quoted value with interpolations is read as one expression, which is the text of its interpolations with the literal
text between them. In that text an escaped opening is an opening, and nothing else is done to it; of a value without
interpolations all escapes are resolved, and its quotes are written as entities. The two come to the same exactly where
a text has no quotes, and no escapes but those in front of an opening.
-/

set_option autoImplicit false

namespace Stencil

open Json (Value)
open Program

namespace Template

/-! ### Texts between quotes -/

def resolved (text : List Char) : List Char := (unescape text).flatMap Script.escapeQuote

/-- Whether a text has no quotes, and backslashes only where they escape an opening; one more in front of such a
backslash does not count. -/
def isPlain : List Char → Bool
  | '\\' :: '#' :: '{' :: rest => isPlain rest
  | '\\' :: '\\' :: '#' :: '{' :: rest => isPlain rest
  | c :: rest => c ≠ '\\' && c ≠ '"' && isPlain rest
  | [] => true

theorem escapeQuote_of_ne {c : Char} (other : c ≠ '"') : Script.escapeQuote c = [c] := if_neg other

theorem not_mem_resolved (text : List Char) : '"' ∉ resolved text := by
  rw [resolved, List.mem_flatMap]
  rintro ⟨c, _, member⟩
  by_cases quote : c = '"'
  · rw [quote] at member
    exact absurd member (by decide)
  · rw [escapeQuote_of_ne quote, List.mem_singleton] at member
    exact quote member.symm

theorem count_resolved (text : List Char) : (resolved text).count '\\' = (unescape text).count '\\' := by
  rw [resolved]
  induction unescape text with
  | nil => rfl
  | cons c rest ih =>
    rw [List.flatMap_cons, List.count_append, ih, List.count_cons]
    by_cases quote : c = '"'
    · rw [quote, show (Script.escapeQuote '"').count '\\' = 0 by decide]
      simp
    · rw [escapeQuote_of_ne quote, List.count_singleton]
      omega

theorem unprotected_cons {c : Char} (other : c ≠ '\\') (rest : List Char) :
    unprotected (c :: rest) = c :: unprotected rest := by
  rw [unprotected]
  exact fun _ same _ => other same

theorem isPlain_cons {c : Char} (other : c ≠ '\\') (rest : List Char) :
    isPlain (c :: rest) = (decide (c ≠ '"') && isPlain rest) := by
  rw [isPlain]
  · simp [other]
  · exact fun _ same _ => other same
  · exact fun _ same _ => other same

/-- A backslash is taken away in front of an opening, and one more in front of that stands for itself; any other one
stays. -/
theorem escape_cases (c : Char) (rest : List Char) :
    (unprotected ('\\' :: c :: rest) = c :: unprotected rest ∧ isPlain ('\\' :: c :: rest) = isPlain rest ∧ c ≠ '"') ∨
      unprotected ('\\' :: c :: rest) = '\\' :: c :: unprotected rest ∧ isPlain ('\\' :: c :: rest) = false := by
  by_cases opening : ∃ more, c :: rest = '#' :: '{' :: more
  · obtain ⟨more, same⟩ := opening
    cases same
    rw [unprotected, isPlain, unprotected_cons (by decide), isPlain_cons (by decide)]
    exact .inl ⟨rfl, rfl, by decide⟩
  have kept : unprotected ('\\' :: c :: rest) = '\\' :: unprotected (c :: rest) := by
    rw [unprotected]
    exact fun more _ same => opening ⟨more, same⟩
  by_cases escaped : ∃ more, c :: rest = '\\' :: '#' :: '{' :: more
  · obtain ⟨more, same⟩ := escaped
    cases same
    rw [kept, unprotected, isPlain, unprotected_cons (by decide), unprotected_cons (by decide), isPlain_cons (by decide),
      isPlain_cons (by decide)]
    exact .inl ⟨rfl, rfl, by decide⟩
  · refine .inr ⟨?_, ?_⟩
    · rw [kept, unprotected]
      exact fun more first same => escaped ⟨more, by rw [first, same]⟩
    · rw [isPlain]
      · simp
      · exact fun more _ same => opening ⟨more, same⟩
      · exact fun more _ same => escaped ⟨more, same⟩

/-- A text is told by its escapes: a backslash takes the character behind it along. -/
theorem escape_induction {motive : List Char → Prop} (nil : motive []) (single : motive ['\\'])
    (escape : ∀ c rest, motive rest → motive ('\\' :: c :: rest))
    (plain : ∀ c rest, c ≠ '\\' → motive rest → motive (c :: rest)) (text : List Char) : motive text := by
  fun_induction unescape text with
  | case1 c rest ih => exact escape c rest ih
  | case2 => exact single
  | case3 c rest pair alone ih =>
    refine plain c rest ?_ ih
    rintro rfl
    cases rest with
    | nil => exact alone rfl rfl
    | cons d rest => exact pair d rest rfl rfl
  | case4 => exact nil

theorem unescape_cons {c : Char} (other : c ≠ '\\') (rest : List Char) : unescape (c :: rest) = c :: unescape rest := by
  rw [unescape]
  · exact fun _ _ same _ => other same
  · exact fun same _ => other same

/-- Resolving all escapes leaves no more backslashes than there are without those in front of openings. -/
theorem count_unescape_le (text : List Char) : (unescape text).count '\\' ≤ (unprotected text).count '\\' := by
  induction text using escape_induction with
  | nil => exact Nat.le_refl _
  | single => exact Nat.zero_le _
  | escape c rest ih =>
    rw [unescape]
    obtain ⟨same, _⟩ | ⟨same, _⟩ := escape_cases c rest <;> simp only [same, List.count_cons] <;> omega
  | plain c rest other ih =>
    rw [unescape_cons other, unprotected_cons other, List.count_cons, List.count_cons]
    omega

theorem isPlain_of_count_eq {text : List Char} (quotes : '"' ∉ unprotected text)
    (same : (unescape text).count '\\' = (unprotected text).count '\\') : isPlain text := by
  induction text using escape_induction with
  | nil => rfl
  | single => cases same
  | escape c rest ih =>
    have fewer := count_unescape_le rest
    rw [unescape] at same
    obtain ⟨written, plain, _⟩ | ⟨written, _⟩ := escape_cases c rest
    · rw [written, List.mem_cons, not_or] at quotes
      rw [written, List.count_cons, List.count_cons] at same
      rw [plain]
      exact ih quotes.2 (by omega)
    · -- An escape that is not one of an opening loses a backslash, and no other one makes up for it.
      simp only [written, List.count_cons, beq_self_eq_true, if_true] at same
      omega
  | plain c rest other ih =>
    rw [unprotected_cons other, List.mem_cons, not_or] at quotes
    rw [unescape_cons other, unprotected_cons other, List.count_cons, List.count_cons] at same
    rw [isPlain_cons other, ih quotes.2 (by omega)]
    simp [Ne.symm quotes.1]

theorem resolved_of_isPlain {text : List Char} (plain : isPlain text) : resolved text = unprotected text := by
  induction text using escape_induction with
  | nil => rfl
  | single => cases plain
  | escape c rest ih =>
    obtain ⟨written, same, quote⟩ | ⟨_, faulty⟩ := escape_cases c rest
    · rw [resolved, unescape, List.flatMap_cons, escapeQuote_of_ne quote, written, ← ih (same ▸ plain)]
      rfl
    · rw [faulty] at plain
      cases plain
  | plain c rest other ih =>
    rw [isPlain_cons other, Bool.and_eq_true, decide_eq_true_eq] at plain
    rw [resolved, unescape_cons other, List.flatMap_cons, escapeQuote_of_ne plain.1, unprotected_cons other, ← ih plain.2]
    rfl

/-! ### Segments as one expression -/

def literalTrees (content : List Char) : List Expr :=
  if content = [] then [] else [.literal (.string (String.ofList content))]

theorem denotes_literalTrees (functions : List Function) (content : List Char) :
    List.Forall₂ (Segment.Denotes functions) (literalSegments content) (literalTrees content) := by
  unfold literalSegments literalTrees
  split
  · exact .nil
  · exact .cons (.literal content) .nil

section
variable (model : Value)

theorem joined_cons (e : Expr) (trees : List Expr) : ((e :: trees).mapM (textFor model)).map String.join = (do
    let written ← textFor model e
    let behind ← (trees.mapM (textFor model)).map String.join
    return written ++ behind) := by
  rw [List.mapM_cons]
  cases textFor model e with
  | error error => rfl
  | ok written => cases trees.mapM (textFor model) <;> simp [Except.map, bind, Except.bind, pure, Except.pure]

theorem joined_literalTrees (content : List Char) (trees : List Expr) :
    ((literalTrees content ++ trees).mapM (textFor model)).map String.join =
      ((trees.mapM (textFor model)).map String.join).map (String.ofList content ++ ·) := by
  unfold literalTrees
  split
  · rename_i none
    rw [List.nil_append, none]
    cases trees.mapM (textFor model) <;> simp [Except.map]
  · have literal : textFor model (.literal (.string (String.ofList content))) = .ok (String.ofList content) := rfl
    rw [List.singleton_append, joined_cons, literal]
    cases trees.mapM (textFor model) <;> rfl

end

/-- The expression that segments are read as, if not all of them are literal. -/
def sourceOf : List Segment → List Char
  | [.variable path] => path
  | segments => concatenation segments

theorem quotedValue_of_segments {line : Nat} {raw : List Char} {segments : List Segment}
    (split : splitSegments line raw = .ok segments) (mixed : ¬ segments.all Segment.isLiteral) :
    quotedValue line raw = .ok (.eval (String.ofList (sourceOf segments)) line) := by
  simp only [quotedValue, split, bind, Except.bind]
  split
  · rfl
  · rename_i several
    rw [if_neg mixed, sourceOf]
    · rfl
    · exact several

theorem splitSegments_alone {text : List Char} (closed : isProtected text) (line : Nat) :
    splitSegments line text = .ok (literalSegments (unprotected text)) := by
  have split := splitSegments_protected line closed (.inl rfl)
  rw [List.append_nil, splitSegments] at split
  rw [split, ← foldr_consChar_nil]
  rfl

theorem quotedValue_literal {text : List Char} (closed : isProtected text) (line : Nat) :
    quotedValue line text = .ok (.text (String.ofList (unescape text)) line) := by
  simp only [quotedValue, splitSegments_alone closed line, bind, Except.bind, literalSegments]
  by_cases none : unprotected text = []
  · rw [if_pos none]
    rfl
  · rw [if_neg none]
    rfl

section
variable {functions : List Function} {segments : List Segment} {trees : List Expr}

theorem exists_isExpression_sourceOf (denote : List.Forall₂ (Segment.Denotes functions) segments trees)
    (some_ : segments ≠ []) : ∃ e, IsExpression functions (String.ofList (sourceOf segments)) e ∧
      ∀ model, textFor model e = (trees.mapM (textFor model)).map String.join := by
  unfold sourceOf
  split
  · rename_i path
    obtain _ | @⟨_, e, _, trees, ⟨⟩ | ⟨is⟩, ⟨⟩⟩ := denote
    refine ⟨e, is.expression, fun model => ?_⟩
    rw [joined_cons]
    cases textFor model e <;> simp [Except.map, bind, Except.bind, pure, Except.pure]
  · refine ⟨_, isExpression_concatenation denote some_, fun model => ?_⟩
    rw [textFor, evaluate_sumOf]
    cases trees.mapM (textFor model) <;> rfl

theorem exists_operands_end (some_ : segments ≠ []) : ∃ front last,
    List.intercalate " + ".toList (segments.map Segment.operand) = front ++ [last] ∧ Text.isBlank last = false := by
  induction segments with
  | nil => exact absurd rfl some_
  | cons segment segments ih =>
    cases segments with
    | nil =>
      rw [List.map_singleton, List.intercalate_singleton]
      cases segment with
      | literal content => exact ⟨_, '"', rfl, by decide⟩
      | «variable» path => exact ⟨_, ')', rfl, by decide⟩
    | cons next segments =>
      obtain ⟨front, last, same, visible⟩ := ih (List.cons_ne_nil _ _)
      refine ⟨segment.operand ++ " + ".toList ++ front, last, ?_, visible⟩
      rw [List.map_cons, List.map_cons, List.intercalate_cons_cons, ← List.map_cons, same]
      simp

theorem trim_sourceOf (some_ : segments ≠ []) (trimmed : ∀ path, .variable path ∈ segments → Text.trim path = path) :
    Text.trim (sourceOf segments) = sourceOf segments := by
  unfold sourceOf
  split
  · exact trimmed _ List.mem_cons_self
  · obtain ⟨front, last, same, visible⟩ := exists_operands_end some_
    have text : concatenation segments = '"' :: (['"', ' ', '+', ' '] ++ front ++ [last]) := by
      have sign : "\"\" + ".toList = ['"', '"', ' ', '+', ' '] := rfl
      rw [concatenation, sign, same]
      simp
    rw [text, Text.trim_between (by decide) visible]

end

/-! ### Operands inside braces -/

section
variable {functions : List Function} {path inner : List Char} {e : Expr}

theorem IsOperand.isExpressionText (is : IsOperand functions path e) (line : '\n' ∉ path) :
    IsExpressionText { parameter := "model", functions } path where
  line := line
  lexes := is.expression.clean
  uncommented := is.uncommented
  reads := ⟨e, is.expression.whole.outcome⟩
  whole := is.expression.whole.rest

theorem IsOperand.ne_nil (is : IsOperand functions path e) : path ≠ [] := by
  rintro rfl
  have nothing : (tokenize (String.ofList [])).1 = [] := by with_unfolding_all rfl
  exact readExpr_nil { parameter := "model", functions } e (nothing ▸ is.expression.whole.outcome)

theorem IsOperand.paired (is : IsOperand functions (Text.trim inner) e) (line : '\n' ∉ inner) :
    Paired (fun _ => false) false inner := by
  obtain ⟨before, after, same, blank, blank'⟩ := Text.exists_trim inner
  have inside : '\n' ∉ Text.trim inner := fun member =>
    line (same ▸ List.mem_append_right _ (List.mem_append_left _ member))
  have paired := (paired_expression (is.isExpressionText inside)).loosen
  have solid {text : List Char} (blank : ∀ c ∈ text, Text.isBlank c) : Paired (fun _ => false) false text :=
    .of_solid (fun c member => isSolid_of_isBlank (blank c member)) fun _ _ => .inr rfl
  rw [same]
  exact (solid blank).append (paired.append (solid blank'))

end

/-! ### Values with interpolations -/

/-- A quoted value: a literal text at its end, and in front of it interpolations, each with the literal text before it,
with what is written between its braces and with the tree of its expression. -/
inductive Quotation where
  | literal (text : List Char)
  | part (text inner : List Char) (e : Expr) (rest : Quotation)

namespace Quotation

def raw : Quotation → List Char
  | .literal text => text
  | .part text inner _ rest => text ++ '#' :: '{' :: (inner ++ '}' :: rest.raw)

def literals : Quotation → List (List Char)
  | .literal text => [text]
  | .part text _ _ rest => text :: rest.literals

def segments : Quotation → List Segment
  | .literal text => literalSegments (unprotected text)
  | .part text inner _ rest => literalSegments (unprotected text) ++ .variable (Text.trim inner) :: rest.segments

/-- The text of the value for a model, where `treat` says what becomes of a literal text. -/
def told (treat : List Char → List Char) (model : Value) : Quotation → Except EvalError (List Char)
  | .literal text => .ok (treat text)
  | .part text _ e rest => do
    let written ← textFor model e
    let behind ← rest.told treat model
    return treat text ++ (written.toList ++ behind)

/-- Whether the literal texts of a value are literal, and each expression is one by itself, without comments, and has the
tree that is given for it. -/
inductive Reads (functions : List Function) : Quotation → Prop
  | literal {text : List Char} (closed : isProtected text) : Reads functions (.literal text)
  | part {text inner : List Char} {e : Expr} {rest : Quotation} (closed : isProtected text)
    (free : text.getLast? ≠ some '\\') (is : IsOperand functions (Text.trim inner) e) (after : Reads functions rest) :
    Reads functions (.part text inner e rest)

def IsMixed (q : Quotation) : Prop := ∀ text, q ≠ .literal text

/-! What different treatments of the literal texts come to. -/

section
variable {treat treat' : List Char → List Char} {model : Value} {q : Quotation} {told told' : List Char}

theorem told_congr (same : ∀ text ∈ q.literals, treat text = treat' text) : q.told treat model = q.told treat' model := by
  induction q with
  | literal text => rw [Quotation.told, Quotation.told, same text List.mem_cons_self]
  | part text inner e rest ih =>
    rw [literals, List.forall_mem_cons] at same
    rw [Quotation.told, Quotation.told, ih same.2, same.1]

theorem count_told (c : Char) (first : q.told treat model = .ok told) (second : q.told treat' model = .ok told') :
    told.count c + (q.literals.map fun text => (treat' text).count c).sum =
      told'.count c + (q.literals.map fun text => (treat text).count c).sum := by
  induction q generalizing told told' with
  | literal text =>
    cases first
    cases second
    simp [literals, Nat.add_comm]
  | part text inner e rest ih =>
    obtain ⟨written, value, first⟩ := ok_of_bind first
    obtain ⟨behind, told, first⟩ := ok_of_bind first
    obtain ⟨written', value', second⟩ := ok_of_bind second
    obtain ⟨behind', told', second⟩ := ok_of_bind second
    -- Both tell the same of the expression, so that it counts on neither side.
    cases value.symm.trans value'
    cases first
    cases second
    have ih := ih told told'
    simp only [literals, List.map_cons, List.sum_cons, List.count_append]
    omega

/-- Treatments that tell the same, one of which leaves no more of a character in any text, leave as much of it in each. -/
theorem count_eq_of_told {c : Char} (fewer : ∀ text, (treat text).count c ≤ (treat' text).count c)
    (first : q.told treat model = .ok told) (second : q.told treat' model = .ok told) :
    ∀ text ∈ q.literals, (treat text).count c = (treat' text).count c := by
  have balance := Nat.add_left_cancel (count_told c first second)
  intro text member
  by_contra other
  exact absurd balance.symm (Nat.ne_of_lt (List.sum_lt_sum _ _ (fun text _ => fewer text)
    ⟨text, member, Nat.lt_of_le_of_ne (fewer text) other⟩))

/-- A value is told as it would be without interpolations exactly if its literal texts are plain. -/
theorem told_resolved_iff (written : q.told unprotected model = .ok told) :
    q.told resolved model = .ok told ↔ ∀ text ∈ q.literals, isPlain text := by
  constructor
  · intro same text member
    have none (text : List Char) : (resolved text).count '"' = 0 := List.count_eq_zero.mpr (not_mem_resolved text)
    have quotes := count_eq_of_told (fun text => none text ▸ Nat.zero_le _) same written text member
    have slashes := count_eq_of_told (fun text => count_resolved text ▸ count_unescape_le text) same written text member
    exact isPlain_of_count_eq (List.count_eq_zero.mp (quotes.symm.trans (none text)))
      ((count_resolved text).symm.trans slashes)
  · intro plain
    rw [← written]
    exact told_congr fun text member => resolved_of_isPlain (plain text member)

end

/-! The expression that a mixed value is read as. -/

def trees : Quotation → List Expr
  | .literal text => literalTrees (unprotected text)
  | .part text _ e rest => literalTrees (unprotected text) ++ e :: rest.trees

section
variable {functions : List Function} {q : Quotation}

theorem Reads.denotes (reads : q.Reads functions) : List.Forall₂ (Segment.Denotes functions) q.segments q.trees := by
  induction reads with
  | literal _ => exact denotes_literalTrees functions _
  | part _ _ is _ ih => exact List.rel_append (denotes_literalTrees functions _) (.cons (.variable is) ih)

theorem joined_trees (q : Quotation) (model : Value) :
    (q.trees.mapM (textFor model)).map String.join = (q.told unprotected model).map String.ofList := by
  induction q with
  | literal text =>
    have literal := joined_literalTrees model (unprotected text) []
    rw [List.append_nil] at literal
    rw [trees, literal]
    simp [told, Except.map, pure, Except.pure]
  | part text inner e rest ih =>
    rw [trees, joined_literalTrees, joined_cons, ih, told]
    cases textFor model e with
    | error error => rfl
    | ok written =>
      cases rest.told unprotected model with
      | error error => rfl
      | ok behind => simp [Except.map, bind, Except.bind, pure, Except.pure]

theorem Reads.splitSegments (reads : q.Reads functions) (single : '\n' ∉ q.raw) (line : Nat) :
    Template.splitSegments line q.raw = .ok q.segments := by
  induction reads with
  | literal closed => exact splitSegments_alone closed line
  | @part text inner e rest closed free is after ih =>
    simp only [raw, List.mem_append, List.mem_cons, not_or] at single
    obtain ⟨_, _, _, inside, _, behind⟩ := single
    rw [raw, splitSegments_protected line closed (.inr ⟨⟨_, rfl⟩, free⟩),
      splitSegments_closed ((is.paired inside).closed (by decide)) is.ne_nil, ih behind]
    exact congrArg Except.ok (foldr_consChar_variable (unprotected text) _ _)

theorem trim_of_mem_segments {path : List Char} (member : .variable path ∈ q.segments) : Text.trim path = path := by
  have literal (content : List Char) : .variable path ∉ literalSegments content := by
    unfold literalSegments
    split <;> simp
  induction q with
  | literal text => exact absurd member (literal _)
  | part text inner e rest ih =>
    simp only [segments, List.mem_append, List.mem_cons, Segment.variable.injEq] at member
    obtain front | rfl | behind := member
    · exact absurd front (literal _)
    · exact Text.trim_trim inner
    · exact ih behind

theorem exists_variable (mixed : q.IsMixed) : ∃ path, .variable path ∈ q.segments := by
  cases q with
  | literal text => exact absurd rfl (mixed text)
  | part text inner e rest => exact ⟨_, List.mem_append_right _ List.mem_cons_self⟩

/-- A mixed value is read as an expression that tells it, with nothing done to its literal texts but that their openings
are no longer escaped. -/
theorem Reads.exists_expression (reads : q.Reads functions) (mixed : q.IsMixed) (single : '\n' ∉ q.raw) :
    ∃ source e, (∀ line, quotedValue line q.raw = .ok (.eval (String.ofList source) line)) ∧
      Text.trim source = source ∧ IsExpression functions (String.ofList source) e ∧
      ∀ model, textFor model e = (q.told unprotected model).map String.ofList := by
  obtain ⟨path, member⟩ := exists_variable mixed
  have some_ : q.segments ≠ [] := List.ne_nil_of_mem member
  have varied : ¬ q.segments.all Segment.isLiteral := fun all => Bool.noConfusion (List.all_eq_true.mp all _ member)
  obtain ⟨e, is, texts⟩ := exists_isExpression_sourceOf reads.denotes some_
  exact ⟨sourceOf q.segments, e, fun line => quotedValue_of_segments (reads.splitSegments single line) varied,
    trim_sourceOf some_ fun _ member => trim_of_mem_segments member, is, fun model => by rw [texts, joined_trees]⟩

end

end Quotation

end Template

end Stencil
