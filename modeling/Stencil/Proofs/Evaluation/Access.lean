import Stencil.Program.Resolve
import Stencil.Proofs.Evaluation.Arithmetic

/-! Members and indexes.

Whether a value is a part of the model or was made on the way makes no difference to what is found in it.
-/

set_option autoImplicit false

namespace Stencil.Program

open Json (Value Number)

/-! ### Borrowed and owned values -/

theorem fst_removeMember (key : String) (members : List (String × Value)) :
    (removeMember key members).1 = members.lookup key := by
  induction members with
  | nil => rfl
  | cons m rest ih =>
    obtain ⟨k, v⟩ := m
    rw [removeMember, List.lookup_cons]
    by_cases here : key = k
    · rw [if_pos here, beq_iff_eq.mpr here]
    · rw [if_neg here, beq_eq_false_iff_ne.mpr here]
      exact ih

theorem positionIn_of_none {n : Number} (long : n.asInt? = none) (length : Nat) : positionIn n length = .error () := by
  rw [positionIn, long]

theorem positionIn_of_some {α : Type} {n : Number} {i : Int} (short : n.asInt? = some i) (items : List α) :
    (itemAt? items i = none ∧ positionIn n items.length = .ok none) ∨
      ∃ position : Fin items.length, itemAt? items i = some (items.get position) ∧
        positionIn n items.length = .ok (some position) := by
  rw [positionIn, short, itemAt?]
  by_cases inside : 0 ≤ i ∧ i.toNat < items.length
  · exact .inr ⟨⟨i.toNat, inside.2⟩, by simp [inside], by simp [inside]⟩
  · refine .inl ⟨?_, by simp [inside]⟩
    split
    next nonneg => exact List.getElem?_eq_none (not_lt.mp fun less => inside ⟨nonneg, less⟩)
    next => rfl

theorem eq_int_of_asInt? {n : Number} {i : Int} (short : n.asInt? = some i) : n = .int i ∧ inRange i = true := by
  cases n with
  | int n =>
    rw [asInt?_int] at short
    split at short
    next fits =>
      obtain rfl := Option.some_inj.mp short
      exact ⟨rfl, fits⟩
    next => exact absurd short (Option.some_ne_none i).symm
  | float x => exact absurd short (Option.some_ne_none i).symm

/-- No text is as long as the greatest position. -/
theorem positionIn_longest {n : Number} {i : Int} (short : n.asInt? = some i) (chars : List Char) :
    (itemAt? chars i = none ∧ positionIn n longest = .ok none) ∨
      ∃ position : Fin longest, itemAt? chars i = chars[position.val]? ∧
        positionIn n longest = .ok (some position) := by
  have fits := inRange_iff.mp (eq_int_of_asInt? short).2
  have long : longest = 2 ^ 64 - 1 := rfl
  rw [positionIn, short, itemAt?]
  by_cases nonneg : 0 ≤ i
  · have inside : 0 ≤ i ∧ i.toNat < longest := ⟨nonneg, by omega⟩
    exact .inr ⟨⟨i.toNat, inside.2⟩, by rw [if_pos nonneg], by simp [inside]⟩
  · exact .inl ⟨if_neg nonneg, by simp [nonneg]⟩

theorem Held.map_member (target : Held) (property : String) :
    (target.member property).map Held.value = memberOf target.value property := by
  cases target with
  | borrowed value =>
    cases value with
    | object members =>
      rw [Held.member, Held.value, memberOf]
      cases members.lookup property <;> rfl
    | _ => rfl
  | owned value =>
    cases value with
    | object members =>
      rw [Held.member, fst_removeMember]
      rfl
    | _ => rfl

-- What is under a position does not depend on how it is taken: both items are the one that the position reads.
theorem Held.map_index_array {n : Number} (items : List Value) :
    ((Held.borrowed (.array items)).index (.number n)).map Held.value = indexOf (.array items) (.number n) ∧
      ((Held.owned (.array items)).index (.number n)).map Held.value = indexOf (.array items) (.number n) := by
  simp only [Held.index, indexOf, positionOf?]
  cases short : n.asInt? with
  | none =>
    rw [positionIn_of_none short]
    exact ⟨rfl, rfl⟩
  | some i =>
    obtain ⟨item, found⟩ | ⟨position, item, found⟩ := positionIn_of_some short items <;>
      rw [found] <;> simp only [item] <;> exact ⟨rfl, rfl⟩

theorem Held.map_index_string {n : Number} (s : String) :
    ((Held.borrowed (.string s)).index (.number n)).map Held.value = indexOf (.string s) (.number n) ∧
      ((Held.owned (.string s)).index (.number n)).map Held.value = indexOf (.string s) (.number n) := by
  simp only [Held.index, indexOf, positionOf?]
  cases short : n.asInt? with
  | none =>
    rw [positionIn_of_none short]
    exact ⟨rfl, rfl⟩
  | some i =>
    obtain ⟨item, found⟩ | ⟨position, item, found⟩ := positionIn_longest short s.toList <;>
      rw [found] <;> simp only [item] <;> exact ⟨rfl, rfl⟩

theorem Held.map_index (target : Held) (index : Value) :
    (target.index index).map Held.value = indexOf target.value index := by
  cases index with
  | number n =>
    cases target with
    | borrowed value =>
      cases value with
      | array items => exact (Held.map_index_array items).1
      | string s => exact (Held.map_index_string s).1
      | _ => rfl
    | owned value =>
      cases value with
      | array items => exact (Held.map_index_array items).2
      | string s => exact (Held.map_index_string s).2
      | _ => rfl
  | string key =>
    cases target with
    | borrowed value =>
      cases value with
      | object members => exact Held.map_member (.borrowed (.object members)) key
      | _ => rfl
    | owned value =>
      cases value with
      | object members => exact Held.map_member (.owned (.object members)) key
      | _ => rfl
  | _ =>
    cases target with
    | borrowed value => cases value <;> rfl
    | owned value => cases value <;> rfl

/-! ### Whole expressions -/

theorem bind_map_value {α β : Type} {x : Except EvalError Held} {y : Except EvalError Value}
    {f : Held → Except EvalError α} {g : Value → Except EvalError β} {h : α → β} (same : x.map Held.value = y)
    (next : ∀ held : Held, (f held).map h = g held.value) : (x >>= f).map h = y >>= g := by
  subst same
  cases x with
  | error error => rfl
  | ok held => exact next held

theorem map_map_owned (x : Except EvalError Value) : (x.map Held.owned).map Held.value = x := by
  cases x <;> rfl

mutual

theorem map_resolve (model : Value) : ∀ e : Expr, (resolve model e).map Held.value = evaluate model e
  | .literal value => rfl
  | .model => rfl
  | .member object property => by
    rw [resolve, evaluate]
    exact bind_map_value (map_resolve model object) fun target => target.map_member property
  | .index object index => by
    rw [resolve, evaluate]
    refine bind_map_value (map_resolve model object) fun target => ?_
    exact bind_map_value (map_resolve model index) fun index => target.map_index index.value
  -- What is called, negated or compared is computed from values, and owned.
  | .call f arguments => by
    rw [resolve, evaluate, resolveAll_eq model arguments]
    cases evaluateAll model arguments with
    | error error => rfl
    | ok values => exact map_map_owned _
  | .unary op operand => by
    rw [resolve, evaluate]
    exact bind_map_value (map_resolve model operand) fun held => map_map_owned _
  | .binary op left right => by
    -- The right operand counts only where the left one does not decide, for both operators in the same way.
    have second : ((resolve model right >>= fun b => expectBool b.value >>= fun answer =>
          Except.ok (Held.owned (.bool answer))).map Held.value) =
        evaluate model right >>= fun b => expectBool b >>= fun answer => .ok (.bool answer) :=
      bind_map_value (map_resolve model right) fun b => by cases expectBool b.value <;> rfl
    cases op with
    | both =>
      rw [resolve, evaluate]
      refine bind_map_value (map_resolve model left) fun a => ?_
      cases expectBool a.value with
      | error error => rfl
      | ok answer =>
        cases answer with
        | true => exact second
        | false => rfl
    | either =>
      rw [resolve, evaluate]
      refine bind_map_value (map_resolve model left) fun a => ?_
      cases expectBool a.value with
      | error error => rfl
      | ok answer =>
        cases answer with
        | true => rfl
        | false => exact second
    | _ =>
      rw [resolve, evaluate_binary (by decide)]
      · refine bind_map_value (map_resolve model left) fun a => ?_
        exact bind_map_value (map_resolve model right) fun b => map_map_owned _
      all_goals simp

theorem resolveAll_eq (model : Value) : ∀ es : List Expr, resolveAll model es = evaluateAll model es
  | [] => rfl
  | e :: rest => by
    rw [resolveAll, evaluateAll, resolveAll_eq model rest, ← map_resolve model e]
    cases resolve model e <;> rfl

end

/-! ### Chains of steps -/

/-- A step from a value to a part of it. -/
inductive Access where
  | member (property : String)
  | index (index : Expr)

def Access.onto (e : Expr) : Access → Expr
  | .member property => .member e property
  | .index place => .index e place

def Expr.through (e : Expr) (steps : List Access) : Expr := steps.foldl Access.onto e

variable {model : Value} {e e' index : Expr} {steps : List Access}

theorem evaluate_through_congr (same : evaluate model e = evaluate model e') :
    evaluate model (e.through steps) = evaluate model (e'.through steps) := by
  induction steps generalizing e e' with
  | nil => exact same
  | cons step steps ih =>
    refine ih ?_
    cases step with
    | member property => rw [Access.onto, Access.onto, evaluate, evaluate, same]
    | index index => rw [Access.onto, Access.onto, evaluate, evaluate, same]

theorem evaluate_through_null (null : evaluate model e = .ok .null)
    (indexes : ∀ index, .index index ∈ steps → ∃ value, evaluate model index = .ok value) :
    evaluate model (e.through steps) = .ok .null := by
  induction steps generalizing e with
  | nil => exact null
  | cons step steps ih =>
    refine ih ?_ fun index member => indexes index (.tail _ member)
    cases step with
    | member property =>
      rw [Access.onto, evaluate, null]
      rfl
    | index index =>
      obtain ⟨value, evaluated⟩ := indexes index (.head _)
      rw [Access.onto, evaluate, null, evaluated]
      rfl

theorem evaluate_index {target value : Value} (found : evaluate model e = .ok target)
    (at_ : evaluate model index = .ok value) : evaluate model (.index e index) = indexOf target value := by
  rw [evaluate, found, at_]
  rfl

theorem itemAt?_eq {α : Type} (items : List α) (i : Int) :
    itemAt? items i = if h : 0 ≤ i ∧ i.toNat < items.length then some items[i.toNat] else none := by
  rw [itemAt?]
  by_cases nonneg : 0 ≤ i
  · rw [if_pos nonneg]
    split
    next inside => exact List.getElem?_eq_getElem inside.2
    next outside => exact List.getElem?_eq_none (not_lt.mp fun less => outside ⟨nonneg, less⟩)
  · rw [if_neg nonneg, dif_neg fun inside => nonneg inside.1]

theorem positionOf?_int (i : Int) : positionOf? (.int i) = if inRange i = true then some i else none := asInt?_int i

section

variable {i : Int} (at_ : evaluate model index = .ok (.ofInt i))

include at_

theorem evaluate_index_array {items : List Value} (found : evaluate model e = .ok (.array items))
    (short : inRange i = true) :
    evaluate model (.index e index) =
      .ok (if h : 0 ≤ i ∧ i.toNat < items.length then items[i.toNat] else .null) := by
  rw [evaluate_index found at_, Value.ofInt]
  simp only [indexOf, positionOf?_int, if_pos short, itemAt?_eq]
  split <;> rfl

theorem evaluate_index_string {s : String} (found : evaluate model e = .ok (.string s)) (short : inRange i = true) :
    evaluate model (.index e index) =
      .ok (if h : 0 ≤ i ∧ i.toNat < s.toList.length then .string s.toList[i.toNat].toString else .null) := by
  rw [evaluate_index found at_, Value.ofInt]
  simp only [indexOf, positionOf?_int, if_pos short, itemAt?_eq]
  split <;> rfl

theorem evaluate_index_long {target : Value} (found : evaluate model e = .ok target)
    (kind : target.kind = .array ∨ target.kind = .string) (long : inRange i = false) :
    evaluate model (.index e index) = .error (.invalidIndex target.kind .number) := by
  have place : positionOf? (.int i) = none := by
    rw [positionOf?_int, long]
    rfl
  rw [evaluate_index found at_, Value.ofInt]
  cases target with
  | array items => simp only [indexOf, place, Value.kind]
  | string s => simp only [indexOf, place, Value.kind]
  | _ => rcases kind with kind | kind <;> cases kind

end

variable (model) in
/-- A step comes to the same from a borrowed target as from an owned one: to the part that is there, or to `null`.
Only a position beyond 64 signed bits fails. -/
theorem access_uniform :
    (∀ e : Expr, (resolve model e).map Held.value = evaluate model e) ∧
    (∀ target target' : Held, target.value = target'.value →
      (∀ property, (target.member property).map Held.value = (target'.member property).map Held.value) ∧
        ∀ index, (target.index index).map Held.value = (target'.index index).map Held.value) ∧
    (∀ (e e' : Expr) (steps : List Access), evaluate model e = evaluate model e' →
      evaluate model (e.through steps) = evaluate model (e'.through steps)) ∧
    (∀ (e : Expr) (members : List (String × Value)) (key : String), evaluate model e = .ok (.object members) →
      evaluate model (.member e key) = .ok ((members.lookup key).getD .null) ∧
        ∀ index, evaluate model index = .ok (.string key) →
          evaluate model (.index e index) = .ok ((members.lookup key).getD .null)) ∧
    (∀ (e index : Expr) (i : Int), evaluate model index = .ok (.ofInt i) → inRange i = true →
      (∀ items : List Value, evaluate model e = .ok (.array items) → evaluate model (.index e index) =
        .ok (if h : 0 ≤ i ∧ i.toNat < items.length then items[i.toNat] else .null)) ∧
      (∀ s : String, evaluate model e = .ok (.string s) → evaluate model (.index e index) =
        .ok (if h : 0 ≤ i ∧ i.toNat < s.toList.length then .string s.toList[i.toNat].toString else .null))) ∧
    (∀ (e index : Expr) (i : Int) (target : Value), evaluate model index = .ok (.ofInt i) → inRange i = false →
      evaluate model e = .ok target → target.kind = .array ∨ target.kind = .string →
        evaluate model (.index e index) = .error (.invalidIndex target.kind .number)) ∧
    ∀ (e : Expr) (steps : List Access), evaluate model e = .ok .null →
      (∀ index, .index index ∈ steps → ∃ value, evaluate model index = .ok value) →
        evaluate model (e.through steps) = .ok .null := by
  refine ⟨map_resolve model, fun target target' same => ⟨fun property => ?_, fun index => ?_⟩,
    fun _ _ _ => evaluate_through_congr, fun e members key found => ⟨?_, fun index at_ => ?_⟩,
    fun e index i at_ short => ⟨fun items found => evaluate_index_array at_ found short,
      fun s found => evaluate_index_string at_ found short⟩,
    fun e index i target at_ long found kind => evaluate_index_long at_ found kind long,
    fun _ _ => evaluate_through_null⟩
  · rw [Held.map_member, Held.map_member, same]
  · rw [Held.map_index, Held.map_index, same]
  · rw [evaluate, found]
    rfl
  · rw [evaluate_index found at_]
    rfl

theorem access_uniform_missing :
    evaluate (.object [("n", .ofInt 3)]) (.member .model "user") = .ok .null ∧
      evaluate (.object [("n", .ofInt 3)]) (.member (.index (.member .model "user") (.member .model "n")) "name") =
        .ok .null := by
  obtain ⟨-, -, -, -, -, -, chain⟩ := access_uniform (.object [("n", .ofInt 3)])
  refine ⟨rfl, chain (.member .model "user") [.index (.member .model "n"), .member "name"] rfl fun index member => ?_⟩
  obtain rfl : index = .member .model "n" := by simpa using member
  exact ⟨.ofInt 3, rfl⟩

/-- A position behind the end of an array comes to `null`, but fails when it is too long for 64 signed bits. -/
theorem long_position_fails :
    evaluate (.object [("a", .array [.ofInt 1, .ofInt 2]), ("n", .ofInt (2 ^ 63 - 1))])
        (.index (.member .model "a") (.member .model "n")) = .ok .null ∧
      evaluate (.object [("a", .array [.ofInt 1, .ofInt 2]), ("n", .ofInt (2 ^ 63))])
        (.index (.member .model "a") (.member .model "n")) = .error (.invalidIndex .array .number) :=
  ⟨rfl, rfl⟩

end Stencil.Program
