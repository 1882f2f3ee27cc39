import Stencil.Proofs.Evaluation.Ordering

/-! Equality inside of arrays and objects.

Two numbers count as equal when they agree as numbers. Inside of a container they are compared by their form too: an
integer is never equal to a double there, and two long integers with the same nearest double are not equal either. All
other values are compared alike at every depth.
-/

set_option autoImplicit false

namespace Stencil

namespace Json

def Ordered (members : List (String × Value)) : Prop := members.Pairwise fun m n => m.1 < n.1

/-- A value that a model can hold. -/
inductive Value.Sound : Value → Prop
  | null : Value.Sound .null
  | bool (value : Bool) : Value.Sound (.bool value)
  | number {n : Number} (sound : n.Sound) : Value.Sound (.number n)
  | string (value : String) : Value.Sound (.string value)
  | array {items : List Value} (each : ∀ item ∈ items, item.Sound) : Value.Sound (.array items)
  | object {members : List (String × Value)} (ordered : Ordered members)
      (each : ∀ m ∈ members, m.2.Sound) : Value.Sound (.object members)

theorem Number.Sound.alike_self {n : Number} (sound : n.Sound) : n.alike n = true := by
  cases n with
  | int n => exact beq_self_eq_true n
  | float x => exact (Decimal.beq_iff_valueOf sound sound).mpr rfl

theorem allAlike_iff {as bs : List Value} :
    allAlike as bs = true ↔ List.Forall₂ (fun a b => Value.alike a b = true) as bs := by
  induction as generalizing bs with
  | nil => cases bs <;> simp [allAlike]
  | cons a as ih => cases bs <;> simp [allAlike, ih]

theorem membersAlike_iff {ms ns : List (String × Value)} :
    membersAlike ms ns = true ↔ List.Forall₂ (fun m n => m.1 = n.1 ∧ Value.alike m.2 n.2 = true) ms ns := by
  induction ms generalizing ns with
  | nil => cases ns <;> simp [membersAlike]
  | cons m ms ih => cases ns <;> simp [membersAlike, ih]

theorem Value.Sound.alike_self {v : Value} (sound : v.Sound) : v.alike v = true := by
  induction sound with
  | null => rfl
  | bool value => exact beq_self_eq_true value
  | number sound => exact sound.alike_self
  | string value => exact beq_self_eq_true value
  | array each ih => exact allAlike_iff.mpr (List.forall₂_same.mpr ih)
  | object ordered each ih => exact membersAlike_iff.mpr (List.forall₂_same.mpr fun m member => ⟨rfl, ih m member⟩)

/-! ### Members by their keys -/

section

variable {m n : String × Value} {ms ns : List (String × Value)} {R : Value → Value → Prop}

theorem lookup_eq_none_of_lt {key : String} (before : ∀ m ∈ ms, key < m.1) : ms.lookup key = none := by
  rw [List.lookup_eq_none_iff]
  intro m member
  exact bne_iff_ne.mpr (String.ne_of_lt (before m member))

theorem lookup_cons_of_ne {key : String} (other : key ≠ m.1) : (m :: ms).lookup key = ms.lookup key := by
  obtain ⟨k, v⟩ := m
  rw [List.lookup_cons, beq_eq_false_iff_ne.mpr other]

theorem lookup_cons_self : (m :: ms).lookup m.1 = some m.2 := by
  obtain ⟨k, v⟩ := m
  rw [List.lookup_cons, beq_self_eq_true]

theorem Ordered.lookup_of_lt {key : String} (ordered : Ordered (m :: ms)) (less : key < m.1) :
    (m :: ms).lookup key = none := by
  refine lookup_eq_none_of_lt fun other member => ?_
  rcases List.mem_cons.mp member with rfl | member
  · exact less
  · exact String.lt_trans less ((List.pairwise_cons.mp ordered).1 other member)

theorem not_rel_some_none {v : Value} : ¬Option.Rel R (some v) none := by
  rintro ⟨⟩

theorem not_rel_none_some {v : Value} : ¬Option.Rel R none (some v) := by
  rintro ⟨⟩

theorem forall₂_iff_lookup (hm : Ordered ms) (hn : Ordered ns) :
    List.Forall₂ (fun m n => m.1 = n.1 ∧ R m.2 n.2) ms ns ↔ ∀ key, Option.Rel R (ms.lookup key) (ns.lookup key) := by
  constructor
  · intro related key
    induction related with
    | nil => exact .none
    | @cons m n ms ns head _ ih =>
      by_cases here : key = m.1
      · rw [here, lookup_cons_self, head.1, lookup_cons_self]
        exact .some head.2
      · rw [lookup_cons_of_ne here, lookup_cons_of_ne (head.1 ▸ here)]
        exact ih (List.pairwise_cons.mp hm).2 (List.pairwise_cons.mp hn).2
  · intro related
    induction ms generalizing ns with
    | nil =>
      cases ns with
      | nil => exact .nil
      | cons n ns =>
        have first := related n.1
        rw [lookup_cons_self] at first
        exact absurd first not_rel_none_some
    | cons m ms ih =>
      have first := related m.1
      rw [lookup_cons_self] at first
      cases ns with
      | nil => exact absurd first not_rel_some_none
      | cons n ns =>
        have second := related n.1
        rw [lookup_cons_self] at second
        -- A key that comes before all the others' would be bound on one side only.
        have notBefore : ¬m.1 < n.1 := fun less => by
          rw [hn.lookup_of_lt less] at first
          exact not_rel_some_none first
        have notBehind : ¬n.1 < m.1 := fun less => by
          rw [hm.lookup_of_lt less] at second
          exact not_rel_none_some second
        have same : m.1 = n.1 := String.le_antisymm (String.not_lt.mp notBehind) (String.not_lt.mp notBefore)
        obtain ⟨beforeRest, mrest⟩ := List.pairwise_cons.mp hm
        obtain ⟨beforeRest', nrest⟩ := List.pairwise_cons.mp hn
        refine .cons ⟨same, ?_⟩ (ih mrest nrest fun key => ?_)
        · rw [same, lookup_cons_self] at first
          exact Option.rel_some_some.mp first
        · by_cases here : key = m.1
          · rw [here, lookup_eq_none_of_lt beforeRest, lookup_eq_none_of_lt (same ▸ beforeRest')]
            exact .none
          · have rest := related key
            rwa [lookup_cons_of_ne here, lookup_cons_of_ne (same ▸ here)] at rest

end

end Json

namespace Program

open Json (Number Value Ordered allAlike_iff membersAlike_iff)

/-- Equality of values inside of a container: of numbers it takes the same number in the same form, and of other
values that they count as equal. -/
def EqualInside (a b : Value) : Prop :=
  match a, b with
  | .number x, .number y => x.alike y = true
  | a, b => valuesEqual a b = true

theorem valuesEqual_eq_alike {a b : Value} (other : Num.ofValue? a = none ∨ Num.ofValue? b = none) :
    valuesEqual a b = a.alike b := by
  rw [valuesEqual]
  rcases other with other | other
  · rw [other]
  · rw [other]
    split <;> first | rfl | contradiction

theorem equalInside_iff {a b : Value} : EqualInside a b ↔ a.alike b = true := by
  cases a with
  | number x =>
    cases b with
    | number y => exact .rfl
    | _ =>
      rw [← valuesEqual_eq_alike (.inr rfl)]
      exact .rfl
  | _ =>
    rw [← valuesEqual_eq_alike (.inl rfl)]
    exact .rfl

theorem valuesEqual_array (as bs : List Value) :
    valuesEqual (.array as) (.array bs) = true ↔ List.Forall₂ EqualInside as bs := by
  have alike : valuesEqual (.array as) (.array bs) = Json.allAlike as bs := rfl
  simp only [alike, allAlike_iff, ← equalInside_iff]

theorem valuesEqual_object {ms ns : List (String × Value)} (hm : Ordered ms) (hn : Ordered ns) :
    valuesEqual (.object ms) (.object ns) = true ↔ ∀ key, Option.Rel EqualInside (ms.lookup key) (ns.lookup key) := by
  have alike : valuesEqual (.object ms) (.object ns) = Json.membersAlike ms ns := rfl
  rw [alike, membersAlike_iff, ← Json.forall₂_iff_lookup hm hn]
  simp only [equalInside_iff]

theorem equalInside_of_valuesEqual {a b : Value} (equal : valuesEqual a b = true)
    (form : ∀ x y : Number, a = .number x → b = .number y → x.alike y = true) : EqualInside a b := by
  cases a with
  | number x =>
    cases b with
    | number y => exact form x y rfl rfl
    | _ => exact equal
  | _ => exact equal

theorem EqualInside.valuesEqual {a b : Value} (ha : a.Sound) (hb : b.Sound) (equal : EqualInside a b) :
    valuesEqual a b = true := by
  cases ha with
  | @number x hx =>
    cases hb with
    | @number y hy =>
      have same : x.value = y.value := by
        cases x <;> cases y
        · rw [eq_of_beq equal]
        · exact absurd equal Bool.false_ne_true
        · exact absurd equal Bool.false_ne_true
        · exact (Decimal.beq_iff_valueOf hx hy).mp equal
      rw [(compared_eq_order hx hy).2, Number.order, compare_eq_iff_eq.mpr same]
      split <;> rfl
    | _ => exact equal
  | _ => exact equal

/-! ### Nestings -/

/-- A nesting of arrays and objects around one value. -/
inductive Nesting where
  | here
  | item (before : List Value) (inner : Nesting) (behind : List Value)
  | member (before : List (String × Value)) (key : String) (inner : Nesting) (behind : List (String × Value))

def Nesting.fill (v : Value) : Nesting → Value
  | .here => v
  | .item before inner behind => .array (before ++ inner.fill v :: behind)
  | .member before key inner behind => .object (before ++ (key, inner.fill v) :: behind)

variable {a b : Value}

theorem allAlike_fill {before behind : List Value} (each : ∀ v ∈ before ++ a :: behind, v.Sound) :
    Json.allAlike (before ++ a :: behind) (before ++ b :: behind) = a.alike b := by
  have same : ∀ v ∈ before ++ a :: behind, v.alike v = true := fun v member => (each v member).alike_self
  -- All around the place is the same on both sides, and alike to itself.
  induction before with
  | nil =>
    have rest : Json.allAlike behind behind = true :=
      allAlike_iff.mpr (List.forall₂_same.mpr fun v member => same v (.tail _ member))
    rw [List.nil_append, List.nil_append, Json.allAlike, rest, Bool.and_true]
  | cons v before ih =>
    rw [List.cons_append, List.cons_append, Json.allAlike, same v (.head _), Bool.true_and]
    exact ih (fun w member => each w (.tail _ member)) fun w member => same w (.tail _ member)

theorem membersAlike_fill {before behind : List (String × Value)} {key : String}
    (each : ∀ m ∈ before ++ (key, a) :: behind, m.2.Sound) :
    Json.membersAlike (before ++ (key, a) :: behind) (before ++ (key, b) :: behind) = a.alike b := by
  have same : ∀ m ∈ before ++ (key, a) :: behind, m.2.alike m.2 = true := fun m member => (each m member).alike_self
  induction before with
  | nil =>
    have rest : Json.membersAlike behind behind = true :=
      membersAlike_iff.mpr (List.forall₂_same.mpr fun m member => ⟨rfl, same m (.tail _ member)⟩)
    rw [List.nil_append, List.nil_append, Json.membersAlike, rest, beq_self_eq_true, Bool.true_and, Bool.and_true]
  | cons m before ih =>
    rw [List.cons_append, List.cons_append, Json.membersAlike, same m (.head _), beq_self_eq_true, Bool.true_and,
      Bool.true_and]
    exact ih (fun w member => each w (.tail _ member)) fun w member => same w (.tail _ member)

theorem alike_fill {around : Nesting} (sound : (around.fill a).Sound) :
    (around.fill a).alike (around.fill b) = a.alike b := by
  induction around with
  | here => rfl
  | item before inner behind ih =>
    cases sound with
    | array each =>
      rw [← ih (each _ (by simp))]
      exact allAlike_fill each
  | member before key inner behind ih =>
    cases sound with
    | object ordered each =>
      rw [← ih (each (key, inner.fill a) (by simp))]
      exact membersAlike_fill each

/-- Containers are equal when they are so item by item or key by key, where two numbers must be the same in the same
form, as they need not be outside. -/
theorem equality_of_containers (as bs : List Value) (ms ns : List (String × Value)) (around : Nesting) (a b : Value) :
    (valuesEqual (.array as) (.array bs) = true ↔ List.Forall₂ EqualInside as bs) ∧
    (Ordered ms → Ordered ns → (valuesEqual (.object ms) (.object ns) = true ↔
      ∀ key, Option.Rel EqualInside (ms.lookup key) (ns.lookup key))) ∧
    (a.Sound → b.Sound → (EqualInside a b ↔ valuesEqual a b = true ∧
      ∀ x y : Number, a = .number x → b = .number y → x.alike y = true)) ∧
    (around ≠ .here → (around.fill a).Sound →
      (valuesEqual (around.fill a) (around.fill b) = true ↔ EqualInside a b)) := by
  refine ⟨valuesEqual_array as bs, valuesEqual_object, fun ha hb => ⟨fun equal => ⟨equal.valuesEqual ha hb, ?_⟩, ?_⟩,
    fun wrapped sound => ?_⟩
  · rintro x y rfl rfl
    exact equal
  · rintro ⟨equal, form⟩
    exact equalInside_of_valuesEqual equal form
  · have container : Num.ofValue? (around.fill a) = none := by
      cases around with
      | here => exact absurd rfl wrapped
      | item before inner behind => rfl
      | member before key inner behind => rfl
    rw [valuesEqual_eq_alike (.inl container), alike_fill sound, equalInside_iff]

theorem equality_of_containers_member :
    (Value.array [.null, .object [("a", .ofFloat 0.5)]]).Sound ∧
      (valuesEqual (.array [.null, .object [("a", .ofFloat 0.5)]]) (.array [.null, .object [("a", .ofInt 0)]]) = true ↔
        EqualInside (.ofFloat 0.5) (.ofInt 0)) := by
  have half : (Value.ofFloat 0.5).Sound := .number (n := .float 0.5) (by rfl)
  have member : (Value.object [("a", .ofFloat 0.5)]).Sound :=
    .object (List.pairwise_singleton _ _) (by simpa using half)
  have sound : (Value.array [.null, .object [("a", .ofFloat 0.5)]]).Sound :=
    .array (List.forall_mem_cons.mpr ⟨.null, by simpa using member⟩)
  obtain ⟨-, -, -, nested⟩ :=
    equality_of_containers [] [] [] [] (.item [.null] (.member [] "a" .here []) []) (.ofFloat 0.5) (.ofInt 0)
  exact ⟨sound, nested (by rintro ⟨⟩) sound⟩

/-- Arrays of equal numbers are not equal. -/
theorem equality_not_through_containers :
    valuesEqual (.ofInt 1) (.ofFloat 1) = true ∧ valuesEqual (.array [.ofInt 1]) (.array [.ofFloat 1]) = false ∧
      valuesEqual (.object [("a", .ofInt 1)]) (.object [("a", .ofFloat 1)]) = false ∧
      evaluate (.object [("a", .array [.ofInt 1]), ("b", .array [.ofFloat 1])])
        (.binary .equal (.member .model "a") (.member .model "b")) = .ok (.bool false) :=
  ⟨rfl, rfl, rfl, rfl⟩

end Program

end Stencil
