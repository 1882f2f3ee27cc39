import Mathlib.Data.List.Perm.Basic
import Stencil.Proofs.Merging.Bytes
import Stencil.Proofs.Splice.Script

/-! What becomes of the fragments of a tag's attributes.

A fragment is one value under one name. Merging gathers the fragments of each name, sorts the literals and leaves the
expressions in their order. So nothing comes of how fragments are spread over attributes, and of their order nothing but
which name is first and in which order the expressions of each name stand.
-/

set_option autoImplicit false

namespace Stencil.Script

open Template (Node TagHead)

def fragmentsIn (found : List Attribute) : List (String × Fragment) :=
  found.flatMap fun a => a.values.map fun value => (a.name, value)

def under (name : String) (entries : List (String × Fragment)) : List Fragment :=
  (entries.filter fun entry => entry.1 = name).map Prod.snd

def literalsUnder (name : String) (entries : List (String × Fragment)) : List String :=
  (under name entries).filterMap Fragment.literal?

def expressionsUnder (name : String) (entries : List (String × Fragment)) : List (String × Nat) :=
  (under name entries).filterMap Fragment.expression?

/-- The names of attributes in the order in which they first appear. -/
def namesOf (found : List Attribute) : List String := (found.map Attribute.name).eraseDups

/-- Attributes with the same fragments in another order, which leaves the order in which names first appear and, within
each name, that of the expressions. -/
structure Reordered (found found' : List Attribute) : Prop where
  fragments : (fragmentsIn found).Perm (fragmentsIn found')
  names : namesOf found = namesOf found'
  expressions : ∀ name, expressionsUnder name (fragmentsIn found) = expressionsUnder name (fragmentsIn found')

theorem valuesOf_eq (name : String) (found : List Attribute) : valuesOf name found = under name (fragmentsIn found) := by
  induction found with
  | nil => rfl
  | cons a rest ih =>
    have own : under name (a.values.map fun value => (a.name, value)) = if a.name = name then a.values else [] := by
      by_cases same : a.name = name <;> simp [under, List.filter_map, Function.comp_def, same]
    have step : under name (fragmentsIn (a :: rest)) =
        under name (a.values.map fun value => (a.name, value)) ++ under name (fragmentsIn rest) := by
      simp only [fragmentsIn, List.flatMap_cons, under, List.filter_append, List.map_append]
    rw [step, own, ← ih]
    by_cases same : a.name = name <;> simp [valuesOf, same]

/-! ### Literals in order -/

section

variable {a b : Attribute}

theorem perm_literals (a : Attribute) : a.literals.Perm (a.values.filterMap Fragment.literal?) :=
  List.mergeSort_perm _ _

theorem pairwise_literals (a : Attribute) : a.literals.Pairwise fun s t => ¬ t < s := by
  have sorted : a.literals.Pairwise fun s t => (!decide (t < s)) = true := by
    refine List.pairwise_mergeSort ?_ ?_ _
    · intro s t u first next
      simp only [Bool.not_eq_true', decide_eq_false_iff_not] at first next ⊢
      exact String.le_trans first next
    · intro s t
      simp only [Bool.or_eq_true, Bool.not_eq_true', decide_eq_false_iff_not]
      exact String.le_total s t
  simpa only [Bool.not_eq_true', decide_eq_false_iff_not] using sorted

theorem bytes_literals (a : Attribute) : a.literals.Pairwise fun s t => Text.bytes s ≤ Text.bytes t :=
  (pairwise_literals a).imp fun before less => before (Text.bytes_lt_iff.mp less)

theorem literals_eq_of_perm
    (perm : (a.values.filterMap Fragment.literal?).Perm (b.values.filterMap Fragment.literal?)) :
    a.literals = b.literals :=
  List.Perm.eq_of_pairwise (fun _ _ _ _ => String.le_antisymm) (pairwise_literals a) (pairwise_literals b)
    ((perm_literals a).trans (perm.trans (perm_literals b).symm))

theorem Attribute.script_congr (names : a.name = b.name) (literals : a.literals = b.literals)
    (expressions : a.expressions = b.expressions) : a.script = b.script := by
  rw [script, script, names, literals, expressions]

end

theorem script_merged_of_reordered {found found' : List Attribute} (reordered : Reordered found found') :
    (merged found).flatMap Attribute.script = (merged found').flatMap Attribute.script := by
  have names : (found.map Attribute.name).eraseDups = (found'.map Attribute.name).eraseDups := reordered.names
  simp only [merged, names, List.flatMap_map]
  congr 1
  funext name
  refine Attribute.script_congr rfl (literals_eq_of_perm ?_) ?_
  · rw [valuesOf_eq, valuesOf_eq]
    exact ((reordered.fragments.filter _).map _).filterMap _
  · rw [Attribute.expressions, Attribute.expressions, valuesOf_eq, valuesOf_eq]
    exact reordered.expressions name

theorem attributeScript_of_reordered {attributes attributes' : List Node} {found found' : List Attribute}
    (collected : attributesOf attributes = .ok found) (collected' : attributesOf attributes' = .ok found')
    (reordered : Reordered found found') : attributeScript attributes = attributeScript attributes' := by
  rw [attributeScript, attributeScript, collected, collected']
  exact script_merged_of_reordered reordered

/-! ### Fragments by name -/

theorem nodup_eraseDups (names : List String) : names.eraseDups.Nodup := by
  induction h : names.length using Nat.strongRecOn generalizing names with
  | ind n ih =>
    cases names with
    | nil => exact List.nodup_nil
    | cons name rest =>
      rw [List.eraseDups_cons, List.nodup_cons, List.mem_eraseDups]
      have shorter := List.length_filter_le (fun other => !other == name) rest
      refine ⟨by simp, ih _ ?_ _ rfl⟩
      simp only [List.length_cons] at h
      omega

theorem map_under (name : String) (entries : List (String × Fragment)) :
    (under name entries).map (Prod.mk name) = entries.filter fun entry => entry.1 = name := by
  rw [under, List.map_map]
  refine (List.map_congr_left fun entry member => ?_).trans (List.map_id _)
  have same : entry.1 = name := by simpa using (List.mem_filter.mp member).2
  rw [← same]
  rfl

theorem flatMap_filter_perm {names : List String} (once : names.Nodup) {entries : List (String × Fragment)}
    (covered : ∀ entry ∈ entries, entry.1 ∈ names) :
    (names.flatMap fun name => entries.filter fun entry => entry.1 = name).Perm entries := by
  induction names generalizing entries with
  | nil =>
    rw [List.eq_nil_iff_forall_not_mem.mpr fun entry member => List.not_mem_nil (covered entry member)]
    exact .nil
  | cons name names ih =>
    obtain ⟨new, once⟩ := List.nodup_cons.mp once
    let others := entries.filter fun entry => !decide (entry.1 = name)
    -- None of the other names has a fragment among those of the first.
    have apart : (names.flatMap fun other => entries.filter fun entry => entry.1 = other) =
        names.flatMap fun other => others.filter fun entry => entry.1 = other := by
      refine List.flatMap_congr fun other member => ?_
      rw [List.filter_filter]
      refine List.filter_congr fun entry _ => ?_
      by_cases same : entry.1 = other
      · simp [same, ne_of_mem_of_not_mem member new]
      · simp [same]
    rw [List.flatMap_cons, apart]
    refine ((ih once fun entry member => ?_).append_left _).trans (List.filter_append_perm _ _)
    obtain ⟨member, other⟩ := List.mem_filter.mp member
    exact (List.mem_cons.mp (covered entry member)).resolve_left (by simpa using other)

structure Group where
  name : String
  literals : List String
  expressions : List (String × Nat)

def Group.fragments (group : Group) : List (String × Fragment) :=
  group.literals.map (fun text => (group.name, .literal text)) ++
    group.expressions.map fun piece => (group.name, .expression piece.1 piece.2)

/-- One group for each name, in the order in which the names first appear, with its literals in the order of their
bytes and its expressions in their own. -/
structure Groups (found : List Attribute) (groups : List Group) : Prop where
  names : groups.map Group.name = namesOf found
  once : (groups.map Group.name).Nodup
  literals : ∀ group ∈ groups, group.literals.Perm (literalsUnder group.name (fragmentsIn found)) ∧
    group.literals.Pairwise fun s t => Text.bytes s ≤ Text.bytes t
  expressions : ∀ group ∈ groups, group.expressions = expressionsUnder group.name (fragmentsIn found)
  fragments : (groups.flatMap Group.fragments).Perm (fragmentsIn found)

def Attribute.group (a : Attribute) : Group := ⟨a.name, a.literals, a.expressions⟩

theorem perm_fragments (values : List Fragment) :
    ((values.filterMap Fragment.literal?).map Fragment.literal ++
      (values.filterMap Fragment.expression?).map fun piece => Fragment.expression piece.1 piece.2).Perm values := by
  induction values with
  | nil => exact .nil
  | cons value rest ih =>
    cases value with
    | literal text => exact ih.cons _
    | expression source line => exact List.perm_middle.trans (ih.cons _)

theorem perm_fragments_group (a : Attribute) : a.group.fragments.Perm (a.values.map fun value => (a.name, value)) := by
  have perm := (((perm_literals a).map Fragment.literal).append_right _).trans (perm_fragments a.values)
  have named := perm.map fun value => (a.name, value)
  rwa [List.map_append, List.map_map, List.map_map] at named

theorem map_name_merged (found : List Attribute) : (merged found).map Attribute.name = namesOf found := by
  rw [merged, List.map_map]
  exact List.map_id _

theorem values_of_mem_merged {found : List Attribute} {a : Attribute} (member : a ∈ merged found) :
    a.values = under a.name (fragmentsIn found) := by
  obtain ⟨name, _, rfl⟩ := List.mem_map.mp member
  exact valuesOf_eq name found

theorem mem_namesOf {found : List Attribute} {entry : String × Fragment} (member : entry ∈ fragmentsIn found) :
    entry.1 ∈ namesOf found := by
  obtain ⟨a, inside, member⟩ := List.mem_flatMap.mp member
  obtain ⟨value, _, rfl⟩ := List.mem_map.mp member
  exact List.mem_eraseDups.mpr (List.mem_map_of_mem inside)

open scoped List in
theorem groups_merged (found : List Attribute) : Groups found ((merged found).map Attribute.group) := by
  have names : ((merged found).map Attribute.group).map Group.name = namesOf found := by
    rw [List.map_map]
    exact map_name_merged found
  have once : (namesOf found).Nodup := nodup_eraseDups _
  refine ⟨names, names ▸ once, ?_, ?_, ?_⟩
  · rw [List.forall_mem_map]
    intro a member
    have literals := perm_literals a
    rw [values_of_mem_merged member] at literals
    exact ⟨literals, bytes_literals a⟩
  · rw [List.forall_mem_map]
    intro a member
    exact congrArg (List.filterMap Fragment.expression?) (values_of_mem_merged member)
  · rw [List.flatMap_map]
    calc (merged found).flatMap (fun a => a.group.fragments)
      _ ~ (merged found).flatMap fun a => a.values.map fun value => (a.name, value) :=
        List.Perm.flatMap_left _ fun a _ => perm_fragments_group a
      _ = (merged found).flatMap fun a => (fragmentsIn found).filter fun entry => entry.1 = a.name := by
        refine List.flatMap_congr fun a member => ?_
        rw [values_of_mem_merged member, ← map_under]
      _ = (namesOf found).flatMap fun name => (fragmentsIn found).filter fun entry => entry.1 = name := by
        rw [← map_name_merged, List.flatMap_map]
      _ ~ fragmentsIn found := flatMap_filter_perm once fun _ => mem_namesOf

end Stencil.Script

namespace Stencil

open Script (Group)
open Template (Node TagHead)

namespace WalkState

/-- Writes an expression of an attribute, with a space in front unless it is the first and nothing stands before it. -/
def writePiece (bare : Bool) (s : WalkState) (piece : (String × Nat) × Nat) : WalkState :=
  (if piece.2 = 0 && bare then s else s.write " ").print piece.1.1 piece.1.2

/-- Writes a name and its value: the literals with single spaces between them, quotes escaped, then the expressions. -/
def writeGroup (s : WalkState) (group : Group) : WalkState :=
  let front := (s.write (" " ++ group.name ++ "=\"")).write (Script.escapeQuotes (String.intercalate " " group.literals))
  (group.expressions.zipIdx.foldl (writePiece group.literals.isEmpty) front).write "\""

end WalkState

namespace Walk

variable (enter : Target → WalkState → WalkResult)

theorem runAll_printAll (bare : Bool) (pieces : List (String × Nat)) (place : Nat) (s : WalkState) :
    runAll enter (Script.printAll (!(place = 0 && bare)) pieces) s =
      .ok ((pieces.zipIdx place).foldl (WalkState.writePiece bare) s) := by
  induction pieces generalizing place s with
  | nil => cases h : !(place = 0 && bare) <;> rfl
  | cons piece rest ih =>
    have next : (!(place + 1 = 0 && bare)) = true := by simp
    have others := ih (place + 1)
    rw [next] at others
    rw [List.zipIdx_cons, List.foldl_cons, ← others, WalkState.writePiece]
    cases h : (decide (place = 0) && bare) <;> rfl

theorem runAll_attribute (a : Script.Attribute) (s : WalkState) :
    runAll enter a.script s = .ok (s.writeGroup a.group) := by
  have pieces := runAll_printAll enter a.literals.isEmpty a.expressions 0
  simp only [decide_true, Bool.true_and] at pieces
  have front : s.write (" " ++ a.name ++ "=\"" ++ Script.escapeQuotes (String.intercalate " " a.literals)) =
      (s.write (" " ++ a.name ++ "=\"")).write (Script.escapeQuotes (String.intercalate " " a.literals)) := by
    simp only [WalkState.write, Builder.write, String.append_assoc]
  change runAll enter (Script.printAll (!a.literals.isEmpty) a.expressions ++ [.write "\""]) (s.write _) = _
  rw [front, runAll_append, pieces]
  rfl

theorem runAll_merged (merged : List Script.Attribute) (s : WalkState) :
    runAll enter (merged.flatMap Script.Attribute.script) s =
      .ok ((merged.map Script.Attribute.group).foldl WalkState.writeGroup s) := by
  induction merged generalizing s with
  | nil => rfl
  | cons a rest ih =>
    rw [List.flatMap_cons, runAll_append, runAll_attribute]
    exact ih _

theorem runAll_tag {attributes : List Node} {found : List Script.Attribute}
    (collected : Script.attributesOf attributes = .ok found) :
    ∃ groups, Script.Groups found groups ∧
      ∀ (head : TagHead) (children : List Node) (enter : Target → WalkState → WalkResult) (s : WalkState),
        runAll enter (Script.ofNode (.tag head attributes children)) s =
          runAll enter (Script.closeTag head (!children.isEmpty) (Script.ofNodes children))
            (groups.foldl WalkState.writeGroup (s.write ("<" ++ head.qualifiedName))) := by
  refine ⟨_, Script.groups_merged found, fun head children enter s => ?_⟩
  have script : Script.attributeScript attributes = (Script.merged found).flatMap Script.Attribute.script := by
    rw [Script.attributeScript, collected]
  have opened := runAll_merged enter (Script.merged found) (s.write ("<" ++ head.qualifiedName))
  change runAll enter (Script.attributeScript attributes ++ _) (s.write _) = _
  rw [script, runAll_append, opened]
  rfl

end Walk

end Stencil
