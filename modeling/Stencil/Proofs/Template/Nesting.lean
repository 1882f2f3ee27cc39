import Mathlib.Data.List.TakeWhile
import Stencil.Template.Reader

/-! Where a line is nested.

By its indentation a line belongs under the nearest line before it that is indented less. The outline of a
template nests every line there, and dropping the comments with all that is nested under them changes nothing
for the lines that remain.
-/

set_option autoImplicit false

namespace Stencil.Template

def Line.isComment (line : Line) : Bool := lineKind line.content = .comment

theorem Line.isComment_iff {line : Line} :
    line.isComment ↔ (∃ rest, line.content = '-' :: '#' :: rest) ∨ ∃ rest, line.content = '/' :: rest := by
  simp only [Line.isComment, decide_eq_true_eq]
  constructor
  · intro h
    unfold lineKind at h
    split at h <;> first | cases h | skip
    · rename_i same
      exact .inl ⟨_, same⟩
    · rename_i same
      exact .inr ⟨_, same⟩
    · split at h <;> cases h
  · rintro (⟨rest, same⟩ | ⟨rest, same⟩)
    · rw [same, lineKind]
    · rw [same, lineKind]

/-- Whether lines may be nested under a line: it is a tag or a code line. -/
def Line.takesNested (line : Line) : Bool :=
  match lineKind line.content with
  | .tag | .code _ => true
  | _ => false

/-- The lines without the comments and the deeper lines right below them. -/
def withoutComments : List Line → List Line
  | [] => []
  | line :: rest =>
    if line.isComment then withoutComments (rest.dropWhile (line.indent < ·.indent))
    else line :: withoutComments rest
termination_by lines => lines.length
decreasing_by
  · exact Nat.lt_succ_of_le (List.dropWhile_suffix _).length_le
  · exact Nat.lt_succ_self _

/-- The nearest line before a line that is indented less. `before` has the nearest line first. -/
def Line.parent? (before : List Line) (line : Line) : Option Line := before.find? (·.indent < line.indent)

def withParents (before : List Line) : List Line → List (Option Line × Line)
  | [] => []
  | line :: rest => (line.parent? before, line) :: withParents (line :: before) rest

theorem withParents_append (before first rest : List Line) :
    withParents before (first ++ rest) =
      withParents before first ++ withParents (first.reverse ++ before) rest := by
  induction first generalizing before with
  | nil => rfl
  | cons line first ih =>
    simp only [List.cons_append, withParents, ih, List.reverse_cons, List.append_assoc, List.nil_append]

theorem withoutComments_append (first rest : List Line)
    (ends : ∀ line ∈ first, ∀ next ∈ rest.head?, next.indent ≤ line.indent) :
    withoutComments (first ++ rest) = withoutComments first ++ withoutComments rest := by
  induction first using withoutComments.induct with
  | case1 => rw [List.nil_append, withoutComments, List.nil_append]
  | case2 line others comment ih =>
    have kept : ∀ l ∈ others.dropWhile (line.indent < ·.indent), l ∈ line :: others := fun l member =>
      List.mem_cons_of_mem _ ((List.dropWhile_suffix _).mem member)
    rw [List.cons_append, withoutComments, withoutComments, if_pos comment, if_pos comment,
      ← ih fun l member => ends l (kept l member), List.dropWhile_append]
    -- Where all the others are dropped, the second part still begins with a line that is not.
    split
    · rename_i none
      rw [List.isEmpty_iff.mp none, List.nil_append]
      cases rest with
      | nil => rfl
      | cons next _ =>
        have shallow := ends line List.mem_cons_self next rfl
        rw [List.dropWhile_cons_of_neg (by simpa using shallow)]
    · rfl
  | case3 line others plain ih =>
    rw [List.cons_append, withoutComments, withoutComments, if_neg plain, if_neg plain,
      ih fun l member => ends l (List.mem_cons_of_mem _ member), List.cons_append]

theorem withoutComments_sublist (lines : List Line) : (withoutComments lines).Sublist lines := by
  induction lines using withoutComments.induct with
  | case1 => simp [withoutComments]
  | case2 line rest comment ih =>
    rw [withoutComments, if_pos comment]
    exact (ih.trans (List.dropWhile_suffix _).sublist).cons line
  | case3 line rest plain ih =>
    rw [withoutComments, if_neg plain]
    exact ih.cons_cons line

mutual

def Outline.kept : Outline → List Line
  | .item line nested => if line.isComment then [] else line :: keptOf nested

def keptOf : List Outline → List Line
  | [] => []
  | item :: rest => item.kept ++ keptOf rest

end

theorem keptOf_outline (lines : List Line) : keptOf (outline lines) = withoutComments lines := by
  induction lines using outline.induct with
  | case1 => rw [outline, keptOf, withoutComments]
  | case2 line rest nested after =>
    rw [outline, keptOf, Outline.kept, nested, after]
    have whole : (rest.takeWhile (line.indent < ·.indent)) ++ rest.dropWhile (line.indent < ·.indent) = rest :=
      List.takeWhile_append_dropWhile
    -- A comment among the nested lines takes nothing with it from behind them.
    have ends : ∀ l ∈ rest.takeWhile (line.indent < ·.indent),
        ∀ next ∈ (rest.dropWhile (line.indent < ·.indent)).head?, next.indent ≤ l.indent := by
      intro l deep next first
      have deep := List.mem_takeWhile_imp deep
      have shallow := List.head?_dropWhile_not (fun l : Line => decide (line.indent < l.indent)) rest
      rw [Option.mem_def.mp first] at shallow
      simp only [decide_eq_true_eq, decide_eq_false_iff_not] at deep shallow
      omega
    rw [withoutComments]
    split
    · rw [List.nil_append]
    · rw [List.cons_append, ← withoutComments_append _ _ ends, whole]

/-! ### The shape of outlines -/

mutual

/-- Whether the lines nested under each line are indented deeper than it. -/
def Outline.Deepens : Outline → Prop
  | .item line nested => (∀ l ∈ outlineLines nested, line.indent < l.indent) ∧ AllDeepen nested

def AllDeepen : List Outline → Prop
  | [] => True
  | item :: rest => item.Deepens ∧ AllDeepen rest

end

theorem allDeepen_outline (lines : List Line) : AllDeepen (outline lines) := by
  induction lines using outline.induct with
  | case1 => simp [outline, AllDeepen]
  | case2 line rest nested after =>
    rw [outline, AllDeepen, Outline.Deepens, outlineLines_outline]
    refine ⟨⟨fun l deep => ?_, nested⟩, after⟩
    simpa using List.mem_takeWhile_imp deep

mutual

/-- What reading asks of an outline, comments aside: what is nested under one line has one indentation, and
the line is one that takes nested content. -/
def Outline.Even : Outline → Prop
  | .item line nested =>
    line.isComment ∨ (nested = [] ∨ line.takesNested) ∧ (∃ indent, ∀ item ∈ nested, item.line.indent = indent) ∧
      AllEven nested

def AllEven : List Outline → Prop
  | [] => True
  | item :: rest => item.Even ∧ AllEven rest

end

mutual

theorem Outline.kept_subset : ∀ item : Outline, item.kept ⊆ item.lines
  | .item line nested => by
    rw [Outline.kept, Outline.lines]
    split
    · exact List.nil_subset _
    · exact List.cons_subset_cons line (keptOf_subset nested)

theorem keptOf_subset : ∀ items : List Outline, keptOf items ⊆ outlineLines items
  | [] => List.nil_subset _
  | item :: rest => by
    rw [keptOf, outlineLines]
    exact List.append_subset.mpr ⟨List.Subset.trans (Outline.kept_subset item) (List.subset_append_left _ _),
      List.Subset.trans (keptOf_subset rest) (List.subset_append_right _ _)⟩

end

/-! ### Parents of the lines of an even outline -/

/-- Whether a line stands in a block of the given parent and indentation, or under a line of that block. -/
def InBlock (parent : Option Line) (indent : Nat) (block : List Line) (placed : Option Line × Line) : Prop :=
  (placed.1 = parent ∧ placed.2.indent = indent) ∨
    ∃ line ∈ block, placed.1 = some line ∧ line.takesNested

section
variable {parent : Option Line} {indent : Nat}

theorem find?_behind {before seen : List Line} (nearest : before.find? (·.indent < indent) = parent)
    (deep : ∀ l ∈ seen, indent ≤ l.indent) :
    (seen.reverse ++ before).find? (·.indent < indent) = parent := by
  have none : seen.reverse.find? (·.indent < indent) = none := by
    rw [List.find?_eq_none]
    intro l member
    have := deep l (List.mem_reverse.mp member)
    simpa using this
  rw [List.find?_append, none, nearest, Option.none_or]

theorem Outline.Deepens.le_indent {item : Outline} (deepens : item.Deepens) :
    ∀ l ∈ item.lines, item.line.indent ≤ l.indent := by
  obtain ⟨line, nested⟩ := item
  rw [Outline.Deepens] at deepens
  intro l member
  rw [Outline.lines] at member
  rcases List.mem_cons.mp member with rfl | member
  · exact Nat.le_refl _
  · exact Nat.le_of_lt (deepens.1 l member)

theorem exists_deeper {line : Line} {nested : List Outline}
    (deeper : ∀ l ∈ outlineLines nested, line.indent < l.indent)
    (even : ∃ indent, ∀ item ∈ nested, item.line.indent = indent) :
    ∃ indent, line.indent < indent ∧ ∀ item ∈ nested, item.line.indent = indent := by
  obtain ⟨indent, all⟩ := even
  cases nested with
  | nil => exact ⟨line.indent + 1, Nat.lt_succ_self _, by simp⟩
  | cons first rest =>
    refine ⟨indent, ?_, all⟩
    rw [← all first List.mem_cons_self]
    refine deeper first.line ?_
    obtain ⟨_, _⟩ := first
    simp [outlineLines, Outline.lines, Outline.line]

/-- The parents in a block, from those of what is nested under its first line and of the rest. -/
theorem withParents_item {before : List Line} {item : Outline} (deepens : item.Deepens)
    (even : item.line.indent = indent) (nearest : before.find? (·.indent < indent) = parent)
    (rest : List Outline) :
    withParents before (item.kept ++ keptOf rest) =
        withParents before item.kept ++ withParents (item.kept.reverse ++ before) (keptOf rest) ∧
      (item.kept.reverse ++ before).find? (·.indent < indent) = parent := by
  refine ⟨withParents_append _ _ _, find?_behind nearest fun l member => ?_⟩
  rw [← even]
  exact deepens.le_indent l (Outline.kept_subset item member)

end

mutual

theorem Outline.inBlock : ∀ {item : Outline}, item.Deepens → item.Even →
    ∀ {before : List Line} {parent : Option Line}, before.find? (·.indent < item.line.indent) = parent →
    ∀ placed ∈ withParents before item.kept, InBlock parent item.line.indent item.kept placed
  | .item line nested, deepens, even, before, parent, nearest, placed, member => by
    rw [Outline.Deepens] at deepens
    rw [Outline.Even] at even
    rw [Outline.kept] at member ⊢
    split at member
    · cases member
    · rename_i plain
      obtain ⟨takes, together, below⟩ := even.resolve_left plain
      obtain ⟨within, deeper, same⟩ := exists_deeper deepens.1 together
      rw [if_neg plain]
      rcases List.mem_cons.mp member with rfl | member
      · exact .inl ⟨nearest, rfl⟩
      · have next : (line :: before).find? (·.indent < within) = some line := by
          rw [List.find?_cons_of_pos (by simpa using deeper)]
        have inside := inBlock_all deepens.2 below same next placed member
        -- For what is nested the line is the nearest one that is indented less.
        rcases inside with ⟨under, _⟩ | ⟨l, found, under, nests⟩
        · -- Only a line that takes nested content has any.
          refine .inr ⟨line, List.mem_cons_self, under, takes.resolve_left ?_⟩
          rintro rfl
          simp [keptOf, withParents] at member
        · exact .inr ⟨l, List.mem_cons_of_mem _ found, under, nests⟩

/-- The lines of an even block have the parent of the block, or are nested under others of its lines. -/
theorem inBlock_all : ∀ {items : List Outline}, AllDeepen items → AllEven items →
    ∀ {indent : Nat}, (∀ item ∈ items, item.line.indent = indent) →
    ∀ {before : List Line} {parent : Option Line}, before.find? (·.indent < indent) = parent →
    ∀ placed ∈ withParents before (keptOf items), InBlock parent indent (keptOf items) placed
  | [], _, _, _, _, _, _, _, placed, member => by simp [keptOf, withParents] at member
  | item :: rest, deepens, even, indent, same, before, parent, nearest, placed, member => by
    rw [AllDeepen] at deepens
    rw [AllEven] at even
    have here := same item List.mem_cons_self
    obtain ⟨parts, behind⟩ := withParents_item deepens.1 here nearest rest
    rw [keptOf, parts] at member
    rw [keptOf]
    have widen : ∀ {block : List Line}, block ⊆ item.kept ++ keptOf rest →
        InBlock parent indent block placed → InBlock parent indent (item.kept ++ keptOf rest) placed :=
      fun part found => found.imp id fun ⟨l, inside, found⟩ => ⟨l, part inside, found⟩
    rcases List.mem_append.mp member with first | later
    · exact widen (List.subset_append_left _ _)
        (here ▸ Outline.inBlock deepens.1 even.1 (here ▸ nearest) placed first)
    · exact widen (List.subset_append_right _ _)
        (inBlock_all deepens.2 even.2 (fun i member => same i (List.mem_cons_of_mem _ member)) behind placed
          later)

end

mutual

theorem Outline.siblings : ∀ {item : Outline}, item.Deepens → item.Even → item.kept.Nodup →
    ∀ {before : List Line} {parent : Option Line}, before.find? (·.indent < item.line.indent) = parent →
    (∀ l ∈ item.kept, parent ≠ some l) →
    (withParents before item.kept).Pairwise fun a b => a.1 = b.1 → a.2.indent = b.2.indent
  | .item line nested, deepens, even, distinct, before, parent, nearest, outside => by
    rw [Outline.Deepens] at deepens
    rw [Outline.Even] at even
    rw [Outline.kept] at distinct outside ⊢
    split at distinct
    · rename_i comment
      rw [if_pos comment]
      exact .nil
    · rename_i plain
      obtain ⟨_, together, below⟩ := even.resolve_left plain
      obtain ⟨within, deeper, same⟩ := exists_deeper deepens.1 together
      have next : (line :: before).find? (·.indent < within) = some line := by
        rw [List.find?_cons_of_pos (by simpa using deeper)]
      rw [if_neg plain] at outside ⊢
      obtain ⟨fresh, distinct⟩ := List.nodup_cons.mp distinct
      refine .cons (fun placed member same_ => ?_) (siblings_all deepens.2 below distinct same next ?_)
      · -- What is nested under the line has it or another line below for its parent.
        have inside := inBlock_all deepens.2 below same next placed member
        have same_ : parent = placed.1 := nearest.symm.trans same_
        rcases inside with ⟨under, _⟩ | ⟨l, found, under, _⟩
        · exact absurd (same_.trans under) (outside line List.mem_cons_self)
        · exact absurd (same_.trans under) (outside l (List.mem_cons_of_mem _ found))
      · rintro l found same_
        exact fresh (Option.some.inj same_ ▸ found)

theorem siblings_all : ∀ {items : List Outline}, AllDeepen items → AllEven items → (keptOf items).Nodup →
    ∀ {indent : Nat}, (∀ item ∈ items, item.line.indent = indent) →
    ∀ {before : List Line} {parent : Option Line}, before.find? (·.indent < indent) = parent →
    (∀ l ∈ keptOf items, parent ≠ some l) →
    (withParents before (keptOf items)).Pairwise fun a b => a.1 = b.1 → a.2.indent = b.2.indent
  | [], _, _, _, _, _, _, _, _, _ => .nil
  | item :: rest, deepens, even, distinct, indent, same, before, parent, nearest, outside => by
    rw [AllDeepen] at deepens
    rw [AllEven] at even
    rw [keptOf] at distinct outside ⊢
    have here := same item List.mem_cons_self
    have after := fun i member => same i (List.mem_cons_of_mem item member)
    obtain ⟨parts, behind⟩ := withParents_item deepens.1 here nearest rest
    obtain ⟨first, last, apart⟩ := List.nodup_append.mp distinct
    rw [parts, List.pairwise_append]
    refine ⟨Outline.siblings deepens.1 even.1 first (here ▸ nearest)
        fun l member => outside l (List.mem_append_left _ member),
      siblings_all deepens.2 even.2 last after behind fun l member => outside l (List.mem_append_right _ member),
      fun a earlier b later shared => ?_⟩
    -- One parent for both is the parent of the block, since the lines of the two parts are not the same.
    have inside := Outline.inBlock deepens.1 even.1 (here ▸ nearest) a earlier
    have inside' := inBlock_all deepens.2 even.2 after behind b later
    rcases inside with ⟨above, indent⟩ | ⟨l, found, under, _⟩
    · rcases inside' with ⟨_, indent'⟩ | ⟨l', found', under', _⟩
      · rw [indent, indent', here]
      · exact absurd (above.symm.trans (shared.trans under')) (outside l' (List.mem_append_right _ found'))
    · rcases inside' with ⟨above', _⟩ | ⟨l', found', under', _⟩
      · exact absurd (above'.symm.trans (shared.symm.trans under)) (outside l (List.mem_append_left _ found))
      · have same_ : l = l' := Option.some.inj (under.symm.trans (shared.trans under'))
        exact absurd same_ (apart l found l' found')

end

end Stencil.Template
