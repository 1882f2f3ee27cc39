import Stencil.Proofs.Template.Offsets.Tags

/-! A template is read by offsets without a cut that is not there.

The reader takes the lines one after another, and leaves those that are not nested under the line that it is at. The
outline of a template has them nested to begin with.
-/

set_option autoImplicit false

namespace Stencil

open Program (byteLength byteLength_append byteLength_cons)

namespace Template.ByOffset

open Text (cut? cut?_eq backFrom?_eq)

/-! ### Lines -/

theorem lineOfText?_eq (number : Nat) (raw : List Char) :
    lineOfText? number raw = settled (Line.ofText? number raw) := by
  have whole : (Text.trimEnd raw).takeWhile Text.isBlank ++ Text.trimStart (Text.trimEnd raw) = Text.trimEnd raw :=
    List.takeWhile_append_dropWhile
  have total := congrArg byteLength whole
  rw [byteLength_append] at total
  have place : byteLength (Text.trimEnd raw) - byteLength (Text.trimStart (Text.trimEnd raw)) =
      byteLength ((Text.trimEnd raw).takeWhile Text.isBlank) := by
    omega
  unfold lineOfText? Line.ofText?
  dsimp only
  split
  · rfl
  · rw [backFrom?_eq (by omega), place]
    simp only [cutting_some_bind]
    rw [cut?_eq whole rfl]
    simp only [cutting_some_bind]
    split <;> rfl

theorem linesFrom_eq (number : Nat) (raws : List (List Char)) :
    linesFrom number raws = settled (Template.linesFrom number raws) := by
  induction raws generalizing number with
  | nil => rfl
  | cons raw rest ih =>
    rw [linesFrom, Template.linesFrom]
    simp only [settled_bind, lineOfText?_eq, ih]
    rfl

/-! ### Blocks -/

/-- Whether a line is nested under one of the given indentation, if there is one. -/
def isUnder (parent : Option Nat) (line : Line) : Bool := !parent.any (line.indent ≤ ·)

theorem isUnder_some (indent : Nat) : isUnder (some indent) = fun line => decide (indent < line.indent) := by
  funext line
  rw [isUnder, Option.any_some, ← decide_not]
  simp only [Nat.not_le]

theorem isUnder_of_lt {parent : Option Nat} {line inner : Line} (under : isUnder parent line)
    (deeper : decide (line.indent < inner.indent)) : isUnder parent inner := by
  cases parent with
  | none => rfl
  | some indent =>
    rw [isUnder_some, decide_eq_true_eq] at under ⊢
    exact under.trans (of_decide_eq_true deeper)

theorem cut_within {α : Type} {p q : α → Bool} (within : ∀ x, q x → p x) (l : List α) :
    (l.takeWhile p).takeWhile q = l.takeWhile q ∧ (l.takeWhile p).dropWhile q = (l.dropWhile q).takeWhile p ∧
      (l.dropWhile q).dropWhile p = l.dropWhile p := by
  induction l with
  | nil => exact ⟨rfl, rfl, rfl⟩
  | cons x rest ih =>
    by_cases inner : q x
    · simpa [inner, within x inner] using ih
    · by_cases outer : p x <;> simp [inner, outer]

section
variable {line : Line} {rest : List Line}

theorem agrees_leaf (kind : LeafLine) {sliced : Sliced Node} {plain : Except ParseError Node}
    (same : sliced = settled plain) :
    Agrees Taken.pair (leaf kind line rest sliced)
      ((Template.leaf kind line (outline (rest.takeWhile (line.indent < ·.indent))) plain).map
        (·, rest.dropWhile (line.indent < ·.indent))) := by
  subst same
  have bare (here : ∀ next ∈ rest.head?, ¬ line.indent < next.indent) :
      Agrees (Taken.pair : Taken (Option Node) rest → _) (do return ⟨some (← settled plain), rest, Nat.le_refl _⟩)
        ((Template.leaf kind line (outline (rest.takeWhile (line.indent < ·.indent))) plain).map
          (·, rest.dropWhile (line.indent < ·.indent))) := by
    have none : rest.takeWhile (line.indent < ·.indent) = [] ∧ rest.dropWhile (line.indent < ·.indent) = rest := by
      cases rest with
      | nil => exact ⟨rfl, rfl⟩
      | cons next rest => simp [here next rfl]
    rw [none.1, none.2, outline, Template.leaf]
    cases plain with
    | error e => exact agrees_error e
    | ok node => exact agrees_ok Taken.pair _
  cases rest with
  | nil => exact bare (by simp)
  | cons next rest =>
    by_cases deeper : line.indent < next.indent
    · simp only [leaf, List.head?_cons, List.takeWhile_cons, deeper, decide_true, if_true, outline, Template.leaf]
      exact agrees_error _
    · simp only [leaf, List.head?_cons, if_neg deeper]
      exact bare (by simpa using deeper)

/-- A directive is written with a single sign, and trimming takes away the blank behind it. -/
theorem cut?_directive {content text : List Char} (kind : lineKind content = .directive text) :
    ∃ back whole begun, cut? 1 content = some ⟨['_'], back, whole, begun⟩ ∧ Text.trim back = Text.trim text := by
  have single : '_'.utf8Size = 1 := rfl
  have stands : ∃ back, content = '_' :: back ∧ Text.trim back = Text.trim text := by
    unfold lineKind at kind
    split at kind <;> first | cases kind | skip
    · exact ⟨_, rfl, rfl⟩
    · exact ⟨_, rfl, rfl⟩
    · exact ⟨_, rfl, rfl⟩
    · split at kind <;> cases kind
  obtain ⟨back, rfl, trimmed⟩ := stands
  obtain ⟨whole, begun, behind⟩ := cut?_one single back
  exact ⟨back, whole, begun, behind, trimmed⟩

/-- A line is read like its outline where the lines behind it are. -/
theorem agrees_readLine
    (nested : Agrees Taken.pair (readBlock (some line.indent) none rest)
      ((block none (outline (rest.takeWhile (line.indent < ·.indent)))).map
        (·, rest.dropWhile (line.indent < ·.indent)))) :
    Agrees Taken.pair (readLine line rest)
      (((Outline.item line (outline (rest.takeWhile (line.indent < ·.indent)))).node?).map
        (·, rest.dropWhile (line.indent < ·.indent))) := by
  rw [readLine, Outline.node?]
  cases kind : lineKind line.content with
  | docType => exact agrees_leaf .docType rfl
  | comment => exact agrees_ok Taken.pair _
  | evaluated source => exact agrees_leaf .evaluated rfl
  | text text => exact agrees_leaf .text (textNode_eq _ _)
  | directive text =>
    obtain ⟨back, whole, begun, behind, trimmed⟩ := cut?_directive kind
    refine agrees_leaf .directive ?_
    rw [behind, cutting_some_bind, ← trimmed]
    rfl
  | code text =>
    refine nested.bind fun taken left => ?_
    rw [← left]
    exact agrees_ok Taken.pair _
  | tag =>
    simp only [readTag_eq]
    cases Template.readTag line.number line.content with
    | error e => exact agrees_error e
    | ok tag =>
      refine nested.bind fun taken left => ?_
      rw [← left]
      by_cases closed : tag.head.selfClosing && !taken.value.isEmpty
      · have same : (tag.head.selfClosing && !taken.pair.1.isEmpty) = true := closed
        rw [if_pos closed, if_pos same]
        exact agrees_error _
      · have same : ¬ (tag.head.selfClosing && !taken.pair.1.isEmpty) = true := closed
        rw [if_neg closed, if_neg same]
        exact agrees_ok Taken.pair _

end

theorem block_cons_eq (indent : Option Nat) (line : Line) (nested others : List Outline) :
    block indent (.item line nested :: others) =
      match indent.filter (line.indent ≠ ·) with
      | some expected => .error (.tag line.number (.inconsistentIndentation expected line.indent))
      | none => do
        let node ← (Outline.item line nested).node?
        let nodes ← block (some (indent.getD line.indent)) others
        return node.toList ++ nodes := by
  cases indent with
  | none =>
    simp only [block]
    rfl
  | some expected =>
    by_cases same : line.indent = expected
    · simp only [block, Outline.line, Option.filter_some, same, ne_eq, not_true_eq_false, if_false, decide_false]
      rfl
    · simp only [block, Outline.line, Option.filter_some, same, ne_eq, not_false_eq_true, if_true, decide_true]
      rfl

theorem agrees_readBlock (parent indent : Option Nat) (lines : List Line) :
    Agrees Taken.pair (readBlock parent indent lines)
      ((block indent (outline (lines.takeWhile (isUnder parent)))).map (·, lines.dropWhile (isUnder parent))) := by
  -- Both what is nested under the first line and what comes behind that are read from fewer lines.
  induction count : lines.length using Nat.strong_induction_on generalizing parent indent lines with
  | _ size ih =>
    cases lines with
    | nil =>
      rw [readBlock, List.takeWhile_nil, outline, block]
      exact agrees_ok Taken.pair _
    | cons line rest =>
      rw [readBlock]
      by_cases shallow : parent.any (line.indent ≤ ·)
      · have out : ¬ isUnder parent line := by simp [isUnder, shallow]
        rw [if_pos shallow, List.takeWhile_cons_of_neg out, List.dropWhile_cons_of_neg out, outline, block]
        exact agrees_ok Taken.pair _
      · have under : isUnder parent line := by simp [isUnder, shallow]
        -- The lines nested under the first one come before the end of the block.
        obtain ⟨first, behind, left⟩ := cut_within (fun _ => isUnder_of_lt under) rest
        rw [if_neg shallow, List.takeWhile_cons_of_pos under, List.dropWhile_cons_of_pos under, outline, first, behind,
          ← left, block_cons_eq]
        have nested := ih rest.length (count ▸ Nat.lt_succ_self _) (some line.indent) none rest rfl
        rw [isUnder_some] at nested
        cases indent.filter (line.indent ≠ ·) with
        | some expected => exact agrees_error _
        | none =>
          refine (agrees_readLine nested).bind fun taken left => ?_
          have less : taken.rest.length < size := count ▸ Nat.lt_succ_of_le taken.le
          rw [← left]
          refine (ih _ less parent (some (indent.getD line.indent)) taken.rest rfl).bind fun more left => ?_
          rw [Taken.pair, ← left]
          exact agrees_ok Taken.pair _

theorem documentOfText_eq (source : String) : documentOfText source = settled (Document.ofText source) := by
  rw [documentOfText, Document.ofText, linesFrom_eq, linesOf]
  cases Template.linesFrom 1 (source.toList.splitOn '\n') with
  | error e => rfl
  | ok lines =>
    have all : lines.takeWhile (isUnder none) = lines := List.takeWhile_eq_self_iff.mpr fun _ _ => rfl
    have blocks := agrees_readBlock none none lines
    rw [all] at blocks
    have read : Agrees id (readBlock none none lines >>= fun taken => pure (⟨taken.value⟩ : Document))
        ((block none (outline lines) >>= fun nodes => .ok ⟨nodes⟩).map id) :=
      blocks.bind fun taken _ => agrees_ok id _
    obtain ⟨result, sliced, plain⟩ := read
    rw [Except.map_id] at plain
    exact sliced.trans (congrArg settled plain.symm)

end Template.ByOffset

end Stencil
