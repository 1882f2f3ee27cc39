import Mathlib.Data.List.Forall2
import Stencil.Proofs.Template.Nesting
import Stencil.Proofs.Template.OnLine

/-! The tree of a template is the one that its indentation draws.

Every line that is not a comment, nor below one, becomes one node, and the node stands under that of the line's
parent. What stands on a line itself is read as if the line were alone.
-/

set_option autoImplicit false

namespace Stencil.Template

namespace Node

/-- A node without what is nested under its line. What a tag has on its own line stays. -/
def alone : Node → Node
  | .tag head attributes children => .tag head attributes (children.filter fun child => child.line = head.line)
  | .code content _ line => .code content [] line
  | node => node

mutual

/-- The nodes of the lines below a node's own, in order, each with the node that it is nested under. -/
def nestedLines : Node → List (Option Node × Node)
  | .tag head attributes children => nestedLinesOf (.tag head attributes children) children
  | .code content children line => nestedLinesOf (.code content children line) children
  | _ => []

def nestedLinesOf (parent : Node) : List Node → List (Option Node × Node)
  | [] => []
  | child :: rest =>
    (if child.line = parent.line then [] else (some parent, child) :: child.nestedLines) ++ nestedLinesOf parent rest

end

/-- The nodes of the lines of a block under the given parent: its own and, behind each, those below it. -/
def lineNodes (parent : Option Node) (nodes : List Node) : List (Option Node × Node) :=
  nodes.flatMap fun node => (parent, node) :: node.nestedLines

theorem nestedLinesOf_append (parent : Node) (first rest : List Node) :
    nestedLinesOf parent (first ++ rest) = nestedLinesOf parent first ++ nestedLinesOf parent rest := by
  induction first with
  | nil => simp [nestedLinesOf]
  | cons node first ih => simp only [List.cons_append, nestedLinesOf, ih, List.append_assoc]

theorem nestedLinesOf_inline {parent : Node} {nodes : List Node} (inline : ∀ node ∈ nodes, node.line = parent.line) :
    nestedLinesOf parent nodes = [] := by
  induction nodes with
  | nil => rw [nestedLinesOf]
  | cons node rest ih =>
    rw [nestedLinesOf, if_pos (inline node List.mem_cons_self),
      ih fun other member => inline other (List.mem_cons_of_mem _ member), List.nil_append]

theorem nestedLinesOf_nested {parent : Node} {nodes : List Node} (nested : ∀ node ∈ nodes, node.line ≠ parent.line) :
    nestedLinesOf parent nodes = lineNodes (some parent) nodes := by
  induction nodes with
  | nil => rw [nestedLinesOf, lineNodes, List.flatMap_nil]
  | cons node rest ih =>
    rw [nestedLinesOf, if_neg (nested node List.mem_cons_self),
      ih fun other member => nested other (List.mem_cons_of_mem _ member), lineNodes, lineNodes, List.flatMap_cons]

end Node

open Node (lineNodes)

def Document.lineNodes (document : Document) : List (Option Node × Node) := Node.lineNodes none document.children

/-! ### Reading an outline -/

/-- How an outline is read: what it is read as, and what its line must be for that. -/
inductive ReadsAs (line : Line) (nested : List Outline) : Option Node → Prop where
  | comment (kind : line.isComment) : ReadsAs line nested none
  | leaf (node : Node) (plain : ¬ line.isComment) (none : nested = []) (onLine : node.OnLine line.number)
    (alone : node.alone = node) (childless : node.nestedLines = []) : ReadsAs line nested (some node)
  | code (text : List Char) (children : List Node) (kind : lineKind line.content = .code text)
    (inside : block none nested = .ok children) :
    ReadsAs line nested (some (.code (String.ofList (Text.trim text)) children line.number))
  | tag (tag : TagLine) (children : List Node) (kind : lineKind line.content = .tag)
    (read : readTag line.number line.content = .ok tag) (inside : block none nested = .ok children) :
    ReadsAs line nested (some (.tag tag.head tag.attributes (tag.inline ++ children)))

theorem readsAs_leaf {kind : LeafLine} {line : Line} {nested : List Outline} {read : Except ParseError Node}
    {found : Option Node} (plain : ¬ line.isComment) (h : leaf kind line nested read = .ok found)
    (onLine : ∀ {node}, read = .ok node → node.OnLine line.number ∧ node.alone = node ∧ node.nestedLines = []) :
    ReadsAs line nested found := by
  unfold leaf at h
  split at h
  · cases h
  · obtain ⟨node, rfl, rfl⟩ := ok_of_map h
    obtain ⟨onLine, alone, childless⟩ := onLine rfl
    exact .leaf node plain rfl onLine alone childless

theorem Outline.readsAs {line : Line} {nested : List Outline} {found : Option Node}
    (h : (Outline.item line nested).node? = .ok found) : ReadsAs line nested found := by
  have uncommented {kind : LineKind} (is : lineKind line.content = kind) (other : kind ≠ .comment) :
      ¬ line.isComment := by
    simp [Line.isComment, is, other]
  rw [Outline.node?] at h
  split at h
  · rename_i is
    refine readsAs_leaf (uncommented is (by simp)) h fun same => ?_
    cases same
    exact ⟨rfl, rfl, rfl⟩
  · rename_i is
    cases h
    exact .comment (by simp [Line.isComment, is])
  · rename_i text is
    obtain ⟨children, inside, h⟩ := ok_of_bind h
    cases h
    exact .code text children is inside
  · rename_i is
    refine readsAs_leaf (uncommented is (by simp)) h fun read => ⟨onLine_evalNode read, ?_⟩
    obtain ⟨_, rfl⟩ := eq_of_evalNode read
    exact ⟨rfl, rfl⟩
  · rename_i is
    refine readsAs_leaf (uncommented is (by simp)) h fun same => ?_
    cases same
    exact ⟨rfl, rfl, rfl⟩
  · rename_i is
    refine readsAs_leaf (uncommented is (by simp)) h fun read => ⟨onLine_textNode read, ?_⟩
    obtain ⟨_, _, rfl⟩ := ok_of_map read
    exact ⟨rfl, rfl⟩
  · rename_i is
    obtain ⟨tag, read, h⟩ := ok_of_bind h
    obtain ⟨children, inside, h⟩ := ok_of_bind h
    split at h
    · cases h
    · cases h
      exact .tag tag children is read inside

/-- Reading a block reads its first line, which has the indentation of the block, and then the rest. -/
theorem block_cons {indent : Option Nat} {item : Outline} {rest : List Outline} {nodes : List Node}
    (h : block indent (item :: rest) = .ok nodes) :
    ∃ found more, item.node? = .ok found ∧ block (some item.line.indent) rest = .ok more ∧
      nodes = found.toList ++ more ∧ ∀ expected ∈ indent, item.line.indent = expected := by
  have rest_of {common : Nat}
      (h : (do
        let found ← item.node?
        let more ← block (some common) rest
        return found.toList ++ more) = .ok nodes) :
      ∃ found more, item.node? = .ok found ∧ block (some common) rest = .ok more ∧
        nodes = found.toList ++ more := by
    obtain ⟨found, first, h⟩ := ok_of_bind h
    obtain ⟨more, others, h⟩ := ok_of_bind h
    cases h
    exact ⟨found, more, first, others, rfl⟩
  simp only [block] at h
  split at h
  · rename_i expected
    split at h
    · cases h
    · rename_i same
      rw [not_not] at same
      obtain ⟨found, more, first, others, whole⟩ := rest_of h
      refine ⟨found, more, first, same ▸ others, whole, fun _ is => same.trans (Option.mem_some_iff.mp is)⟩
  · obtain ⟨found, more, first, others, whole⟩ := rest_of h
    exact ⟨found, more, first, others, whole, nofun⟩

theorem indent_of_block {indent : Option Nat} {items : List Outline} {nodes : List Node}
    (h : block indent items = .ok nodes) :
    ∃ common, (∀ expected ∈ indent, common = expected) ∧ ∀ item ∈ items, item.line.indent = common := by
  induction items generalizing indent nodes with
  | nil => exact ⟨indent.getD 0, by rintro _ rfl; rfl, nofun⟩
  | cons item rest ih =>
    obtain ⟨_, _, _, others, _, here⟩ := block_cons h
    obtain ⟨common, same, all⟩ := ih others
    obtain rfl := same _ rfl
    refine ⟨item.line.indent, here, ?_⟩
    rintro other (_ | ⟨_, member⟩)
    · rfl
    · exact all other member

mutual

theorem Outline.even : ∀ {item : Outline} {found : Option Node}, item.node? = .ok found → item.Even
  | .item line nested, _, h => by
    rw [Outline.Even]
    cases Outline.readsAs h with
    | comment kind => exact .inl kind
    | leaf node plain none =>
      subst none
      exact .inr ⟨.inl rfl, ⟨0, nofun⟩, trivial⟩
    | code text children kind inside =>
      obtain ⟨common, _, all⟩ := indent_of_block inside
      exact .inr ⟨.inr (by simp [Line.takesNested, kind]), ⟨common, all⟩, allEven_of_block inside⟩
    | tag tag children kind _ inside =>
      obtain ⟨common, _, all⟩ := indent_of_block inside
      exact .inr ⟨.inr (by simp [Line.takesNested, kind]), ⟨common, all⟩, allEven_of_block inside⟩

theorem allEven_of_block : ∀ {items : List Outline} {indent : Option Nat} {nodes : List Node},
    block indent items = .ok nodes → AllEven items
  | [], _, _, _ => trivial
  | item :: rest, _, _, h => by
    obtain ⟨_, _, first, others, _⟩ := block_cons h
    exact ⟨Outline.even first, allEven_of_block others⟩

end

/-! ### The nodes of the lines -/

/-- Whether a node is what is read from a line: without what is nested under it, it is the line read alone, and
everything in it carries the number of the line. -/
structure IsNodeOf (node : Node) (line : Line) : Prop where
  read : (Outline.item line []).node? = .ok (some node.alone)
  onLine : node.alone.OnLine line.number

structure Matches (nodes : Option Node × Node) (lines : Option Line × Line) : Prop where
  parent : Option.Rel IsNodeOf nodes.1 lines.1
  node : IsNodeOf nodes.2 lines.2

theorem ReadsAs.line_eq {line : Line} {nested : List Outline} {node : Node}
    (reads : ReadsAs line nested (some node)) : node.line = line.number := by
  cases reads with
  | leaf _ _ _ onLine => exact onLine.line_eq
  | code => rfl
  | tag _ _ _ read => exact (onLine_readTag read).1

theorem line_of_block {indent : Option Nat} {items : List Outline} {nodes : List Node}
    (h : block indent items = .ok nodes) : ∀ node ∈ nodes, ∃ l ∈ outlineLines items, node.line = l.number := by
  induction items generalizing indent nodes with
  | nil =>
    rw [block] at h
    cases h
    exact nofun
  | cons item rest ih =>
    obtain ⟨found, more, first, others, rfl, _⟩ := block_cons h
    obtain ⟨line, nested⟩ := item
    intro node member
    rw [outlineLines, Outline.lines]
    rcases List.mem_append.mp member with here | later
    · obtain rfl := Option.mem_toList.mp here
      exact ⟨line, List.mem_cons_self, (Outline.readsAs first).line_eq⟩
    · obtain ⟨l, inside, same⟩ := ih others node later
      exact ⟨l, List.mem_append_right _ inside, same⟩

section
variable {line : Line} {nested : List Outline}

theorem isNodeOf_leaf {node : Node} (reads : (Outline.item line []).node? = .ok (some node))
    (onLine : node.OnLine line.number) (alone : node.alone = node) : IsNodeOf node line :=
  ⟨alone.symm ▸ reads, alone.symm ▸ onLine⟩

theorem isNodeOf_code {text : List Char} {children : List Node} (kind : lineKind line.content = .code text) :
    IsNodeOf (.code (String.ofList (Text.trim text)) children line.number) line where
  read := by
    simp only [Outline.node?, kind, block]
    rfl
  onLine := by simp [Node.alone, Node.OnLine, Node.AllOnLine]

variable {tag : TagLine} {children : List Node}

theorem alone_tag (read : readTag line.number line.content = .ok tag)
    (elsewhere : ∀ child ∈ children, child.line ≠ line.number) :
    (Node.tag tag.head tag.attributes (tag.inline ++ children)).alone = .tag tag.head tag.attributes tag.inline := by
  obtain ⟨here, _, inside⟩ := onLine_readTag read
  rw [Node.alone, here, List.filter_append,
    List.filter_eq_self.mpr fun child member => by simpa using (Node.allOnLine_iff.mp inside child member).line_eq,
    List.filter_eq_nil_iff.mpr fun child member => by simpa using elsewhere child member, List.append_nil]

theorem isNodeOf_tag (kind : lineKind line.content = .tag) (read : readTag line.number line.content = .ok tag)
    (elsewhere : ∀ child ∈ children, child.line ≠ line.number) :
    IsNodeOf (.tag tag.head tag.attributes (tag.inline ++ children)) line where
  read := by
    rw [alone_tag read elsewhere]
    simp [Outline.node?, kind, read, block, bind, Except.bind, pure, Except.pure]
  onLine := by
    rw [alone_tag read elsewhere]
    exact onLine_readTag read

theorem nestedLines_tag (read : readTag line.number line.content = .ok tag)
    (elsewhere : ∀ child ∈ children, child.line ≠ line.number) :
    (Node.tag tag.head tag.attributes (tag.inline ++ children)).nestedLines =
      lineNodes (some (.tag tag.head tag.attributes (tag.inline ++ children))) children := by
  obtain ⟨here, _, inside⟩ := onLine_readTag read
  rw [Node.nestedLines, Node.nestedLinesOf_append, Node.nestedLinesOf_inline, Node.nestedLinesOf_nested,
    List.nil_append]
  · exact fun child member same => elsewhere child member (same.trans here)
  · exact fun child member => (Node.allOnLine_iff.mp inside child member).line_eq.trans here.symm

end

mutual

/-- What an outline is read as has one node for each of its lines that are kept, under that of the line's
parent. -/
theorem Outline.matches_lines : ∀ {item : Outline}, item.Deepens → item.lines.Pairwise (·.number < ·.number) →
    ∀ {found : Option Node}, item.node? = .ok found →
    ∀ {before : List Line} {parent : Option Node},
      Option.Rel IsNodeOf parent (before.find? (·.indent < item.line.indent)) →
      List.Forall₂ Matches (lineNodes parent found.toList) (withParents before item.kept)
  | .item line nested, deepens, numbered, found, h, before, parent, above => by
    rw [Outline.Deepens] at deepens
    rw [Outline.lines] at numbered
    obtain ⟨later, numbered⟩ := List.pairwise_cons.mp numbered
    -- What is read from the lines below stands on other lines than this one.
    have elsewhere {children : List Node} (inside : block none nested = .ok children) :
        ∀ child ∈ children, child.line ≠ line.number := by
      intro child member
      obtain ⟨l, below, same⟩ := line_of_block inside child member
      exact same ▸ Nat.ne_of_gt (later l below)
    have below {node : Node} {children : List Node} (is : IsNodeOf node line) (inside : block none nested = .ok children)
        (plain : ¬ line.isComment) (under : node.nestedLines = lineNodes (some node) children) :
        List.Forall₂ Matches (lineNodes parent [node]) (withParents before (line :: keptOf nested)) := by
      obtain ⟨common, _, all⟩ := indent_of_block inside
      obtain ⟨within, deeper, same⟩ := exists_deeper deepens.1 ⟨common, all⟩
      have next : (line :: before).find? (·.indent < within) = some line := by
        rw [List.find?_cons_of_pos (by simpa using deeper)]
      rw [lineNodes, List.flatMap_singleton, under]
      exact .cons ⟨above, is⟩ (block_matches_lines deepens.2 numbered inside same (next ▸ .some is))
    rw [Outline.kept]
    cases Outline.readsAs h with
    | comment kind =>
      rw [if_pos kind]
      exact .nil
    | leaf node plain none onLine alone childless =>
      subst none
      rw [if_neg plain]
      exact below (isNodeOf_leaf h onLine alone) (by rw [block]) plain (by rw [childless]; rfl)
    | code text children kind inside =>
      have plain : ¬ line.isComment := by simp [Line.isComment, kind]
      rw [if_neg plain]
      exact below (isNodeOf_code kind) inside plain (Node.nestedLinesOf_nested (elsewhere inside))
    | tag tag children kind read inside =>
      have plain : ¬ line.isComment := by simp [Line.isComment, kind]
      rw [if_neg plain]
      exact below (isNodeOf_tag kind read (elsewhere inside)) inside plain (nestedLines_tag read (elsewhere inside))

theorem block_matches_lines : ∀ {items : List Outline}, AllDeepen items →
    (outlineLines items).Pairwise (·.number < ·.number) →
    ∀ {indent : Option Nat} {nodes : List Node}, block indent items = .ok nodes →
    ∀ {common : Nat}, (∀ item ∈ items, item.line.indent = common) →
    ∀ {before : List Line} {parent : Option Node}, Option.Rel IsNodeOf parent (before.find? (·.indent < common)) →
      List.Forall₂ Matches (lineNodes parent nodes) (withParents before (keptOf items))
  | [], _, _, _, nodes, h, _, _, _, _, _ => by
    rw [block] at h
    cases h
    exact .nil
  | item :: rest, deepens, numbered, _, nodes, h, common, same, before, parent, above => by
    rw [AllDeepen] at deepens
    rw [outlineLines, List.pairwise_append] at numbered
    obtain ⟨found, more, first, others, rfl, _⟩ := block_cons h
    obtain ⟨parts, behind⟩ := withParents_item deepens.1 (same item List.mem_cons_self) rfl rest
    rw [keptOf, parts, lineNodes, List.flatMap_append]
    refine List.rel_append (Outline.matches_lines deepens.1 numbered.1 first ?_)
      (block_matches_lines deepens.2 numbered.2.1 others
        (fun other member => same other (List.mem_cons_of_mem _ member)) (behind.symm ▸ above))
    rw [same item List.mem_cons_self]
    exact above

end

structure Document.DrawnBy (document : Document) (lines : List Line) : Prop where
  nodes : List.Forall₂ Matches document.lineNodes (withParents [] lines)
  parents : ∀ placed ∈ withParents [] lines, ∀ parent ∈ placed.1, parent.takesNested
  siblings : (withParents [] lines).Pairwise fun a b => a.1 = b.1 → a.2.indent = b.2.indent

/-- The document of a text is drawn by the lines of the text that are neither comments nor nested below one. The
lines are numbered from one and come in order. -/
theorem Document.drawnBy_lines {source : String} {document : Document} (h : Document.ofText source = .ok document) :
    ∃ lines, linesOf source = .ok lines ∧ lines.Pairwise (·.number < ·.number) ∧
      (∀ line, line ∈ lines ↔ ∃ index raw, (source.toList.splitOn '\n')[index]? = some raw ∧
        Line.ofText? (index + 1) raw = .ok (some line)) ∧
      document.DrawnBy (withoutComments lines) := by
  obtain ⟨lines, cut, h⟩ := ok_of_bind h
  obtain ⟨children, read, h⟩ := ok_of_bind h
  cases h
  have numbered := pairwise_linesFrom cut
  have whole : outlineLines (outline lines) = lines := outlineLines_outline lines
  have deepens := allDeepen_outline lines
  have even := allEven_of_block read
  obtain ⟨common, _, same⟩ := indent_of_block read
  have kept := keptOf_outline lines
  -- Lines are told apart by their numbers.
  have distinct : (keptOf (outline lines)).Nodup := by
    rw [kept]
    refine List.Nodup.sublist (withoutComments_sublist lines) (numbered.imp fun less same => ?_)
    exact absurd (congrArg Line.number same) (Nat.ne_of_lt less)
  refine ⟨lines, cut, numbered, mem_linesOf cut, ?_, ?_, ?_⟩
  · rw [← kept]
    exact block_matches_lines deepens (whole.symm ▸ numbered) read same .none
  · intro placed member parent is
    rw [← kept] at member
    rcases inBlock_all deepens even same rfl placed member with ⟨top, _⟩ | ⟨l, _, under, takes⟩
    · rw [top] at is
      cases is
    · rw [under] at is
      cases is
      exact takes
  · rw [← kept]
    exact siblings_all deepens even distinct same rfl nofun

def menu : String :=
  "%ul#menu\n  / note\n    hidden\n  - each item\n    %li= item\n\n  %li last\ntail"

theorem Document.drawnBy_lines_menu :
    ∃ document lines, Document.ofText menu = .ok document ∧ linesOf menu = .ok lines ∧
      (document.lineNodes.map fun (parent, node) => (parent.map Node.line, node.line)) =
        [(none, 1), (some 1, 4), (some 4, 5), (some 1, 7), (none, 8)] ∧
      document.DrawnBy (withoutComments lines) := by
  have shape : ((Document.ofText menu).map fun document =>
        document.lineNodes.map fun (parent, node) => (parent.map Node.line, node.line)).toOption =
      some [(none, 1), (some 1, 4), (some 4, 5), (some 1, 7), (none, 8)] := by decide +kernel
  cases read : Document.ofText menu with
  | error e =>
    rw [read] at shape
    cases shape
  | ok document =>
    rw [read] at shape
    obtain ⟨lines, cut, _, _, drawn⟩ := Document.drawnBy_lines read
    exact ⟨document, lines, rfl, cut, Option.some.inj shape, drawn⟩

end Stencil.Template
