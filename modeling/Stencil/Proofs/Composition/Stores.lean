import Stencil.Proofs.Composition.Lookups
import Stencil.Proofs.Template.Lines
import Stencil.Store.Disk
import Stencil.Store.Files

/-! Stores in which paths that agree lead to the same.

Files in memory are found by any path that agrees with their own. On a disk, a path is followed part by part, and the
parts that are no components lead nowhere else. But a path may be too long for a disk, while one that agrees with it is
not.
-/

set_option autoImplicit false

namespace Stencil

/-! ### Files in memory -/

theorem Files.alike (files : Files) (context : Context) : context.Alike files.store Set.univ := by
  intro name _ other _ agrees there
  have same : files.find? (context.partialPath other) = files.find? (context.partialPath name) := by
    simp only [find?, Path.agrees, Path.agrees_iff.1 agrees]
  have found : files.holds (context.partialPath other) = files.holds (context.partialPath name) := by
    simp only [holds, same]
  obtain ⟨file, known⟩ : ∃ file, files.find? (context.partialPath name) = some file :=
    Option.isSome_iff_exists.1 there
  refine ⟨found.trans there, ?_⟩
  simp only [store, read, same, known]

/-! ### Parts of paths -/

namespace Path

theorem pieces_cons (c : Char) (s : List Char) :
    pieces (c :: s) = if c = '/' then [] :: pieces s else (pieces s).modifyHead (c :: ·) := by
  simp [pieces, List.splitOn_cons_eq_if_modifyHead]

theorem pieces_ne_nil (s : List Char) : pieces s ≠ [] := List.splitOn_ne_nil '/' s

theorem pieces_append (s t : List Char) : pieces (s ++ '/' :: t) = pieces s ++ pieces t :=
  List.splitOn_append_cons_self s t

theorem mem_pieces {c : Char} (ordinary : c ≠ '/') (s : List Char) : c ∈ s ↔ ∃ piece ∈ pieces s, c ∈ piece := by
  induction s with
  | nil => simp [pieces]
  | cons d s ih =>
    obtain ⟨first, rest, parts⟩ := List.exists_cons_of_ne_nil (pieces_ne_nil s)
    rw [pieces_cons, List.mem_cons, ih, parts]
    split
    · rename_i slash
      simp [slash, ordinary]
    · simp [or_assoc]

theorem pieces_replicate (n : Nat) (s : List Char) :
    pieces (List.replicate n '/' ++ s) = List.replicate n [] ++ pieces s := by
  induction n with
  | zero => rfl
  | succ n ih => rw [List.replicate_succ, List.cons_append, pieces_cons, if_pos rfl, ih]; rfl

theorem dropTrivial_concat (parts : List (List Char)) {last : List Char} (ordinary : isTrivial last = false) :
    dropTrivial (parts ++ [last]) = parts ++ [last] := by
  rw [dropTrivial, List.reverse_concat, List.dropWhile_cons_of_neg (by rw [ordinary]; decide), ← List.reverse_concat,
    List.reverse_reverse]

/-- Whether the last part of a path is a component. -/
def EndsInName (p : Path) : Prop := ∃ part, p.split.2.getLast? = some part ∧ isTrivial part = false

theorem EndsInName.of_getLast? {p q : Path} (ends : p.EndsInName) (same : q.split.2.getLast? = p.split.2.getLast?) :
    q.EndsInName := by
  obtain ⟨part, last, ordinary⟩ := ends
  exact ⟨part, same.trans last, ordinary⟩

theorem getLast?_cons_pieces (part s : List Char) : (part :: pieces s).getLast? = (pieces s).getLast? := by
  obtain ⟨first, rest, parts⟩ := List.exists_cons_of_ne_nil (pieces_ne_nil s)
  rw [parts, List.getLast?_cons_cons]

theorem getLast?_pieces_append (s t : List Char) : (pieces (s ++ '/' :: t)).getLast? = (pieces t).getLast? := by
  obtain ⟨last, same⟩ := Option.isSome_iff_exists.1 (List.getLast?_isSome.2 (pieces_ne_nil t))
  rw [pieces_append, List.getLast?_append, same, Option.some_or]

theorem getLast?_split {p : Path} (long : p.text.toList ≠ ['.']) :
    p.split.2.getLast? = (pieces p.text.toList).getLast? := by
  unfold split
  split
  · rename_i body same
    rw [same, pieces_cons, if_pos rfl, getLast?_cons_pieces]
  · rename_i same
    exact absurd same long
  · rename_i body same
    rw [same, getLast?_cons_pieces, pieces_cons, if_neg (by decide), pieces_cons, if_pos rfl,
      List.modifyHead_cons, getLast?_cons_pieces]
  · rfl

theorem isAbsolute_iff {p : Path} : p.isAbsolute = true ↔ p.split.1 = .root := by
  unfold isAbsolute split
  split
  · rename_i body same
    simp [same]
  · rename_i same
    simp [same]
  · rename_i body same
    simp [same]
  · rename_i body other _ _
    cases text : p.text.toList with
    | nil => simp
    | cons c rest =>
      have ordinary : c ≠ '/' := fun same => other rest (by rw [text, same])
      simp [ordinary]

def named (p : Path) : List (List Char) := p.split.2.filter fun part => !isTrivial part

theorem component_injective : Function.Injective component := by
  intro part other same
  unfold component at same
  split at same <;> split at same
  · simp_all
  · cases same
  · cases same
  · exact String.ofList_injective (Component.name.inj same)

theorem component_ne_lead (part : List Char) : component part ≠ .root ∧ component part ≠ .here := by
  unfold component
  split <;> exact ⟨Component.noConfusion, Component.noConfusion⟩

/-- Components tell where a path begins, and the names on its way. -/
theorem lead_append_injective {first second : Lead} {parts others : List (List Char)}
    (same : leadComponents first ++ parts.map component = leadComponents second ++ others.map component) :
    first = second ∧ parts = others := by
  have injective := List.map_injective_iff.2 component_injective
  cases first <;> cases second
  case none.none => exact ⟨rfl, injective same⟩
  case root.root | here.here => exact ⟨rfl, injective (List.cons.inj same).2⟩
  case root.here | here.root => cases (List.cons.inj same).1
  case none.root | none.here => cases parts <;> simp [leadComponents, component_ne_lead] at same
  case root.none | here.none =>
    cases others with
    | nil => cases same
    | cons part _ => simp [leadComponents, (component_ne_lead part).1.symm, (component_ne_lead part).2.symm] at same

theorem split_of_agrees {p q : Path} (agrees : p.agrees q = true) : p.split.1 = q.split.1 ∧ p.named = q.named :=
  lead_append_injective (agrees_iff.1 agrees)

theorem mem_named {p : Path} {c : Char} (slash : c ≠ '/') (dot : c ≠ '.') :
    c ∈ p.text.toList ↔ ∃ part ∈ p.named, c ∈ part := by
  have parts : c ∈ p.text.toList ↔ ∃ part ∈ p.split.2, c ∈ part := by
    unfold split
    split
    · rename_i body same
      rw [same, List.mem_cons, mem_pieces slash body]
      simp [slash]
    · rename_i same
      simp [same, dot]
    · rename_i body same
      rw [same, List.mem_cons, List.mem_cons, mem_pieces slash body]
      simp [slash, dot]
    · exact mem_pieces slash _
  rw [parts]
  constructor
  · rintro ⟨part, member, inside⟩
    refine ⟨part, List.mem_filter.2 ⟨member, ?_⟩, inside⟩
    simp only [isTrivial, Bool.not_eq_true', Bool.or_eq_false_iff, decide_eq_false_iff_not]
    exact ⟨List.ne_nil_of_mem inside, fun same => dot (List.mem_singleton.1 (same ▸ inside))⟩
  · rintro ⟨part, member, inside⟩
    exact ⟨part, (List.mem_filter.1 member).1, inside⟩

theorem not_mem_of_fileName? {p : Path} {name : List Char} (named : p.fileName? = some name) : '/' ∉ name := by
  unfold fileName? at named
  split at named
  · rename_i piece before parts
    split at named
    · cases named
    cases named
    have member : name ∈ p.split.2 := by
      have last : name ∈ dropTrivial p.split.2 := List.mem_reverse.1 (parts ▸ List.mem_cons_self)
      rw [dropTrivial, List.mem_reverse] at last
      exact List.mem_reverse.1 ((List.dropWhile_suffix _).subset last)
    unfold split at member
    split at member
    · exact Template.not_mem_of_mem_splitOn _ _ member
    · cases member
    · rcases List.mem_cons.1 member with rfl | member
      · exact List.not_mem_nil
      · exact Template.not_mem_of_mem_splitOn _ _ member
    · exact Template.not_mem_of_mem_splitOn _ _ member
  · cases named

/-- What a path comes to in front of a relative one. -/
def asFolder (p : Path) : List Char :=
  match p.text.toList.getLast? with
  | none => []
  | some '/' => p.text.toList
  | some _ => p.text.toList ++ ['/']

theorem text_join {p q : Path} (relative : q.isAbsolute = false) :
    (p.join q).text.toList = p.asFolder ++ q.text.toList := by
  unfold join asFolder
  rw [if_neg (by rw [relative]; decide)]
  cases p.text.toList.getLast? with
  | none => rfl
  | some last =>
    by_cases slash : last = '/'
    · subst slash
      exact String.toList_append
    · simp [String.toList_append]

theorem asFolder_cases (p : Path) : p.asFolder = [] ∨ ∃ outer, p.asFolder = outer ++ ['/'] := by
  unfold asFolder
  split
  · exact .inl rfl
  · rename_i last
    exact .inr (List.getLast?_eq_some_iff.1 last)
  · exact .inr ⟨_, rfl⟩

theorem asFolder_of_getLast? {p : Path} {last : Char} (ends : p.text.toList.getLast? = some last) (bare : last ≠ '/') :
    p.asFolder = p.text.toList ++ ['/'] := by
  simp [asFolder, ends]

end Path

/-! ### Files on a disk -/

namespace Disk

open Stencil.Path (isTrivial)

variable {disk : Disk} {place found : Place}

theorem follow_of_not_isFolder (closed : disk.isFolder place = false) (part : List Char) :
    disk.follow place part = .error .notFolder := by
  simp [follow, closed]

theorem follow_of_isTrivial (open_ : disk.isFolder place = true) {part : List Char} (trivial_ : isTrivial part = true) :
    disk.follow place part = .ok place := by
  have ordinary : part ≠ ['.', '.'] := by
    rintro rfl
    cases trivial_
  simp [follow, open_, ordinary, trivial_]

/-- Parts that are no components make no difference in front of a name. -/
theorem foldlM_follow (disk : Disk) (place : Place) {parts : List (List Char)}
    (ends : ∃ part, parts.getLast? = some part ∧ isTrivial part = false) :
    parts.foldlM disk.follow place = (parts.filter fun part => !isTrivial part).foldlM disk.follow place := by
  induction parts generalizing place with
  | nil => rfl
  | cons part rest ih =>
    cases rest with
    | nil =>
      obtain ⟨last, same, ordinary⟩ := ends
      obtain rfl : part = last := Option.some.inj same
      rw [List.filter_cons_of_pos (by rw [ordinary]; rfl), List.filter_nil]
    | cons next rest =>
      rw [List.getLast?_cons_cons] at ends
      cases trivial_ : isTrivial part with
      | false =>
        rw [List.filter_cons_of_pos (by rw [trivial_]; rfl), List.foldlM_cons, List.foldlM_cons]
        exact bind_congr fun inside => ih inside ends
      | true =>
        rw [List.filter_cons_of_neg (by rw [trivial_]; decide), ← ih place ends, List.foldlM_cons]
        cases open_ : disk.isFolder place with
        | true =>
          rw [follow_of_isTrivial open_ trivial_]
          rfl
        | false =>
          -- The next part finds no folder here either.
          rw [List.foldlM_cons, follow_of_not_isFolder open_, follow_of_not_isFolder open_]
          rfl

def start (disk : Disk) (path : Path) : Place := if path.isAbsolute then [] else disk.home

theorem locate_eq_ok_iff {p : Path} : disk.locate p = .ok found ↔
    p.text ≠ "" ∧ Char.ofNat 0 ∉ p.text.toList ∧ p.text.utf8ByteSize ≤ pathLimit ∧
      p.split.2.foldlM disk.follow (disk.start p) = .ok found := by
  unfold locate
  by_cases empty : p.text = ""
  · simp [empty]
  by_cases zero : Char.ofNat 0 ∈ p.text.toList
  · simp [empty, zero]
  by_cases long : pathLimit < p.text.utf8ByteSize
  · simp [empty, zero, long]
  · simp [empty, zero, long, Nat.not_lt.1 long, start]

theorem locate_of_agrees {p q : Path} (agrees : p.agrees q = true) (ends : p.EndsInName) (ends' : q.EndsInName)
    (short : q.text.utf8ByteSize ≤ pathLimit) (located : disk.locate p = .ok found) : disk.locate q = .ok found := by
  obtain ⟨lead, named⟩ := Path.split_of_agrees agrees
  have begins : disk.start p = disk.start q := by
    have absolute : p.isAbsolute = q.isAbsolute := by
      rw [Bool.eq_iff_iff, Path.isAbsolute_iff, Path.isAbsolute_iff, lead]
    rw [start, start, absolute]
  obtain ⟨_, zero, _, followed⟩ := locate_eq_ok_iff.1 located
  refine locate_eq_ok_iff.2 ⟨?_, ?_, short, ?_⟩
  · intro empty
    obtain ⟨part, last, ordinary⟩ := ends'
    rw [Path.split, empty] at last
    cases last
    cases ordinary
  · rwa [Path.mem_named (by decide) (by decide), ← named, ← Path.mem_named (by decide) (by decide)]
  · rw [foldlM_follow disk _ ends, begins] at followed
    rw [foldlM_follow disk _ ends', ← followed]
    exact congrArg (fun parts => List.foldlM disk.follow _ parts) named.symm

theorem holds_eq_true_iff {p : Path} :
    disk.holds p = true ↔ ∃ place, disk.locate p = .ok place ∧ (disk.file? place).isSome := by
  unfold holds
  cases disk.locate p <;> simp

theorem endsInName_of_holds {p : Path} (long : p.text.toList ≠ ['.']) (there : disk.holds p = true) :
    p.EndsInName := by
  obtain ⟨last, same⟩ : ∃ last, p.split.2.getLast? = some last := by
    rw [Path.getLast?_split long, ← Option.isSome_iff_exists, List.getLast?_isSome]
    exact Path.pieces_ne_nil _
  refine ⟨last, same, Bool.eq_false_iff.2 fun trivial_ => ?_⟩
  obtain ⟨before, parts⟩ := List.getLast?_eq_some_iff.1 same
  obtain ⟨place, located, file⟩ := holds_eq_true_iff.1 there
  obtain ⟨_, _, _, followed⟩ := locate_eq_ok_iff.1 located
  rw [parts, List.foldlM_append] at followed
  obtain ⟨inside, _, followed⟩ := bind_eq_ok_iff.1 followed
  rw [List.foldlM_cons] at followed
  obtain ⟨_, followed, same⟩ := bind_eq_ok_iff.1 followed
  cases same
  -- A part that is no component asks for a folder.
  cases open_ : disk.isFolder inside with
  | false =>
    rw [follow_of_not_isFolder open_] at followed
    cases followed
  | true =>
    rw [follow_of_isTrivial open_ trivial_] at followed
    cases followed
    simp only [isFolder, Bool.and_eq_true, Option.isNone_iff_eq_none] at open_
    rw [open_.1] at file
    cases file

theorem holds_of_agrees {p q : Path} (agrees : p.agrees q = true) (ends : p.EndsInName) (ends' : q.EndsInName)
    (short : q.text.utf8ByteSize ≤ pathLimit) (there : disk.holds p = true) :
    disk.holds q = true ∧ disk.read q = disk.read p := by
  obtain ⟨place, located, file⟩ := holds_eq_true_iff.1 there
  have located' := locate_of_agrees agrees ends ends' short located
  exact ⟨holds_eq_true_iff.2 ⟨place, located', file⟩, by simp only [read, text, located, located']⟩

end Disk

namespace Context

variable (context : Context)

theorem withSuffix_eq (suffix name : List Char) : ∃ base, withSuffix suffix name = base ++ suffix ∧ base <+: name := by
  unfold withSuffix
  split
  · rename_i ends
    obtain ⟨base, rfl⟩ := List.isSuffixOf_iff_suffix.1 ends
    exact ⟨base, rfl, List.prefix_append _ _⟩
  · exact ⟨name, rfl, List.prefix_rfl⟩

/-- The path of a partial: folders, an underscore, and a name with the suffix at its end. -/
theorem partialPath_text (context : Context) (name : String) :
    ∃ before base, (context.partialPath name).text.toList = before ++ '_' :: (base ++ suffix context.extension) ∧
      (before = [] ∨ ∃ outer, before = outer ++ ['/']) ∧ '/' ∉ base := by
  have slash : '/' ∉ ((⟨name⟩ : Path).fileName?.getD []) := by
    cases named : (⟨name⟩ : Path).fileName? with
    | none => exact List.not_mem_nil
    | some piece => exact Path.not_mem_of_fileName? named
  obtain ⟨folder, path⟩ : ∃ folder : Path,
      context.partialPath name = folder.join (context.partialFile ((⟨name⟩ : Path).fileName?.getD [])) := ⟨_, rfl⟩
  rw [path]
  generalize (⟨name⟩ : Path).fileName?.getD [] = piece at slash ⊢
  obtain ⟨base, same, part⟩ := withSuffix_eq (suffix context.extension) piece
  have text : (context.partialFile piece).text.toList = '_' :: (base ++ suffix context.extension) := by
    rw [partialFile, String.toList_ofList, same]
  have relative : (context.partialFile piece).isAbsolute = false := by
    rw [Path.isAbsolute, text]
    rfl
  exact ⟨folder.asFolder, base, by rw [Path.text_join relative, text], folder.asFolder_cases,
    fun member => slash (part.subset member)⟩

theorem partialPath_ne_here (context : Context) (name : String) : (context.partialPath name).text.toList ≠ ['.'] := by
  obtain ⟨before, base, text, _⟩ := partialPath_text context name
  intro same
  have member : '_' ∈ (context.partialPath name).text.toList := text ▸ List.mem_append_right _ List.mem_cons_self
  rw [same] at member
  simp at member

/-- The last part of a partial's path: what ends the suffix, or a name. -/
theorem getLast?_partialPath (context : Context) :
    (∃ ending, ∀ name, (context.partialPath name).split.2.getLast? = (Path.pieces ending).getLast?) ∨
      ∀ name, (context.partialPath name).EndsInName := by
  by_cases slash : '/' ∈ suffix context.extension
  · obtain ⟨first, ending, same⟩ := List.append_of_mem slash
    refine .inl ⟨ending, fun name => ?_⟩
    obtain ⟨before, base, text, _⟩ := partialPath_text context name
    have split : before ++ '_' :: (base ++ suffix context.extension) =
        (before ++ '_' :: (base ++ first)) ++ '/' :: ending := by simp [same]
    rw [Path.getLast?_split (partialPath_ne_here context name), text, split, Path.getLast?_pieces_append]
  · refine .inr fun name => ?_
    obtain ⟨before, base, text, folders, bare⟩ := partialPath_text context name
    have whole : Path.pieces ('_' :: (base ++ suffix context.extension)) = ['_' :: (base ++ suffix context.extension)] :=
      List.splitOn_eq_singleton (by simp [slash, bare])
    refine ⟨'_' :: (base ++ suffix context.extension), ?_, by simp [Path.isTrivial]⟩
    rw [Path.getLast?_split (partialPath_ne_here context name), text]
    rcases folders with rfl | ⟨outer, rfl⟩
    · rw [List.nil_append, whole]
      rfl
    · rw [List.append_assoc, List.singleton_append, Path.getLast?_pieces_append, whole]
      rfl

end Context

/-- A disk answers alike for partials whose paths agree, as long as the paths are not too long. -/
theorem Disk.alike (disk : Disk) (context : Context) :
    context.Alike disk.store {name | (context.partialPath name).text.utf8ByteSize ≤ pathLimit} := by
  intro name _ other short
  have long := Context.partialPath_ne_here context name
  have ends (named : (context.partialPath name).EndsInName) : (context.partialPath other).EndsInName := by
    rcases context.getLast?_partialPath with ⟨ending, last⟩ | all
    · exact named.of_getLast? ((last other).trans (last name).symm)
    · exact all other
  rw [Set.mem_ofPred_eq] at short
  -- The paths stay variables from here on, for else they would be unfolded.
  generalize context.partialPath name = p, context.partialPath other = q at *
  intro agrees there
  have named : p.EndsInName := endsInName_of_holds long there
  exact holds_of_agrees agrees named (ends named) short there

end Stencil
