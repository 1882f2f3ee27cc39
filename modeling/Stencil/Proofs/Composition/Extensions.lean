import Mathlib.Data.List.TakeWhile
import Stencil.Config
import Stencil.Proofs.Composition.Stores

/-! What the file names of templates and partials end with.

Templates and partials are looked up under names without an extension, and both get the one that is configured. The path
of a partial has one dot in front of it, whatever dots the setting begins with; the path of a template has one dot more
than the setting. So both read the setting alike as long as it does not begin with a dot.
-/

set_option autoImplicit false

namespace Stencil

namespace Path

theorem named_eq (p : Path) : p.named = (pieces p.text.toList).filter fun part => !isTrivial part := by
  unfold named split
  split
  · rename_i body same
    rw [same, pieces_cons, if_pos rfl]
    rfl
  · rename_i same
    rw [same]
    rfl
  · rename_i body same
    rw [same, pieces_cons, if_neg (by decide), pieces_cons, if_pos rfl]
    rfl
  · rfl

theorem getLast?_named (p : Path) : p.named.getLast? = (dropTrivial p.split.2).getLast? := by
  rw [named, List.getLast?_eq_head?_reverse, ← List.filter_reverse, List.head?_filter,
    List.find?_eq_head?_dropWhile_not, dropTrivial, List.getLast?_reverse]
  simp

theorem fileName?_eq_some_iff {p : Path} {file : List Char} :
    p.fileName? = some file ↔ p.named.getLast? = some file ∧ file ≠ ['.', '.'] := by
  rw [getLast?_named, List.getLast?_eq_head?_reverse, fileName?]
  split
  · rename_i piece before parts
    rw [parts, List.head?_cons]
    split
    · rename_i up
      simp only [reduceCtorEq, Option.some.injEq, false_iff, not_and, not_not]
      rintro rfl
      exact up
    · rename_i name
      simp only [Option.some.injEq, iff_self_and]
      rintro rfl
      exact name
  · rename_i parts
    simp [parts]

theorem isTrivial_of_fileName? {p : Path} {file : List Char} (named : p.fileName? = some file) :
    isTrivial file = false := by
  have member := List.mem_of_getLast? (fileName?_eq_some_iff.mp named).1
  simpa using (List.mem_filter.mp member).2

theorem fileName?_of_ends {p : Path} (before : List Char) {file : List Char} (text : p.text.toList = before ++ file)
    (folders : before = [] ∨ ∃ outer, before = outer ++ ['/']) (bare : '/' ∉ file)
    (ordinary : isTrivial file = false) (name : file ≠ ['.', '.']) : p.fileName? = some file := by
  have whole : pieces file = [file] := List.splitOn_eq_singleton bare
  have kept : [file].filter (fun part => !isTrivial part) = [file] := List.filter_cons_of_pos (by rw [ordinary]; rfl)
  refine fileName?_eq_some_iff.mpr ⟨?_, name⟩
  rw [named_eq, text]
  rcases folders with rfl | ⟨outer, rfl⟩
  · rw [List.nil_append, whole, kept]
    rfl
  · rw [List.append_assoc, List.singleton_append, pieces_append, List.filter_append, whole, kept]
    exact List.getLast?_concat

theorem fileName?_join {p q : Path} {file : List Char} (named : q.fileName? = some file) :
    (p.join q).fileName? = some file := by
  cases absolute : q.isAbsolute with
  | true => rwa [join, if_pos absolute]
  | false =>
    obtain ⟨last, name⟩ := fileName?_eq_some_iff.mp named
    refine fileName?_eq_some_iff.mpr ⟨?_, name⟩
    rw [named_eq] at last ⊢
    rw [text_join absolute]
    rcases p.asFolder_cases with folder | ⟨outer, folder⟩
    · rwa [folder, List.nil_append]
    · rw [folder, List.append_assoc, List.singleton_append, pieces_append, List.filter_append,
        List.getLast?_append, last, Option.some_or]

theorem intercalate_concat (parts : List (List Char)) (last : List Char) :
    ∃ before, List.intercalate ['/'] (parts ++ [last]) = before ++ last ∧
      (parts = [] ∧ before = [] ∨ ∃ outer, before = outer ++ ['/']) := by
  induction parts with
  | nil => exact ⟨[], List.intercalate_singleton, .inl ⟨rfl, rfl⟩⟩
  | cons part rest ih =>
    have filled : rest ++ [last] ≠ [] := List.append_ne_nil_of_right_ne_nil rest (List.cons_ne_nil last [])
    obtain ⟨next, others, same⟩ := List.exists_cons_of_ne_nil filled
    obtain ⟨before, text, folders⟩ := ih
    refine ⟨part ++ '/' :: before, ?_, .inr ?_⟩
    · rw [List.cons_append, same, List.intercalate_cons_cons, ← same, text]
      simp
    · rcases folders with ⟨-, rfl⟩ | ⟨outer, rfl⟩
      · exact ⟨part, rfl⟩
      · exact ⟨part ++ '/' :: outer, by simp⟩

theorem split_of_here {p : Path} (here : p.split.1 = .here) : p.split.2 = [] ∨ ∃ rest, p.split.2 = [] :: rest := by
  generalize same : p.split = parts at here ⊢
  unfold split at same
  split at same <;> cases same
  · cases here
  · exact .inl rfl
  · exact .inr ⟨_, rfl⟩
  · cases here

theorem ne_nil_of_here {p : Path} (here : p.split.1 = .here) {before : List (List Char)} {file : List Char}
    (parts : dropTrivial p.split.2 = before ++ [file]) (ordinary : isTrivial file = false) : before ≠ [] := by
  rintro rfl
  have first : [file] <+: p.split.2 := by
    obtain ⟨behind, whole⟩ := List.dropWhile_suffix isTrivial (l := p.split.2.reverse)
    refine ⟨behind.reverse, ?_⟩
    rw [← List.nil_append [file], ← parts, dropTrivial, ← List.reverse_append, whole, List.reverse_reverse]
  rcases split_of_here here with empty | ⟨rest, same⟩
  · rw [empty] at first
    cases List.prefix_nil.mp first
  · rw [same, List.cons_prefix_cons] at first
    rw [first.1] at ordinary
    cases ordinary

def ending (extension : String) : List Char := if extension = "" then [] else '.' :: extension.toList

theorem not_mem_ending {file : List Char} {extension : String} (slash : '/' ∉ file) (bare : '/' ∉ extension.toList) :
    '/' ∉ file ++ ending extension := by
  unfold ending
  split
  · simpa using slash
  · simp [slash, bare]

/-- A name stays one with an extension behind it. -/
theorem ordinary_ending {file : List Char} (ordinary : isTrivial file = false) (name : file ≠ ['.', '.'])
    (extension : String) :
    isTrivial (file ++ ending extension) = false ∧ file ++ ending extension ≠ ['.', '.'] := by
  unfold ending
  split
  · simpa using ⟨ordinary, name⟩
  · simp only [isTrivial, Bool.or_eq_false_iff, decide_eq_false_iff_not] at ordinary ⊢
    cases file with
    | nil => exact absurd rfl ordinary.1
    | cons c rest =>
      refine ⟨⟨List.cons_ne_nil _ _, ?_⟩, ?_⟩
      · simp
      · intro same
        obtain ⟨rfl, same⟩ := List.cons.inj same
        cases rest with
        | nil => exact ordinary.2 rfl
        | cons => simp at same

theorem splitExtension_of_none {name : List Char} (plain : (splitExtension name).2 = none) :
    (splitExtension name).1 = name := by
  unfold splitExtension at plain ⊢
  dsimp only at plain ⊢
  split at plain
  · rename_i empty
    rw [if_pos empty]
  · cases plain

theorem fileName?_withExtension {p : Path} {file : List Char} {extension : String} (named : p.fileName? = some file)
    (plain : p.extension? = none) (bare : '/' ∉ extension.toList) :
    (p.withExtension extension).fileName? = some (file ++ ending extension) := by
  have stem : (splitExtension file).1 = file := by
    rw [extension?, named, Option.bind_some] at plain
    exact splitExtension_of_none plain
  obtain ⟨last, name⟩ := fileName?_eq_some_iff.mp named
  rw [getLast?_named] at last
  obtain ⟨before, parts⟩ := List.getLast?_eq_some_iff.mp last
  have ordinary := isTrivial_of_fileName? named
  have path : p.withExtension extension = assemble p.split.1 (before ++ [file ++ ending extension]) := by
    unfold withExtension
    rw [parts, List.reverse_concat]
    dsimp only
    rw [if_neg name, stem, List.reverse_reverse]
    rfl
  obtain ⟨outer, text, folders⟩ := intercalate_concat before (file ++ ending extension)
  -- The new name stands behind a slash, or it is all of the path.
  refine fileName?_of_ends (p.split.1.text ++ outer) ?_ ?_ ?_ ?_ ?_
  · rw [path, assemble, String.toList_ofList, text, List.append_assoc]
  · rcases folders with ⟨alone, rfl⟩ | ⟨folder, rfl⟩
    · cases lead : p.split.1 with
      | none => exact .inl rfl
      | root => exact .inr ⟨[], rfl⟩
      | here => exact absurd alone (ne_nil_of_here lead parts ordinary)
    · exact .inr ⟨p.split.1.text ++ folder, by simp⟩
  · exact not_mem_ending (not_mem_of_fileName? named) bare
  · exact (ordinary_ending ordinary name extension).1
  · exact (ordinary_ending ordinary name extension).2

end Path

/-! ### The setting -/

namespace Context

/-- A setting is some dots and the rest, and the suffix is the rest behind one dot. -/
theorem exists_suffix (extension : String) :
    ∃ dots rest, extension.toList = List.replicate dots '.' ++ rest ∧ rest.head? ≠ some '.' ∧
      suffix extension = if rest = [] then [] else '.' :: rest := by
  refine ⟨(extension.toList.takeWhile (· = '.')).length, extension.toList.dropWhile (· = '.'), ?_, ?_, ?_⟩
  · have dots : extension.toList.takeWhile (· = '.') =
        List.replicate (extension.toList.takeWhile (· = '.')).length '.' :=
      List.eq_replicate_of_mem fun c member => by simpa using List.mem_takeWhile_imp member
    rw [← dots, List.takeWhile_append_dropWhile]
  · intro dot
    have := List.head?_dropWhile_not (· = '.') extension.toList
    rw [dot] at this
    simp at this
  · unfold suffix
    split
    · rename_i empty
      rw [if_pos empty]
    · rename_i rest filled
      rw [if_neg filled]

/-- What a template has at its end begins with the dots of the setting and goes on with the suffix. -/
theorem ending_eq {extension : String} {dots : Nat} {rest : List Char}
    (setting : extension.toList = List.replicate dots '.' ++ rest) (filled : rest ≠ []) :
    Path.ending extension = List.replicate dots '.' ++ '.' :: rest := by
  have some_ : extension ≠ "" := by
    rintro rfl
    exact filled (List.append_eq_nil_iff.mp setting.symm).2
  rw [Path.ending, if_neg some_, setting, ← List.cons_append, ← List.replicate_succ, List.replicate_succ',
    List.append_assoc]
  rfl

theorem suffix_suffix_ending (extension : String) : suffix extension <:+ Path.ending extension := by
  obtain ⟨dots, rest, setting, -, same⟩ := exists_suffix extension
  rw [same]
  split
  · exact List.nil_suffix
  · rename_i filled
    rw [ending_eq setting filled]
    exact List.suffix_append _ _

theorem ending_eq_suffix_iff (extension : String) :
    Path.ending extension = suffix extension ↔ extension.toList.head? ≠ some '.' := by
  obtain ⟨dots, rest, setting, bare, same⟩ := exists_suffix extension
  cases dots with
  | zero =>
    rw [List.replicate_zero, List.nil_append] at setting
    have empty : extension = "" ↔ rest = [] := by rw [← String.toList_eq_nil_iff, setting]
    refine iff_of_true ?_ (setting ▸ bare)
    rw [same, Path.ending]
    simp only [empty, setting]
  | succ dots =>
    rw [setting, List.replicate_succ, List.cons_append, List.head?_cons]
    refine iff_of_false (fun alike => ?_) fun other => other rfl
    -- The template's ending is longer by the dots that the setting begins with.
    have length := congrArg List.length alike
    have some_ : extension ≠ "" := by
      rintro rfl
      cases setting
    rw [same, Path.ending, if_neg some_, List.length_cons, setting, List.length_append, List.length_replicate] at length
    split at length
    · cases length
    · rw [List.length_cons] at length
      omega

theorem not_mem_suffix {extension : String} (bare : '/' ∉ extension.toList) : '/' ∉ suffix extension := by
  obtain ⟨dots, rest, setting, -, same⟩ := exists_suffix extension
  rw [setting] at bare
  rw [same]
  split
  · exact List.not_mem_nil
  · simp_all

theorem fileName?_partialPath (context : Context) {name : String} {file : List Char}
    (named : (⟨name⟩ : Path).fileName? = some file) (bare : '/' ∉ context.extension.toList) :
    (context.partialPath name).fileName? = some ('_' :: withSuffix (suffix context.extension) file) := by
  obtain ⟨folder, path⟩ : ∃ folder : Path, context.partialPath name =
      folder.join (context.partialFile ((⟨name⟩ : Path).fileName?.getD [])) := ⟨_, rfl⟩
  rw [path, named, Option.getD_some]
  refine Path.fileName?_join (Path.fileName?_of_ends [] String.toList_ofList (.inl rfl) ?_ ?_ ?_)
  · have slash := Path.not_mem_of_fileName? named
    have bare := not_mem_suffix bare
    unfold withSuffix
    split <;> simp [slash, bare]
  · simp [Path.isTrivial]
  · simp

end Context

/-! ### Templates -/

namespace Config

variable {config : Config} {name : String} {file : List Char}

theorem fileName?_complete? {path : Path} (named : path.fileName? = some file) (plain : path.extension? = none)
    (bare : '/' ∉ config.options.extension.toList) :
    ∃ complete, config.complete? path = some complete ∧
      complete.fileName? = some (file ++ Path.ending config.options.extension) := by
  unfold complete?
  dsimp only
  by_cases empty : config.options.extension = ""
  · refine ⟨path, by simp [empty], ?_⟩
    rw [named, Path.ending, if_pos empty, List.append_nil]
  · refine ⟨path.withExtension config.options.extension, ?_, Path.fileName?_withExtension named plain bare⟩
    rw [if_neg (by simp [plain, empty]), if_neg (by simpa using bare)]

theorem fileName?_templatePath? (store : Store) (folder : Path) (named : (⟨name⟩ : Path).fileName? = some file)
    (plain : (⟨name⟩ : Path).extension? = none) (bare : '/' ∉ config.options.extension.toList) :
    ∃ path, config.templatePath? store folder name = some path ∧
      path.fileName? = some (file ++ Path.ending config.options.extension) := by
  have below (outer : Path) : ∃ complete, config.complete? (outer.join ⟨name⟩) = some complete ∧
      complete.fileName? = some (file ++ Path.ending config.options.extension) := by
    have joined := Path.fileName?_join (p := outer) named
    refine fileName?_complete? joined ?_ bare
    rw [Path.extension?, named] at plain
    rwa [Path.extension?, joined]
  obtain ⟨near, found, near_⟩ := below folder
  obtain ⟨far, found', far_⟩ := below (config.viewsPath folder)
  refine ⟨if store.holds near then near else far, ?_, ?_⟩
  · rw [templatePath?, candidates?, found, found']
    rfl
  · split
    · exact near_
    · exact far_

/-- A partial ends with one dot and what follows the dots of the setting; a template does so exactly if the setting
begins with no dot. -/
theorem template_and_partial_end (config : Config) (context : Context) (store : Store) (folder : Path)
    (same : context.extension = config.options.extension) (bare : '/' ∉ config.options.extension.toList)
    (named : (⟨name⟩ : Path).fileName? = some file) (plain : (⟨name⟩ : Path).extension? = none) :
    ∃ dots rest path, config.options.extension.toList = List.replicate dots '.' ++ rest ∧ rest.head? ≠ some '.' ∧
      let suffix := if rest = [] then [] else '.' :: rest
      config.templatePath? store folder name = some path ∧
      path.fileName? = some (file ++ Path.ending config.options.extension) ∧
      (context.partialPath name).fileName? = some ('_' :: Context.withSuffix suffix file) ∧
      suffix <:+ file ++ Path.ending config.options.extension ∧
      (path.fileName? = some (file ++ suffix) ↔ config.options.extension.toList.head? ≠ some '.') := by
  obtain ⟨dots, rest, setting, rest_, suffix⟩ := Context.exists_suffix config.options.extension
  obtain ⟨path, found, looked⟩ := fileName?_templatePath? store folder named plain bare
  refine ⟨dots, rest, path, setting, rest_, ?_⟩
  rw [← suffix]
  refine ⟨found, looked, ?_, ?_, ?_⟩
  · rw [context.fileName?_partialPath named (same ▸ bare), same]
  · exact (Context.suffix_suffix_ending _).trans (List.suffix_append _ _)
  · rw [looked, Option.some.injEq, List.append_cancel_left_eq, Context.ending_eq_suffix_iff]

end Config

/-! ### A setting that begins with a dot -/

namespace Dotted

def config (extension : String) : Config :=
  { Config.standard with options := { Options.standard with extension } }

def context (extension : String) : Context :=
  { layout := none, main := ⟨[]⟩, folder := ⟨"views"⟩, extension }

end Dotted

open Dotted in
theorem template_and_partial_end_haml :
    (context "haml").extension = (config "haml").options.extension ∧ '/' ∉ (config "haml").options.extension.toList ∧
      (⟨"index"⟩ : Path).fileName? = some "index".toList ∧ (⟨"index"⟩ : Path).extension? = none ∧
      ∃ path, (config "haml").templatePath? Files.empty.store ⟨"app"⟩ "index" = some path ∧
        path.fileName? = some "index.haml".toList ∧
        ((context "haml").partialPath "index").fileName? = some "_index.haml".toList := by
  have named : (⟨"index"⟩ : Path).fileName? = some "index".toList := by decide
  have plain : (⟨"index"⟩ : Path).extension? = none := by decide
  refine ⟨rfl, by decide, named, plain, ?_⟩
  obtain ⟨dots, rest, path, -, -, found, looked, -, -, -⟩ :=
    Config.template_and_partial_end (config "haml") (context "haml") Files.empty.store ⟨"app"⟩ rfl (by decide) named
      plain
  exact ⟨path, found, looked, by decide⟩

open Dotted in
/-- With a setting that begins with a dot, the name of the template has two dots where that of the partial has one. -/
theorem dotted_setting_read_apart :
    (config ".haml").templatePath? Files.empty.store ⟨"app"⟩ "index" = some ⟨"app/views/index..haml"⟩ ∧
      (context ".haml").partialPath "index" = ⟨"views/_index.haml"⟩ ∧
      Context.suffix (config ".haml").options.extension = ".haml".toList ∧
      (⟨"app/views/index..haml"⟩ : Path).fileName? ≠ some ("index".toList ++ ".haml".toList) := by
  decide

end Stencil
