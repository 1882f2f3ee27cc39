import Mathlib.Data.List.TakeWhile
import Stencil.Proofs.Program.Source

/-! The rules that a text is cut by.

A rule tells which texts are pieces of its kind, with no word on how they are found. At each place of a text the longest
piece is cut that any rule allows, and a keyword before a name. Where no rule allows any piece, a stretch is given up.
-/

set_option autoImplicit false

namespace Stencil.Program

/-! ### Rules -/

/-- What may stand between the quotes of a string: no such quote and no line feed behind a backslash. -/
inductive IsStringBody (quote : Char) : List Char → Prop where
  | nil : IsStringBody quote []
  | plain {c : Char} {rest : List Char} (other : c ≠ quote) (bare : c ≠ '\\') (more : IsStringBody quote rest) :
    IsStringBody quote (c :: rest)
  | escape {c : Char} {rest : List Char} (line : c ≠ '\n') (more : IsStringBody quote rest) :
    IsStringBody quote ('\\' :: c :: rest)

/-- The rules for tokens, and for what is skipped between them. -/
inductive Rule where
  | keyword (word : Keyword)
  | name
  | string (quote : Char)
  | integer
  | float
  | symbol (sign : Symbol)
  | blanks
  | comment
  deriving DecidableEq

inductive First where
  | space
  | letter
  | digit
  | quote
  | other
  deriving DecidableEq

def firstOf (c : Char) : First :=
  if isSpace c then .space
  else if isNameStart c then .letter
  else if c.isDigit then .digit
  else if c = '"' ∨ c = '\'' then .quote
  else .other

namespace Rule

/-- The texts that are pieces by a rule. -/
inductive Matches : Rule → List Char → Prop where
  | keyword (word : Keyword) : Matches (.keyword word) word.text.toList
  | name {c : Char} {rest : List Char} (start : isNameStart c) (parts : ∀ d ∈ rest, isNamePart d) :
    Matches .name (c :: rest)
  | string {quote : Char} {body : List Char} (either : quote = '"' ∨ quote = '\'') (inside : IsStringBody quote body) :
    Matches (.string quote) (quote :: (body ++ [quote]))
  | integer {digits : List Char} (some : digits ≠ []) (all : ∀ d ∈ digits, d.isDigit) : Matches .integer digits
  | float {whole fraction : List Char} (some : whole ≠ []) (all : ∀ d ∈ whole, d.isDigit) (some' : fraction ≠ [])
    (all' : ∀ d ∈ fraction, d.isDigit) : Matches .float (whole ++ '.' :: fraction)
  | symbol (sign : Symbol) : Matches (.symbol sign) sign.text.toList
  | blanks {text : List Char} (some : text ≠ []) (all : ∀ c ∈ text, isSpace c) : Matches .blanks text
  | comment {text : List Char} (line : '\n' ∉ text) : Matches .comment ('/' :: '/' :: text)

def kindOf : Rule → List Char → PieceKind
  | .keyword word, _ => .token (.keyword word)
  | .name, text => .token (.name (String.ofList text))
  | .string _, text => .token (.string (String.ofList (resolveEscapes text.tail.dropLast)))
  | .integer, text => integerKind text
  | .float, text => floatKind (text.takeWhile Char.isDigit) (text.dropWhile Char.isDigit).tail
  | .symbol sign, _ => .token (.symbol sign)
  | .blanks, _ => .skipped
  | .comment, _ => .skipped

def first : Rule → First
  | .keyword _ => .letter
  | .name => .letter
  | .string _ => .quote
  | .integer => .digit
  | .float => .digit
  | .symbol _ => .other
  | .blanks => .space
  | .comment => .other

structure Longest (rule : Rule) (text after : List Char) : Prop where
  here : rule.Matches text
  longest : ∀ (other : Rule) (part : List Char), other.Matches part → part <+: text ++ after →
    part.length ≤ text.length
  keyword : ∀ word : Keyword, (Rule.keyword word).Matches text → rule = .keyword word

end Rule

/-- How a piece in front of a text comes about. -/
inductive Settled : (kind : PieceKind) → (text after : List Char) → Prop where
  | ruled {text after : List Char} (rule : Rule) (longest : rule.Longest text after) :
    Settled (rule.kindOf text) text after
  | stray {text after : List Char}
    (none : ∀ (rule : Rule) (part : List Char), rule.Matches part → ¬ part <+: text ++ after) : Settled .bad text after

/-! ### The first character -/

theorem isSpace_of_isDigit {c : Char} (digit : c.isDigit) : isSpace c = false := by
  simp only [isSpace, Bool.or_eq_false_iff, decide_eq_false_iff_not]
  refine ⟨⟨⟨⟨?_, ?_⟩, ?_⟩, ?_⟩, ?_⟩
  case refine_5 =>
    have bounds : 48 ≤ c.toNat ∧ c.toNat ≤ 57 := Char.isDigit_iff_toNat.mp digit
    omega
  all_goals
    rintro rfl
    cases digit

theorem isNameStart_of_isDigit {c : Char} (digit : c.isDigit) : isNameStart c = false := by
  have bounds : 48 ≤ c.toNat ∧ c.toNat ≤ 57 := Char.isDigit_iff_toNat.mp digit
  have apart : c ≠ '_' := by
    rintro rfl
    cases digit
  rw [Bool.eq_false_iff, isNameStart, ne_eq, Bool.or_eq_true, decide_eq_true_eq, not_or]
  refine ⟨fun letter => ?_, apart⟩
  rcases (Bool.or_eq_true _ _).mp letter with upper | lower
  · have range : 65 ≤ c.toNat ∧ c.toNat ≤ 90 := of_decide_eq_true upper
    omega
  · have range : 97 ≤ c.toNat := of_decide_eq_true ((Bool.and_eq_true _ _).mp lower).1
    omega

theorem firstOf_symbol (sign : Symbol) : sign.text.toList.head?.map firstOf = some .other := by
  cases sign <;> rfl

theorem firstOf_keyword (word : Keyword) : word.text.toList.head?.map firstOf = some .letter := by
  cases word <;> rfl

theorem firstOf_of_isSpace {c : Char} (space : isSpace c) : firstOf c = .space := if_pos space

theorem firstOf_of_isNameStart {c : Char} (start : isNameStart c) : firstOf c = .letter := by
  rw [firstOf, if_neg (by rw [isSpace_of_isNameStart start]; decide), if_pos start]

theorem firstOf_of_isDigit {c : Char} (digit : c.isDigit) : firstOf c = .digit := by
  rw [firstOf, if_neg (by rw [isSpace_of_isDigit digit]; decide),
    if_neg (by rw [isNameStart_of_isDigit digit]; decide), if_pos digit]

theorem firstOf_of_quote {c : Char} (quote : c = '"' ∨ c = '\'') : firstOf c = .quote := by
  rcases quote with rfl | rfl <;> rfl

/-- The first character of a piece tells its rule, but for a few. -/
theorem Rule.Matches.firstOf {rule : Rule} {part : List Char} (is : rule.Matches part) :
    ∃ c rest, part = c :: rest ∧ firstOf c = rule.first := by
  cases is with
  | keyword word =>
    obtain ⟨c, head, same⟩ := Option.map_eq_some_iff.mp (firstOf_keyword word)
    obtain ⟨rest, text⟩ := List.head?_eq_some_iff.mp head
    exact ⟨c, rest, text, same⟩
  | name start _ => exact ⟨_, _, rfl, firstOf_of_isNameStart start⟩
  | string either _ => exact ⟨_, _, rfl, firstOf_of_quote either⟩
  | integer some all =>
    obtain ⟨d, rest, rfl⟩ := List.exists_cons_of_ne_nil some
    exact ⟨d, rest, rfl, firstOf_of_isDigit (all d List.mem_cons_self)⟩
  | float some all _ _ =>
    obtain ⟨d, rest, rfl⟩ := List.exists_cons_of_ne_nil some
    exact ⟨d, _, rfl, firstOf_of_isDigit (all d List.mem_cons_self)⟩
  | symbol sign =>
    obtain ⟨c, head, same⟩ := Option.map_eq_some_iff.mp (firstOf_symbol sign)
    obtain ⟨rest, text⟩ := List.head?_eq_some_iff.mp head
    exact ⟨c, rest, text, same⟩
  | blanks some all =>
    obtain ⟨c, rest, rfl⟩ := List.exists_cons_of_ne_nil some
    exact ⟨c, rest, rfl, firstOf_of_isSpace (all c List.mem_cons_self)⟩
  | comment _ => exact ⟨'/', _, rfl, rfl⟩

section

variable {c : Char} {rest part : List Char}

theorem Rule.Matches.first_eq_firstOf {rule : Rule} (is : rule.Matches part) (ahead : part <+: c :: rest) :
    rule.first = Program.firstOf c := by
  obtain ⟨d, back, rfl, same⟩ := is.firstOf
  rw [← same, (List.cons_prefix_cons.mp ahead).1]

theorem Rule.Matches.first_eq {rule other : Rule} {text after : List Char} (is : other.Matches part)
    (here : rule.Matches text) (ahead : part <+: text ++ after) : other.first = rule.first := by
  obtain ⟨c, front, rfl, same⟩ := here.firstOf
  exact (is.first_eq_firstOf ahead).trans same

/-- Where no word can begin, only the rules count that begin alike. -/
theorem Rule.longest_of_first {rule : Rule} {text after : List Char} (here : rule.Matches text)
    (noWord : rule.first ≠ .letter)
    (longest : ∀ (other : Rule) (part : List Char), other.Matches part → other.first = rule.first →
      part <+: text ++ after → part.length ≤ text.length) : rule.Longest text after where
  here := here
  longest other part is ahead := longest other part is (is.first_eq here ahead) ahead
  keyword _ is := absurd (is.first_eq here (List.prefix_append text [])).symm noWord

/-! ### Blanks and words -/

theorem prefix_takeWhile {p : Char → Bool} {text : List Char} (all : ∀ d ∈ part, p d) (ahead : part <+: text) :
    part <+: text.takeWhile p := by
  obtain ⟨after, rfl⟩ := ahead
  rw [List.takeWhile_append_of_pos all]
  exact List.prefix_append _ _

theorem settled_blanks (space : isSpace c) :
    Settled .skipped (c :: rest.takeWhile isSpace) (rest.dropWhile isSpace) := by
  have here : Rule.blanks.Matches (c :: rest.takeWhile isSpace) :=
    .blanks (List.cons_ne_nil _ _) (List.forall_mem_cons.mpr ⟨space, fun d member => List.mem_takeWhile_imp member⟩)
  refine .ruled .blanks (Rule.longest_of_first here (by decide) fun other part is first ahead => ?_)
  rw [List.cons_append, List.takeWhile_append_dropWhile] at ahead
  cases is with
  | blanks _ all =>
    rw [← List.takeWhile_cons_of_pos space]
    exact (prefix_takeWhile all ahead).length_le
  | _ => cases first

theorem isNamePart_of_isNameStart (start : isNameStart c) : isNamePart c := by
  simp only [isNameStart, isNamePart, Char.isAlphanum, Bool.or_eq_true] at start ⊢
  exact start.imp_left .inl

theorem isNamePart_keyword (word : Keyword) : ∀ d ∈ word.text.toList, isNamePart d := by
  have all : word.text.toList.all isNamePart = true := by cases word <;> rfl
  exact List.all_eq_true.mp all

theorem matches_keyword_iff {word : Keyword} : (Rule.keyword word).Matches part ↔ part = word.text.toList := by
  constructor
  · rintro ⟨⟩
    rfl
  · rintro rfl
    exact .keyword word

theorem keyword_text_injective {word other : Keyword} (same : word.text = other.text) : word = other := by
  cases word <;> cases other <;> first | rfl | simp [Keyword.text] at same

theorem settled_word (start : isNameStart c) :
    Settled (.token (wordToken (String.ofList (c :: rest.takeWhile isNamePart)))) (c :: rest.takeWhile isNamePart)
      (rest.dropWhile isNamePart) := by
  have here : Rule.name.Matches (c :: rest.takeWhile isNamePart) :=
    .name start fun d member => List.mem_takeWhile_imp member
  have longest (other : Rule) (part : List Char) (is : other.Matches part)
      (ahead : part <+: c :: rest.takeWhile isNamePart ++ rest.dropWhile isNamePart) :
      part.length ≤ (c :: rest.takeWhile isNamePart).length := by
    have first := is.first_eq here ahead
    rw [List.cons_append, List.takeWhile_append_dropWhile] at ahead
    rw [← List.takeWhile_cons_of_pos (isNamePart_of_isNameStart start)]
    refine (prefix_takeWhile ?_ ahead).length_le
    cases is with
    | keyword word => exact isNamePart_keyword word
    | name start parts => exact List.forall_mem_cons.mpr ⟨isNamePart_of_isNameStart start, parts⟩
    | _ => cases first
  -- A keyword is as long as the name that it could be, and comes before it.
  cases found : Keyword.ofText? (String.ofList (c :: rest.takeWhile isNamePart)) with
  | some word =>
    have text : c :: rest.takeWhile isNamePart = word.text.toList := by
      have same : word.text = String.ofList (c :: rest.takeWhile isNamePart) := by simpa using List.find?_some found
      rw [same, String.toList_ofList]
    rw [wordToken, found]
    refine .ruled (.keyword word) ⟨matches_keyword_iff.mpr text, longest, fun other is => ?_⟩
    have same := String.toList_injective (text.symm.trans (matches_keyword_iff.mp is))
    rw [keyword_text_injective same]
  | none =>
    rw [wordToken, found]
    refine .ruled .name ⟨here, longest, fun word is => ?_⟩
    rw [matches_keyword_iff.mp is, String.ofList_toList] at found
    exact absurd (List.find?_eq_none.mp found word (by cases word <;> decide)) (by simp)

/-! ### Numbers -/

theorem takeWhile_float {whole : List Char} (all : ∀ d ∈ whole, d.isDigit) (more : List Char) :
    (whole ++ '.' :: more).takeWhile Char.isDigit = whole ∧
      (whole ++ '.' :: more).dropWhile Char.isDigit = '.' :: more := by
  have point : ('.').isDigit = false := rfl
  rw [List.takeWhile_append_of_pos all, List.dropWhile_append_of_pos all, List.takeWhile_cons, List.dropWhile_cons,
    point]
  exact ⟨List.append_nil whole, rfl⟩

section

variable {whole after : List Char} (some_ : whole ≠ []) (all : ∀ d ∈ whole, d.isDigit)

include some_ all

theorem settled_integer (stops : after.takeWhile Char.isDigit = [])
    (pointless : ∀ d others, after = '.' :: d :: others → ¬ d.isDigit) :
    Settled (integerKind whole) whole after := by
  have cut : (whole ++ after).takeWhile Char.isDigit = whole ∧ (whole ++ after).dropWhile Char.isDigit = after := by
    have same := List.takeWhile_append_dropWhile (p := Char.isDigit) (l := after)
    rw [stops, List.nil_append] at same
    rw [List.takeWhile_append_of_pos all, List.dropWhile_append_of_pos all, stops]
    exact ⟨List.append_nil whole, same⟩
  refine .ruled .integer (Rule.longest_of_first (.integer some_ all) (by decide) fun other part is first ahead => ?_)
  cases is with
  | integer _ all => exact cut.1 ▸ (prefix_takeWhile all ahead).length_le
  | float _ all more all' =>
    -- Its whole part would be all the digits here, and a point with a digit would follow them.
    obtain ⟨behind, same⟩ := ahead
    obtain ⟨e, others, rfl⟩ := List.exists_cons_of_ne_nil more
    rw [List.append_assoc] at same
    have fraction := (takeWhile_float all ((e :: others) ++ behind)).2
    rw [← List.cons_append, same, cut.2] at fraction
    exact absurd (all' e List.mem_cons_self) (pointless e _ fraction)
  | _ => cases first

theorem settled_float {more : List Char} {d : Char} (digit : d.isDigit) :
    Settled (floatKind whole (d :: more.takeWhile Char.isDigit)) (whole ++ '.' :: d :: more.takeWhile Char.isDigit)
      (more.dropWhile Char.isDigit) := by
  have digits : ∀ e ∈ d :: more.takeWhile Char.isDigit, e.isDigit :=
    List.forall_mem_cons.mpr ⟨digit, fun e member => List.mem_takeWhile_imp member⟩
  have text : whole ++ '.' :: d :: more.takeWhile Char.isDigit ++ more.dropWhile Char.isDigit =
      whole ++ '.' :: d :: more := by simp
  have cut := takeWhile_float all (d :: more)
  have kind : floatKind whole (d :: more.takeWhile Char.isDigit) =
      Rule.float.kindOf (whole ++ '.' :: d :: more.takeWhile Char.isDigit) := by
    have own := takeWhile_float all (d :: more.takeWhile Char.isDigit)
    rw [Rule.kindOf, own.1, own.2, List.tail_cons]
  rw [kind]
  refine .ruled .float (Rule.longest_of_first (.float some_ all (List.cons_ne_nil _ _) digits) (by decide)
    fun other part is first ahead => ?_)
  rw [text] at ahead
  cases is with
  | integer _ all =>
    have short := (prefix_takeWhile all ahead).length_le
    rw [cut.1] at short
    rw [List.length_append]
    omega
  | @float whole' fraction _ all' _ all'' =>
    -- Another fraction has the same point in front of it, and no more digits than there are.
    obtain ⟨behind, same⟩ := ahead
    rw [List.append_assoc, List.cons_append] at same
    obtain ⟨own, rest⟩ := takeWhile_float all' (fraction ++ behind)
    rw [same, cut.1] at own
    rw [same, cut.2] at rest
    obtain rfl := own
    have short := (prefix_takeWhile all'' ⟨behind, (List.cons.inj rest).2.symm⟩).length_le
    rw [List.takeWhile_cons_of_pos digit] at short
    simpa using short
  | _ => cases first

end

theorem settled_number (digit : c.isDigit) (rest : List Char) :
    let cut := numberPiece (c :: rest.takeWhile Char.isDigit) (rest.takeWhile Char.isDigit)
      (rest.dropWhile Char.isDigit)
    Settled cut.kind (c :: cut.tail) cut.rest := by
  have all : ∀ d ∈ c :: rest.takeWhile Char.isDigit, d.isDigit :=
    List.forall_mem_cons.mpr ⟨digit, fun e member => List.mem_takeWhile_imp member⟩
  by_cases fraction : ∃ d others, rest.dropWhile Char.isDigit = '.' :: d :: others ∧ d.isDigit
  · obtain ⟨d, others, same, more⟩ := fraction
    simp only [same, numberPiece, more, if_true]
    exact settled_float (List.cons_ne_nil _ _) all more
  · rw [numberPiece_of_pointless]
    · refine settled_integer (List.cons_ne_nil _ _) all ?_ fun d others same more => fraction ⟨d, others, same, more⟩
      rw [List.takeWhile_eq_nil_iff]
      exact fun some_ => List.dropWhile_get_zero_not Char.isDigit rest some_
    · exact fun d others same more => fraction ⟨d, others, same, more⟩

/-! ### Strings -/

theorem isStringBody_cutString (quote : Char) (text : List Char) : IsStringBody quote (cutString quote text).1 := by
  fun_induction cutString quote text with
  | case1 => exact .nil
  | case2 => exact .nil
  | case3 rest => exact .nil
  | case4 c rest other ih => exact .escape other ih
  | case5 rest last escape => exact .nil
  | case6 c rest last escape other ih => exact .plain other (ne_backslash last escape) ih

theorem cutString_of_isStringBody {quote : Char} (bare : quote ≠ '\\') {body : List Char}
    (inside : IsStringBody quote body) (after : List Char) :
    cutString quote (body ++ quote :: after) = (body, quote :: after) := by
  induction inside with
  | nil => rw [List.nil_append, cutString_cons bare, if_pos rfl]
  | plain other bare' _ ih => rw [List.cons_append, cutString_cons bare', if_neg other, ih]
  | escape line _ ih => rw [List.cons_append, List.cons_append, cutString, if_neg line, ih]

theorem cutString_of_matches (quote : c = '"' ∨ c = '\'') {rule : Rule} (is : rule.Matches part)
    (ahead : part <+: c :: rest) :
    ∃ body after, cutString c rest = (body, c :: after) ∧ part = c :: (body ++ [c]) := by
  have first := is.first_eq_firstOf ahead
  rw [firstOf_of_quote quote] at first
  cases is with
  | @string quote' body either inside =>
    obtain ⟨rfl, after, rfl⟩ := List.cons_prefix_cons.mp ahead
    have bare : quote' ≠ '\\' := by rcases quote with rfl | rfl <;> decide
    rw [List.append_assoc, List.singleton_append]
    exact ⟨body, after, cutString_of_isStringBody bare inside after, rfl⟩
  | _ => cases first

theorem settled_string (quote : c = '"' ∨ c = '\'') (rest : List Char) :
    Settled (stringPiece c rest).kind (c :: (stringPiece c rest).tail) (stringPiece c rest).rest := by
  have whole := stringPiece_append c rest
  have body := isStringBody_cutString c rest
  unfold stringPiece at whole ⊢
  cases cut : cutString c rest with
  | mk inner behind =>
    rw [cut] at whole body
    -- Without a closing quote behind it, what the scan takes is no string.
    have stray (ended : ∀ after, behind ≠ c :: after) (rule : Rule) (part : List Char) (is : rule.Matches part) :
        ¬ part <+: c :: rest := by
      intro ahead
      obtain ⟨_, after, same, -⟩ := cutString_of_matches quote is ahead
      rw [cut] at same
      exact ended after (Prod.mk.inj same).2
    cases behind with
    | nil =>
      dsimp only at whole ⊢
      refine .stray fun rule part is => ?_
      rw [List.cons_append, whole]
      exact stray (fun after same => by cases same) rule part is
    | cons q after =>
      dsimp only at whole ⊢
      by_cases same : q = c
      · subst same
        rw [if_pos rfl] at whole ⊢
        have kind : PieceKind.token (.string (String.ofList (resolveEscapes inner))) =
            (Rule.string q).kindOf (q :: (inner ++ [q])) := by
          rw [Rule.kindOf, List.tail_cons, List.dropLast_concat]
        dsimp only at whole ⊢
        rw [kind]
        have noWord : (Rule.string q).first ≠ .letter := by simp [Rule.first]
        refine .ruled (.string q) (Rule.longest_of_first (.string quote body) noWord fun other part is _ ahead => ?_)
        rw [List.cons_append, whole] at ahead
        obtain ⟨_, _, found, rfl⟩ := cutString_of_matches quote is ahead
        rw [cut] at found
        rw [(Prod.mk.inj found).1]
      · rw [if_neg same] at whole ⊢
        refine .stray fun rule part is => ?_
        dsimp only at whole ⊢
        rw [List.cons_append, whole]
        exact stray (fun after same' => same (List.cons.inj same').1) rule part is

/-! ### Symbols and comments -/

theorem symbol_cases (sign : Symbol) : (sign ∈ Symbol.short ∧ ∃ c, sign.text.toList = [c]) ∨
    (sign ∈ Symbol.long ∧ ∃ c d, sign.text.toList = [c, d]) := by
  cases sign <;> first | exact .inl ⟨by decide, _, rfl⟩ | exact .inr ⟨by decide, _, _, rfl⟩

theorem symbolOf?_isSome {symbols : List Symbol} {sign : Symbol} (member : sign ∈ symbols) :
    (symbolOf? symbols sign.text.toList).isSome :=
  List.find?_isSome.mpr ⟨sign, member, by simp⟩

/-- What may stand at a place where no word, number, string or blank begins. -/
inductive Sign (c : Char) (rest : List Char) : (part : List Char) → Prop where
  | short (known : (symbolOf? Symbol.short [c]).isSome) : Sign c rest [c]
  | long {d : Char} {more : List Char} (ahead : rest = d :: more) (known : (symbolOf? Symbol.long [c, d]).isSome) :
    Sign c rest [c, d]
  | comment {more words : List Char} (slash : c = '/') (ahead : rest = '/' :: more)
    (line : words <+: more.takeWhile (· ≠ '\n')) : Sign c rest ('/' :: '/' :: words)

theorem sign_of_matches (other : firstOf c = .other) {rule : Rule} (is : rule.Matches part)
    (ahead : part <+: c :: rest) : Sign c rest part := by
  have first := is.first_eq_firstOf ahead
  rw [other] at first
  cases is with
  | symbol sign =>
    rcases symbol_cases sign with ⟨short, c', text⟩ | ⟨long, c', d, text⟩
    · have known := symbolOf?_isSome short
      rw [text] at known ahead ⊢
      obtain rfl := (List.cons_prefix_cons.mp ahead).1
      exact .short known
    · have known := symbolOf?_isSome long
      rw [text] at known ahead ⊢
      obtain ⟨rfl, more, rfl⟩ := List.cons_prefix_cons.mp ahead
      exact .long rfl known
  | @comment words line =>
    obtain ⟨rfl, more, rfl⟩ := List.cons_prefix_cons.mp ahead
    refine .comment rfl rfl (prefix_takeWhile (fun d member => ?_) (List.prefix_append _ _))
    apply decide_eq_true
    rintro rfl
    exact line member
  | _ => cases first

theorem settled_short (other : firstOf c = .other)
    (noLong : ∀ d more, rest = d :: more → symbolOf? Symbol.long [c, d] = none)
    (noComment : ∀ more, c = '/' → rest ≠ '/' :: more) :
    Settled (shortPiece c rest).kind (c :: (shortPiece c rest).tail) (shortPiece c rest).rest := by
  have only {rule : Rule} {part : List Char} (is : rule.Matches part) (ahead : part <+: c :: rest) :
      part = [c] ∧ (symbolOf? Symbol.short [c]).isSome := by
    cases sign_of_matches other is ahead with
    | short known => exact ⟨rfl, known⟩
    | long same known =>
      rw [noLong _ _ same] at known
      cases known
    | comment slash same _ => exact absurd same (noComment _ slash)
  unfold shortPiece
  cases found : symbolOf? Symbol.short [c] with
  | some sign =>
    have text := text_of_symbolOf? found
    have noWord : (Rule.symbol sign).first ≠ .letter := by simp [Rule.first]
    refine .ruled (.symbol sign) (Rule.longest_of_first (text ▸ .symbol sign) noWord fun rule part is _ ahead => ?_)
    rw [(only is ahead).1]
  | none =>
    refine .stray fun rule part is ahead => ?_
    have known := (only is ahead).2
    rw [found] at known
    cases known

theorem settled_symbol (other : firstOf c = .other) (rest : List Char) :
    Settled (symbolPiece c rest).kind (c :: (symbolPiece c rest).tail) (symbolPiece c rest).rest := by
  unfold symbolPiece
  split
  · exact settled_short other (fun d more none => by cases none) fun more _ none => by cases none
  · rename_i d more
    split
    · -- A comment goes to the end of its line, past all signs.
      rename_i slashes
      obtain ⟨rfl, rfl⟩ := slashes
      have line : '\n' ∉ more.takeWhile (· ≠ '\n') := by
        intro member
        simpa using List.mem_takeWhile_imp member
      refine .ruled .comment (Rule.longest_of_first (.comment line) (by decide) fun rule part is _ ahead => ?_)
      rw [List.cons_append, List.cons_append, List.takeWhile_append_dropWhile] at ahead
      cases sign_of_matches other is ahead with
      | short _ => simp
      | long _ _ => simp
      | comment _ same line =>
        obtain rfl := (List.cons.inj same).2
        simpa using line.length_le
    · rename_i noComment
      split
      · -- A sign of two characters is the longest that there is, but for a comment.
        rename_i sign found
        have text := text_of_symbolOf? found
        have noWord : (Rule.symbol sign).first ≠ .letter := by simp [Rule.first]
        refine .ruled (.symbol sign) (Rule.longest_of_first (text ▸ .symbol sign) noWord fun rule part is _ ahead => ?_)
        cases sign_of_matches other is ahead with
        | short _ => simp
        | long _ _ => simp
        | comment slash same _ => exact absurd ⟨slash, (List.cons.inj same).1⟩ noComment
      · rename_i none
        refine settled_short other (fun d' more' same => ?_) fun more' slash same =>
          noComment ⟨slash, (List.cons.inj same).1⟩
        obtain ⟨rfl, rfl⟩ := List.cons.inj same
        exact none

/-- Every piece is the longest at its place that a rule allows, or no rule allows any piece there. -/
theorem nextPiece_settled (c : Char) (rest : List Char) :
    Settled (nextPiece c rest).kind (c :: (nextPiece c rest).tail) (nextPiece c rest).rest := by
  unfold nextPiece
  split
  · rename_i space
    exact settled_blanks space
  split
  · rename_i start
    exact settled_word start
  split
  · rename_i digit
    exact settled_number digit rest
  split
  · rename_i quote
    exact settled_string quote rest
  · rename_i space start digit quote
    exact settled_symbol (by rw [firstOf, if_neg space, if_neg start, if_neg digit, if_neg quote]) rest

end

end Stencil.Program
