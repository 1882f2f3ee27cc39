import Stencil.Proofs.Program.Grammar.Complete
import Stencil.Proofs.Program.Grammar.Sound
import Stencil.Proofs.Program.Interpreter

/-! A program is read without a diagnostic exactly where it is derived.

Reading a function comes to an end for all tokens, with a result for those that are a function and with a fault for
all others. So reading a program brings nothing to light just when it is one function behind the other, and then the
functions that it comes to are those of the one derivation that there is.
-/

set_option autoImplicit false

namespace Stencil.Program

variable {functions : List Function}

theorem Gives.of_readKind {tokens rest : List Lexeme} {kind : ReturnKind} (gives : Gives (readKind tokens) kind rest) :
    ∃ t, tokens = t :: rest ∧ t.token = .name kind.keyword := by
  obtain ⟨⟨word, span⟩, rest', _, word', kind'⟩ := gives.of_andThen
  obtain ⟨t, rfl, token⟩ := word'.of_expectName
  cases known : kindOfWord? word with
  | none =>
    have outcome := kind'.outcome
    simp only [known] at outcome
    cases outcome
  | some other =>
    simp only [known] at kind'
    obtain ⟨⟨⟩, -, rfl⟩ := kind'
    exact ⟨t, rfl, by rw [token, kindOfWord?_eq_some_iff.mp known]⟩

theorem Gives.readKind {t : Lexeme} {kind : ReturnKind} (rest : List Lexeme) (token : t.token = .name kind.keyword) :
    Gives (readKind (t :: rest)) kind rest := by
  apply (Gives.expectName _ token).andThen
  intro _
  simp only [kindOfWord?_eq_some_iff.mpr rfl]
  exact .done kind

/-- What is read as a function behind its name is one. -/
theorem isFunction_of_gives {fn n : Lexeme} {name : String} {tokens rest : List Lexeme} {d : Declaration}
    (begins : fn.token = .keyword .fn) (named : n.token = .name name)
    (gives : Gives (readFunction functions name fn.span.start tokens) d rest) :
    ∃ lexemes, fn :: n :: tokens = lexemes ++ rest ∧ IsFunction functions lexemes d := by
  obtain ⟨_, _, _, opens, gives₁⟩ := gives.of_andThen
  obtain ⟨t₁, rfl, token₁, _⟩ := opens.of_expectSymbol
  obtain ⟨⟨parameter, _⟩, _, _, parameter', gives₂⟩ := gives₁.of_andThen
  obtain ⟨t₂, rfl, token₂⟩ := parameter'.of_expectName
  obtain ⟨_, _, _, closes, gives₃⟩ := gives₂.of_andThen
  obtain ⟨t₃, rfl, token₃, _⟩ := closes.of_expectSymbol
  obtain ⟨_, _, _, arrow, gives₄⟩ := gives₃.of_andThen
  obtain ⟨t₄, rfl, token₄, _⟩ := arrow.of_expectSymbol
  obtain ⟨kind, _, _, kind', gives₅⟩ := gives₄.of_andThen
  obtain ⟨t₅, rfl, token₅⟩ := kind'.of_readKind
  obtain ⟨_, _, _, brace, gives₆⟩ := gives₅.of_andThen
  obtain ⟨t₆, rfl, token₆, _⟩ := brace.of_expectSymbol
  obtain ⟨e, _, _, body, gives₇⟩ := gives₆.of_andThen
  obtain ⟨_, ⟨lexemes, rfl, rfl⟩, derived⟩ := readExpr_takes _ _ e _ body
  obtain ⟨_, rfl, closing⟩ := gives₇.of_map
  obtain ⟨last, rfl, token, rfl⟩ := closing.of_expectSymbol
  refine ⟨fn :: ([n, t₁, t₂, t₃, t₄, t₅, t₆] ++ (lexemes ++ [last])), by simp, .mk ?_ derived token⟩
  simp [*]

theorem IsFunction.gives {lexemes : List Lexeme} {d : Declaration} (derived : IsFunction functions lexemes d) :
    ∃ fn n tokens, lexemes = fn :: n :: tokens ∧ fn.token = .keyword .fn ∧ n.token = .name d.name ∧
      ∀ tail, Gives (readFunction functions d.name fn.span.start (tokens ++ tail)) d tail := by
  obtain ⟨heads, derived, closes⟩ := derived
  rename_i fn head body closing name parameter kind e
  simp only [List.map_cons, List.cons.injEq, List.map_eq_cons_iff, List.map_eq_nil_iff] at heads
  obtain ⟨begins, n, _, rfl, named, t₁, _, rfl, opens, t₂, _, rfl, parameter', t₃, _, rfl, closes', t₄, _, rfl, arrow,
    t₅, _, rfl, kind', t₆, _, rfl, brace, rfl⟩ := heads
  refine ⟨fn, n, [t₁, t₂, t₃, t₄, t₅, t₆] ++ (body ++ [closing]), rfl, begins, named, fun tail => ?_⟩
  have inner : Gives (readExpr { parameter, functions } (body ++ (closing :: tail))) e (closing :: tail) :=
    derived.gives ⟨body, rfl, rfl⟩ (stops_of_closing closes (by decide))
  rw [List.append_assoc, List.append_assoc]
  apply (Gives.expectSymbol opens).andThen
  intro _
  apply (Gives.expectName _ parameter').andThen
  intro _
  apply (Gives.expectSymbol closes').andThen
  intro _
  apply (Gives.expectSymbol arrow).andThen
  intro _
  apply (Gives.readKind _ kind').andThen
  intro _
  apply (Gives.expectSymbol brace).andThen
  intro _
  apply inner.andThen
  intro _
  exact (Gives.expectSymbol closes).map _

theorem findings_surveyOf_eq_nil_iff (name : String) (start : Nat) {tokens : List Lexeme}
    {r : Reading tokens Declaration} :
    (surveyOf name start r).findings = [] ↔ ∃ d rest, Gives r d rest := by
  unfold surveyOf
  cases outcome : r.outcome with
  | error fault =>
    simp only [List.map_append, List.append_eq_nil_iff, List.map_cons, List.cons_ne_nil, and_false, false_iff]
    rintro ⟨d, rest, gives⟩
    cases outcome.symm.trans gives.outcome
  | ok d =>
    simp only [List.map_eq_nil_iff]
    constructor
    · intro none
      exact ⟨d, r.rest, outcome, none, rfl⟩
    · rintro ⟨_, _, gives⟩
      exact gives.notes

theorem Gives.surveyOf {tokens rest : List Lexeme} {d : Declaration} {r : Reading tokens Declaration}
    (gives : Gives r d rest) (name : String) (start : Nat) :
    (surveyOf name start r).declarations = [d] ∧ resume r = rest := by
  simp only [Program.surveyOf, resume, gives.outcome, gives.rest, and_self]

/-- Where reading a program brings nothing to light, the program is derived, with the functions it comes to. -/
theorem isProgram_of_survey (tokens : List Lexeme) (clean : (survey functions tokens).findings = []) :
    IsProgram functions tokens (survey functions tokens).declarations := by
  induction tokens using survey.induct functions with
  | case1 =>
    rw [survey]
    exact .nil
  | case2 t begins =>
    rw [survey] at clean
    simp [begins, strayFault] at clean
  | case3 t begins n rest unnamed =>
    rw [survey] at clean
    simp [begins, unnamed, Survey.append, strayFault] at clean
  | case4 t begins n rest name span named reading ih =>
    have token := token_of_nameOf? named
    have begins := isKeyword_iff.mp begins
    rw [survey_function functions rest begins token] at clean ⊢
    obtain ⟨clean, clean'⟩ := List.append_eq_nil_iff.mp clean
    obtain ⟨d, last, gives⟩ := (findings_surveyOf_eq_nil_iff _ _).mp clean
    obtain ⟨lexemes, same, derived⟩ := isFunction_of_gives begins token gives
    have others := ih clean'
    -- A function that is read without a fault is followed by what is surveyed next.
    obtain ⟨declarations, behind⟩ := gives.surveyOf name t.span.start
    rw [same, Survey.append, declarations]
    rw [behind] at others ⊢
    exact .cons derived others
  | case5 t after other ih =>
    rw [survey.eq_def] at clean
    simp [other, Survey.append, strayFault] at clean

/-- A program that is derived is surveyed without a finding. -/
theorem IsProgram.survey {tokens : List Lexeme} {declarations : List Declaration}
    (derived : IsProgram functions tokens declarations) :
    (survey functions tokens).findings = [] ∧ (survey functions tokens).declarations = declarations := by
  induction derived with
  | nil =>
    rw [Program.survey]
    exact ⟨rfl, rfl⟩
  | @cons first rest d declarations derived _ ih =>
    obtain ⟨fn, n, tokens, rfl, begins, named, gives⟩ := derived.gives
    have gives := gives rest
    obtain ⟨found, behind⟩ := gives.surveyOf d.name fn.span.start
    have clean := (findings_surveyOf_eq_nil_iff d.name fn.span.start).mpr ⟨d, rest, gives⟩
    rw [List.cons_append, List.cons_append, survey_function functions _ begins named, Survey.append, found, behind,
      clean, ih.1, ih.2]
    exact ⟨rfl, rfl⟩

/-- A text is read without a diagnostic just when it is all tokens and these are derived as a program, which happens
in one way only. The functions read are then those derived. -/
theorem ofText_eq_nil_iff_isProgram (functions : List Function) (source : String) :
    ((Contents.ofText functions source).diagnostics = [] ↔
      (tokenize source).2 = [] ∧ ∃ declarations, IsProgram functions (tokenize source).1 declarations) ∧
    (∀ declarations, IsProgram functions (tokenize source).1 declarations →
      (Contents.ofText functions source).declarations = declarations) ∧
    ∀ scope level tokens e e', IsLevel scope level tokens e → IsLevel scope level tokens e' → e = e' := by
  refine ⟨?_, fun _ derived => derived.survey.2, fun _ _ _ _ _ derived derived' => derived.same derived'⟩
  rw [diagnostics_eq_nil_iff]
  constructor
  · rintro ⟨clean, errors⟩
    exact ⟨errors, _, isProgram_of_survey _ clean⟩
  · rintro ⟨errors, _, derived⟩
    exact ⟨derived.survey.1, errors⟩

namespace Subtraction

/-- What `fn f(m) -> text { 1 - 2 - m.a[0] }` is read as: operators group to the left, and suffixes bind tightest. -/
def declaration : Declaration where
  name := "f"
  kind := .text
  body := .binary .subtract (.binary .subtract (.literal (.ofInt 1)) (.literal (.ofInt 2)))
    (.index (.member .model "a") (.literal (.ofInt 0)))
  span := ⟨0, 34⟩

def head : List Lexeme :=
  [⟨.name "f", ⟨3, 4⟩⟩, ⟨.symbol .openParen, ⟨4, 5⟩⟩, ⟨.name "m", ⟨5, 6⟩⟩, ⟨.symbol .closeParen, ⟨6, 7⟩⟩,
    ⟨.symbol .arrow, ⟨8, 10⟩⟩, ⟨.name "text", ⟨11, 15⟩⟩, ⟨.symbol .openBrace, ⟨16, 17⟩⟩]

def body : List Lexeme :=
  [⟨.integer 1, ⟨18, 19⟩⟩, ⟨.symbol .minus, ⟨20, 21⟩⟩, ⟨.integer 2, ⟨22, 23⟩⟩, ⟨.symbol .minus, ⟨24, 25⟩⟩,
    ⟨.name "m", ⟨26, 27⟩⟩, ⟨.symbol .dot, ⟨27, 28⟩⟩, ⟨.name "a", ⟨28, 29⟩⟩, ⟨.symbol .openBracket, ⟨29, 30⟩⟩,
    ⟨.integer 0, ⟨30, 31⟩⟩, ⟨.symbol .closeBracket, ⟨31, 32⟩⟩]

theorem tokenize_text : tokenize "fn f(m) -> text { 1 - 2 - m.a[0] }" =
    (⟨.keyword .fn, ⟨0, 2⟩⟩ :: (head ++ (body ++ [⟨.symbol .closeBrace, ⟨33, 34⟩⟩])), []) := by
  with_unfolding_all rfl

theorem isLevel_body : IsLevel { parameter := "m", functions := [] } 0 (body.map Lexeme.token) declaration.body := by
  have integer (n : Nat) {level : Nat} (le : level ≤ operandLevel) :
      IsLevel { parameter := "m", functions := [] } level [.integer n] (.literal (.ofInt n)) :=
    (IsUnary.operand (.primary (.literal (.integer n)))).level le
  have item : IsPostfix { parameter := "m", functions := [] }
      ([Token.name "m"] ++ [Token.symbol .dot, .name "a"] ++
        Token.symbol .openBracket :: ([Token.integer 0] ++ [Token.symbol .closeBracket]))
      (.index (.member .model "a") (.literal (.ofInt 0))) :=
    .index (.member "a" (.primary .parameter)) (integer 0 (by decide))
  have difference : IsLevel { parameter := "m", functions := [] } 4
      ([Token.integer 1] ++ Token.symbol .minus :: [Token.integer 2])
      (.binary .subtract (.literal (.ofInt 1)) (.literal (.ofInt 2))) :=
    .binary (by decide) (integer 1 (by decide)) (integer 2 (by decide))
  exact .tighter (.tighter (.tighter (.tighter (.binary (by decide) difference
    ((IsUnary.operand item).level (by decide))))))

theorem isProgram_text :
    IsProgram [] (⟨.keyword .fn, ⟨0, 2⟩⟩ :: (head ++ (body ++ [⟨.symbol .closeBrace, ⟨33, 34⟩⟩]))) [declaration] := by
  have function : IsFunction [] (⟨.keyword .fn, ⟨0, 2⟩⟩ :: (head ++ (body ++ [⟨.symbol .closeBrace, ⟨33, 34⟩⟩])))
      declaration :=
    .mk rfl isLevel_body rfl
  exact .cons function .nil

end Subtraction

open Subtraction in
theorem ofText_subtraction :
    (Contents.ofText [] "fn f(m) -> text { 1 - 2 - m.a[0] }").diagnostics = [] ∧
      (Contents.ofText [] "fn f(m) -> text { 1 - 2 - m.a[0] }").declarations = [declaration] := by
  obtain ⟨accepts, derived, _⟩ := ofText_eq_nil_iff_isProgram [] "fn f(m) -> text { 1 - 2 - m.a[0] }"
  rw [tokenize_text] at accepts derived
  exact ⟨accepts.mpr ⟨rfl, _, isProgram_text⟩, derived _ isProgram_text⟩

end Stencil.Program
