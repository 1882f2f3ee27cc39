import Mathlib.Data.List.Forall2
import Stencil.Proofs.Program.Brackets
import Stencil.Proofs.Program.Grammar.Complete
import Stencil.Proofs.Program.Grammar.Sound
import Stencil.Proofs.Program.Source

/-! The functions of a batch are read one by one.

The body of a function ends at the brace of its own unit, provided that the code of the unit holds no closing
brace of its own. So the function is good exactly when the code, read alone, is one whole expression. A whole
expression is one that the grammar derives, and what is derived is read alike in front of a brace.
-/

set_option autoImplicit false

namespace Stencil.Program

structure IsWhole (functions : List Function) (tokens : List Lexeme) (e : Expr) : Prop where
  outcome : (readExpr { parameter := "model", functions } tokens).outcome = .ok e
  notes : (readExpr { parameter := "model", functions } tokens).notes = []
  rest : (readExpr { parameter := "model", functions } tokens).rest = []

theorem isWhole_iff_isLevel {functions : List Function} {lexemes : List Lexeme} {e : Expr} :
    IsWhole functions lexemes e ↔ IsLevel { parameter := "model", functions } 0 (lexemes.map Lexeme.token) e := by
  constructor
  · intro whole
    obtain ⟨taken, ⟨front, same, rfl⟩, derived⟩ :=
      readExpr_takes { parameter := "model", functions } lexemes e [] ⟨whole.outcome, whole.notes, whole.rest⟩
    rw [List.append_nil] at same
    exact same ▸ derived
  · intro derived
    have gives : Gives (readExpr { parameter := "model", functions } lexemes) e [] :=
      derived.gives ⟨lexemes, (List.append_nil _).symm, rfl⟩ (stops_nil 0)
    exact ⟨gives.outcome, gives.notes, gives.rest⟩

theorem eq_of_append_cons {token : Token} {t u : Lexeme} {first second rest others : List Lexeme}
    (plain : ∀ v ∈ first, v.token ≠ token) (plain' : ∀ v ∈ second, v.token ≠ token) (is : t.token = token)
    (is' : u.token = token) (same : first ++ t :: rest = second ++ u :: others) : first = second := by
  rcases List.append_eq_append_iff.mp same with ⟨between, rfl, tail⟩ | ⟨between, rfl, tail⟩
  · cases between with
    | nil => exact (List.append_nil _).symm
    | cons v between =>
      obtain ⟨rfl, -⟩ := List.cons.inj tail
      exact absurd is (plain' t (by simp))
  · cases between with
    | nil => exact List.append_nil _
    | cons v between =>
      obtain ⟨rfl, -⟩ := List.cons.inj tail
      exact absurd is' (plain u (by simp))

section

variable {functions : List Function} {body long more : List Lexeme} {brace : Lexeme} {e : Expr}

/-- In front of a closing brace, a whole expression is read as it is alone. -/
theorem IsWhole.gives (whole : IsWhole functions body e) (closes : brace.token = .symbol .closeBrace)
    (ahead : Ahead (brace :: more) body long) :
    Gives (readExpr { parameter := "model", functions } long) e (brace :: more) :=
  (isWhole_iff_isLevel.mp whole).gives ahead (stops_of_closing closes (by decide))

theorem IsWhole.plain (whole : IsWhole functions body e) (t : Lexeme) (member : t ∈ body) :
    t.token ≠ .symbol .closeBrace := by
  intro closes
  have balanced := balanced_of_readExpr _ whole.outcome whole.rest
  exact balanced.closeBrace_notMem (closes ▸ List.mem_map_of_mem member)

/-- An expression that is read up to a closing brace is whole, unless the brace is among its own tokens. -/
theorem IsWhole.of_gives {t : Lexeme} {others : List Lexeme} (plain : ∀ t ∈ body, t.token ≠ .symbol .closeBrace)
    (closes : brace.token = .symbol .closeBrace) (ahead : Ahead (brace :: more) body long)
    (gives : Gives (readExpr { parameter := "model", functions } long) e (t :: others))
    (next : t.token = .symbol .closeBrace) : IsWhole functions body e := by
  obtain ⟨_, ⟨taken, parts, rfl⟩, derived⟩ := readExpr_takes _ long e _ gives
  have alone : IsWhole functions taken e := isWhole_iff_isLevel.mpr derived
  obtain ⟨front, parts', tokens⟩ := ahead
  have plain' : ∀ u ∈ front, u.token ≠ .symbol .closeBrace := by
    intro u member
    obtain ⟨v, member', same⟩ := List.mem_map.mp (tokens ▸ List.mem_map_of_mem member)
    exact same ▸ plain v member'
  -- Neither part has a closing brace, so that both end at the first one.
  obtain rfl := eq_of_append_cons alone.plain plain' next closes (parts.symm.trans parts')
  exact isWhole_iff_isLevel.mpr (tokens ▸ derived)

end

theorem isWhole_member {functions : List Function} {property : String} {a b c : Lexeme}
    (model : a.token = .name "model") (dot : b.token = .symbol .dot) (name : c.token = .name property) :
    IsWhole functions [a, b, c] (.member .model property) := by
  have derived : IsPostfix { parameter := "model", functions } ([.name "model"] ++ [.symbol .dot, .name property])
      (.member .model property) := .member property (.primary .parameter)
  rw [isWhole_iff_isLevel]
  simpa [model, dot, name] using (IsUnary.operand derived).level (Nat.zero_le _)

theorem isWhole_literal {functions : List Function} {value : Json.Value} {a : Lexeme}
    (literal : literal? a.token = some value) : IsWhole functions [a] (.literal value) :=
  isWhole_iff_isLevel.mpr
    ((IsUnary.operand (.primary (.literal (literal?_eq_some_iff.mp literal)))).level (Nat.zero_le _))

theorem not_isWhole_name {functions : List Function} {name : String} {a : Lexeme} (named : a.token = .name name)
    (other : name ≠ "model") (e : Expr) : ¬ IsWhole functions [a] e := by
  intro whole
  exact other ((isWhole_iff_isLevel.mp whole).eq_parameter (by rw [List.map_singleton, named]))

def readBody (functions : List Function) (name : String) (kind : ReturnKind) (start : Nat)
    (tokens : List Lexeme) : Reading tokens Declaration :=
  (readExpr { parameter := "model", functions } tokens).andThen fun body tokens _ =>
  (expectSymbol .closeBrace tokens).map fun closing => { name, kind, body, span := ⟨start, closing.stop⟩ }

section

variable {functions : List Function} {name : String} {kind : ReturnKind} {start : Nat}

variable (functions name start) in
/-- The head of a unit's function is read without a fault, and its body follows. -/
theorem readFunction_head {head : List Lexeme} (body : List Lexeme)
    (tokens : head.map Lexeme.token =
      [.symbol .openParen, .name "model", .symbol .closeParen, .symbol .arrow, .name kind.keyword,
        .symbol .openBrace]) :
    (readFunction functions name start (head ++ body)).outcome =
        (readBody functions name kind start body).outcome ∧
      (readFunction functions name start (head ++ body)).notes =
        (readBody functions name kind start body).notes ∧
      (readFunction functions name start (head ++ body)).rest =
        (readBody functions name kind start body).rest := by
  match head, tokens with
  | [⟨_, _⟩, ⟨_, _⟩, ⟨_, _⟩, ⟨_, _⟩, ⟨_, _⟩, ⟨_, _⟩], tokens =>
    simp only [List.map_cons, List.map_nil, List.cons.injEq, and_true] at tokens
    obtain ⟨rfl, rfl, rfl, rfl, rfl, rfl⟩ := tokens
    cases kind <;> exact ⟨rfl, rfl, rfl⟩

variable (name kind start) in
theorem readBody_of_isWhole {body long more : List Lexeme} {brace : Lexeme} {e : Expr}
    (whole : IsWhole functions body e) (closes : brace.token = .symbol .closeBrace)
    (ahead : Ahead (brace :: more) body long) :
    Gives (readBody functions name kind start long)
      { name, kind, body := e, span := ⟨start, brace.span.stop⟩ } more := by
  apply (whole.gives closes ahead).andThen
  intro _
  exact (Gives.expectSymbol closes).map _

theorem isWhole_of_readBody {body long more rest : List Lexeme} {brace : Lexeme} {d : Declaration}
    (plain : ∀ t ∈ body, t.token ≠ .symbol .closeBrace) (closes : brace.token = .symbol .closeBrace)
    (ahead : Ahead (brace :: more) body long) (gives : Gives (readBody functions name kind start long) d rest) :
    ∃ e, IsWhole functions body e := by
  obtain ⟨e, _, _, expression, gives⟩ := gives.of_andThen
  obtain ⟨_, _, closing⟩ := gives.of_map
  obtain ⟨t, rfl, next, _⟩ := closing.of_expectSymbol
  exact ⟨e, .of_gives plain closes ahead expression next⟩

end

theorem survey_function (functions : List Function) {f n : Lexeme} {name : String} (rest : List Lexeme)
    (fn : f.token = .keyword .fn) (named : n.token = .name name) :
    survey functions (f :: n :: rest) =
      (surveyOf name f.span.start (readFunction functions name f.span.start rest)).append
        (survey functions (resume (readFunction functions name f.span.start rest))) := by
  rw [survey]
  simp [fn, named, nameOf?, Token.isKeyword]

def unitTokens (unit : CodeUnit) : List Token :=
  unit.head ++ ((tokenize unit.source).1.map Lexeme.token ++ [.symbol .closeBrace])

theorem tokensOf_unitMarks (unit : CodeUnit) : tokensOf unit.marks = unitTokens unit := by
  have heads : ∀ tokens : List Token, tokensOf (tokens.map .token) = tokens := by
    intro tokens
    simp [tokensOf, List.filterMap_map, Function.comp_def, PieceKind.token?]
  rw [unitTokens, tokens_tokenize, ← heads unit.head]
  simp only [CodeUnit.marks, tokensOf, List.filterMap_append]
  rfl

structure UnitLexemes (unit : CodeUnit) (others : List Token) where
  fn : Lexeme
  name : Lexeme
  head : List Lexeme
  long : List Lexeme
  brace : Lexeme
  more : List Lexeme
  fn_token : fn.token = .keyword .fn
  name_token : name.token = .name unit.name
  head_tokens : head.map Lexeme.token =
    [.symbol .openParen, .name "model", .symbol .closeParen, .symbol .arrow, .name unit.kind.keyword,
      .symbol .openBrace]
  ahead : Ahead (brace :: more) (tokenize unit.source).1 long
  closes : brace.token = .symbol .closeBrace
  more_tokens : more.map Lexeme.token = others

def UnitLexemes.all {unit : CodeUnit} {others : List Token} (parts : UnitLexemes unit others) :
    List Lexeme :=
  parts.fn :: parts.name :: (parts.head ++ parts.long)

theorem exists_unitLexemes {unit : CodeUnit} {others : List Token} {lexemes : List Lexeme}
    (tokens : lexemes.map Lexeme.token = unitTokens unit ++ others) :
    ∃ parts : UnitLexemes unit others, lexemes = parts.all := by
  simp only [unitTokens, List.append_assoc] at tokens
  obtain ⟨front, back, rfl, heads, bodies⟩ := List.map_eq_append_iff.mp tokens
  obtain ⟨body, closing, rfl, bodyTokens, rest⟩ := List.map_eq_append_iff.mp bodies
  obtain ⟨brace, more, rfl, closes, moreTokens⟩ := List.map_eq_cons_iff.mp rest
  obtain ⟨fn, front, rfl, fnToken, heads⟩ := List.map_eq_cons_iff.mp heads
  obtain ⟨name, head, rfl, nameToken, heads⟩ := List.map_eq_cons_iff.mp heads
  exact ⟨⟨fn, name, head, body ++ brace :: more, brace, more, fnToken, nameToken, heads,
    ⟨body, rfl, bodyTokens⟩, closes, moreTokens⟩, rfl⟩

structure Declares (functions : List Function) (unit : CodeUnit) (d : Declaration) : Prop where
  name : d.name = unit.name
  kind : d.kind = unit.kind
  body : IsWhole functions (tokenize unit.source).1 d.body

section

variable {functions : List Function} {unit : CodeUnit} {others : List Token} {lexemes : List Lexeme}

theorem survey_of_isWhole {e : Expr} (whole : IsWhole functions (tokenize unit.source).1 e)
    (tokens : lexemes.map Lexeme.token = unitTokens unit ++ others) :
    ∃ more d headers, more.map Lexeme.token = others ∧ Declares functions unit d ∧
      survey functions lexemes =
        ({ declarations := [d], findings := [], headers } : Survey).append (survey functions more) := by
  obtain ⟨parts, rfl⟩ := exists_unitLexemes tokens
  obtain ⟨outcome, notes, rest⟩ := readBody_of_isWhole unit.name unit.kind parts.fn.span.start whole
    parts.closes parts.ahead
  obtain ⟨outcome', notes', rest'⟩ := readFunction_head functions unit.name parts.fn.span.start
    parts.long parts.head_tokens
  rw [outcome] at outcome'
  rw [notes] at notes'
  rw [rest] at rest'
  refine ⟨parts.more,
    { name := unit.name, kind := unit.kind, body := e
      span := ⟨parts.fn.span.start, parts.brace.span.stop⟩ },
    [(unit.name, parts.fn.span.start)], parts.more_tokens, ⟨rfl, rfl, whole⟩, ?_⟩
  rw [UnitLexemes.all, survey_function functions _ parts.fn_token parts.name_token]
  simp only [surveyOf, resume, outcome', notes', rest', List.map_nil]

/-- A unit's code that no finding of the unit's name is about is a whole expression. -/
theorem isWhole_of_silent (plain : ∀ t ∈ (tokenize unit.source).1, t.token ≠ .symbol .closeBrace)
    (tokens : lexemes.map Lexeme.token = unitTokens unit ++ others)
    (silent : ∀ finding ∈ (survey functions lexemes).findings, finding.unit ≠ some unit.name) :
    ∃ e, IsWhole functions (tokenize unit.source).1 e := by
  obtain ⟨parts, rfl⟩ := exists_unitLexemes tokens
  obtain ⟨outcome, notes, _⟩ := readFunction_head functions unit.name parts.fn.span.start
    parts.long parts.head_tokens
  rw [UnitLexemes.all, survey_function functions _ parts.fn_token parts.name_token] at silent
  have silent := (List.forall_mem_append.mp silent).1
  cases read : (readFunction functions unit.name parts.fn.span.start (parts.head ++ parts.long)).outcome with
  | error fault =>
    exact absurd rfl (silent ⟨some unit.name, fault⟩ (by simp [surveyOf, read]))
  | ok d =>
    -- All that is noted in reading the function is about it.
    have clean : (readFunction functions unit.name parts.fn.span.start (parts.head ++ parts.long)).notes = [] := by
      rw [List.eq_nil_iff_forall_not_mem]
      intro fault noted
      simp only [surveyOf, read] at silent
      exact silent _ (List.mem_map_of_mem noted) rfl
    rw [read] at outcome
    rw [clean] at notes
    exact isWhole_of_readBody plain parts.closes parts.ahead ⟨outcome.symm, notes.symm, rfl⟩

theorem isWhole_of_survey (plain : ∀ t ∈ (tokenize unit.source).1, t.token ≠ .symbol .closeBrace)
    (tokens : lexemes.map Lexeme.token = unitTokens unit ++ others)
    (clean : (survey functions lexemes).findings = []) :
    ∃ e, IsWhole functions (tokenize unit.source).1 e :=
  isWhole_of_silent plain tokens fun finding member => by
    rw [clean] at member
    cases member

end

section

variable {functions : List Function} {units : List CodeUnit} {others : List Token} {lexemes : List Lexeme}

/-- Units that are whole expressions give their declarations in order, whatever follows them. -/
theorem survey_units (wholes : ∀ unit ∈ units, ∃ e, IsWhole functions (tokenize unit.source).1 e)
    (tokens : lexemes.map Lexeme.token = units.flatMap unitTokens ++ others) :
    ∃ more declarations headers, more.map Lexeme.token = others ∧
      List.Forall₂ (Declares functions) units declarations ∧
      survey functions lexemes =
        ({ declarations, findings := [], headers } : Survey).append (survey functions more) := by
  induction units generalizing lexemes with
  | nil => exact ⟨lexemes, [], [], tokens, .nil, rfl⟩
  | cons unit rest ih =>
    rw [List.flatMap_cons, List.append_assoc] at tokens
    obtain ⟨e, whole⟩ := wholes unit List.mem_cons_self
    -- The function of the first unit ends at its own brace, so that the rest begins with the next unit.
    obtain ⟨more, d, headers, moreTokens, declares, first⟩ := survey_of_isWhole whole tokens
    obtain ⟨last, declarations, others, lastTokens, all, second⟩ :=
      ih (fun unit member => wholes unit (List.mem_cons_of_mem _ member)) moreTokens
    refine ⟨last, d :: declarations, headers ++ others, lastTokens, .cons declares all, ?_⟩
    rw [first, second]
    simp [Survey.append]

/-- Where a program has no finding, the units in front without a closing brace are whole expressions. -/
theorem wholes_of_survey
    (plain : ∀ unit ∈ units, ∀ t ∈ (tokenize unit.source).1, t.token ≠ .symbol .closeBrace)
    (tokens : lexemes.map Lexeme.token = units.flatMap unitTokens ++ others)
    (clean : (survey functions lexemes).findings = []) :
    ∀ unit ∈ units, ∃ e, IsWhole functions (tokenize unit.source).1 e := by
  induction units generalizing lexemes with
  | nil => simp
  | cons unit rest ih =>
    rw [List.flatMap_cons, List.append_assoc] at tokens
    -- That the first unit is whole is what shows where the next one begins.
    obtain ⟨e, whole⟩ := isWhole_of_survey (plain unit List.mem_cons_self) tokens clean
    obtain ⟨more, d, headers, moreTokens, _, first⟩ := survey_of_isWhole whole tokens
    rw [first] at clean
    intro other member
    rcases List.mem_cons.mp member with rfl | member
    · exact ⟨e, whole⟩
    · exact ih (fun unit member => plain unit (List.mem_cons_of_mem _ member)) moreTokens clean other member

end

end Stencil.Program
