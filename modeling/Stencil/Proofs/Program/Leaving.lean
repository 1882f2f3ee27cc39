import Stencil.Proofs.Program.Brackets

/-! Readings do not depend on the tokens that they leave.

A reader looks at the next token to decide whether it goes on. Where it does not, it would not have gone on at the end
of the tokens either. So a reading that comes to a result and leaves the end of the tokens comes to that result on the
tokens in front of it as well.
-/

set_option autoImplicit false

namespace Stencil.Program

/-- If the reading of `long` leaves all of `tail`, that of `short` comes to a result that belongs to it, with faults
of the same kinds, and leaves the same but for `tail`. -/
def Keeps {α β : Type} (same : α → β → Prop) (tail : List Lexeme) {short long : List Lexeme}
    (r : Reading short α) (s : Reading long β) : Prop :=
  ∀ b, s.outcome = .ok b → tail.length ≤ s.rest.length → ∃ a, r.outcome = .ok a ∧ same a b ∧
    r.notes.map Fault.problem = s.notes.map Fault.problem ∧ Ahead tail r.rest s.rest

section

variable {tail short long : List Lexeme}

theorem Ahead.front {t : Lexeme} {after : List Lexeme} (ahead : Ahead tail short (t :: after)) :
    (short = [] ∧ tail = t :: after) ∨
      ∃ u front, short = u :: front ∧ t.token = u.token ∧ Ahead tail front after := by
  cases short with
  | nil => exact .inl ⟨rfl, ahead.nil.symm⟩
  | cons u front =>
    obtain ⟨v, others, same, token, ahead⟩ := ahead.cons
    cases same
    exact .inr ⟨u, front, rfl, token, ahead⟩

theorem Ahead.ended (ahead : Ahead tail short []) : short = [] := by
  obtain ⟨front, whole, tokens⟩ := ahead
  obtain ⟨rfl, -⟩ := List.append_eq_nil_iff.mp whole.symm
  exact List.map_eq_nil_iff.mp tokens.symm

theorem Ahead.all (ahead : Ahead tail short tail) : short = [] := by
  obtain ⟨front, whole, tokens⟩ := ahead
  rw [List.self_eq_append_left.mp whole] at tokens
  exact List.map_eq_nil_iff.mp tokens.symm

theorem Ahead.startsWith_cons {u : Lexeme} {front : List Lexeme} (ahead : Ahead tail (u :: front) long)
    (sign : Symbol) : Program.startsWith sign long = Program.startsWith sign (u :: front) := by
  obtain ⟨t, after, rfl, token, -⟩ := ahead.cons
  simp only [Program.startsWith, token]

namespace Keeps

variable {α β γ δ : Type} {same : α → β → Prop} {next : γ → δ → Prop}

theorem mk_done {a : α} {b : β} (match_ : same a b) (ahead : Ahead tail short long) :
    Keeps same tail (Reading.done short a) (Reading.done long b) := by
  rintro _ ⟨⟩ _
  exact ⟨a, rfl, match_, rfl, ahead⟩

theorem fail (r : Reading short α) (expected : Expected) :
    Keeps same tail r (Reading.fail long expected : Reading long β) := by
  rintro _ ⟨⟩

theorem taken {t : Lexeme} (r : Reading short α) (s : Reading long β) (h : long.length ≤ (t :: long).length) :
    Keeps same (t :: long) r (s.widen h : Reading (t :: long) β) := by
  intro b _ leaves
  exact absurd (Nat.le_trans leaves s.rest_le) (Nat.not_succ_le_self _)

/-- A reading that keeps to one that breaks off never leaves all of `tail`. -/
theorem broken {other r : Reading short α} {s : Reading long β} {fault : Fault}
    (outcome : other.outcome = .error fault) (keeps : Keeps same tail other s) : Keeps same tail r s := by
  intro b read leaves
  obtain ⟨a, read', -⟩ := keeps b read leaves
  rw [outcome] at read'
  cases read'

theorem widen {t u : Lexeme} {r : Reading short α} {s : Reading long β} (keeps : Keeps same tail r s)
    (h : short.length ≤ (t :: short).length) (k : long.length ≤ (u :: long).length) :
    Keeps same tail (r.widen h) (s.widen k) := keeps

theorem andThen {r : Reading short α} {s : Reading long β} (keeps : Keeps same tail r s)
    {f : α → (rest : List Lexeme) → rest.length ≤ short.length → Reading rest γ}
    {g : β → (rest : List Lexeme) → rest.length ≤ long.length → Reading rest δ}
    (continues : ∀ a b rest rest' h k, same a b → Ahead tail rest rest' →
      Keeps next tail (f a rest h) (g b rest' k)) :
    Keeps next tail (r.andThen f) (s.andThen g) := by
  intro d outcome leaves
  obtain ⟨b, first, second⟩ := ok_of_andThen outcome
  obtain ⟨-, notes, rest⟩ := andThen_of_ok first g
  rw [rest] at leaves
  obtain ⟨a, first', match_, notes', ahead⟩ := keeps b first (Nat.le_trans leaves (g b s.rest s.rest_le).rest_le)
  obtain ⟨c, second', match', more, ahead'⟩ :=
    continues a b r.rest s.rest r.rest_le s.rest_le match_ ahead d second leaves
  obtain ⟨outcome', notes'', rest'⟩ := andThen_of_ok first' f
  refine ⟨c, outcome'.trans second', match', ?_, ?_⟩
  · rw [notes, notes'', List.map_append, List.map_append, notes', more]
  · rwa [rest, rest']

theorem map {r : Reading short α} {s : Reading long β} (keeps : Keeps same tail r s) {f : α → γ} {g : β → δ}
    (respects : ∀ a b, same a b → next (f a) (g b)) : Keeps next tail (r.map f) (s.map g) := by
  intro d outcome leaves
  obtain ⟨b, read, rfl⟩ := ok_of_map outcome
  obtain ⟨a, read', match_, notes, ahead⟩ := keeps b read leaves
  exact ⟨f a, by rw [Reading.map, read']; rfl, respects a b match_, notes, ahead⟩

theorem note {r : Reading short α} {s : Reading long β} (keeps : Keeps same tail r s) {first second : List Fault}
    (more : first.map Fault.problem = second.map Fault.problem) :
    Keeps same tail (r.note first) (s.note second) := by
  intro b outcome leaves
  obtain ⟨a, read, match_, notes, ahead⟩ := keeps b outcome leaves
  refine ⟨a, read, match_, ?_, ahead⟩
  rw [Reading.note, Reading.note, List.map_append, List.map_append, notes, more]

theorem expectToken {same : α → α → Prop} {expected : Expected} {select : Lexeme → Option α}
    (alike : ∀ t u : Lexeme, t.token = u.token → Option.Rel same (select u) (select t))
    (ahead : Ahead tail short long) :
    Keeps same tail (expectToken expected select short) (Program.expectToken expected select long) := by
  cases long with
  | nil => exact fail _ expected
  | cons t after =>
    simp only [Program.expectToken]
    cases found : select t with
    | none => exact fail _ expected
    | some b =>
      obtain ⟨rfl, rfl⟩ | ⟨u, front, rfl, token, ahead⟩ := ahead.front
      · exact taken _ (Reading.done after b) (Nat.le_succ _)
      · have match_ := alike t u token
        rw [found] at match_
        cases found' : select u with
        | none =>
          rw [found'] at match_
          cases match_
        | some a =>
          rw [found'] at match_
          simp only [found']
          cases match_ with
          | some match_ => exact widen (mk_done match_ ahead) (Nat.le_succ _) (Nat.le_succ _)

theorem expectSymbol {sign : Symbol} (ahead : Ahead tail short long) :
    Keeps (fun _ _ => True) tail (expectSymbol sign short) (Program.expectSymbol sign long) := by
  refine expectToken (fun t u token => ?_) ahead
  rw [token]
  split
  · exact .some trivial
  · exact .none

theorem expectName {expected : Expected} (ahead : Ahead tail short long) :
    Keeps (fun a b => a.1 = b.1) tail (expectName expected short) (Program.expectName expected long) := by
  refine expectToken (fun t u token => ?_) ahead
  unfold nameOf?
  rw [token]
  cases u.token with
  | name text => exact .some rfl
  | _ => exact .none

end Keeps

end

/-- What a reader comes to on some tokens does not depend on those that it leaves at their end. -/
def Leaves {α : Type} (read : (tokens : List Lexeme) → Reading tokens α) (long : List Lexeme) : Prop :=
  ∀ tail short, Ahead tail short long → Keeps Eq tail (read short) (read long)

section

variable (scope : Scope)

theorem readers_leave :
    (∀ level tokens, Leaves (readLevel scope level) tokens) ∧
    (∀ tokens, Leaves (readUnary scope) tokens) ∧
    (∀ e tokens, Leaves (readSuffixes scope e) tokens) ∧
    (∀ tokens, Leaves (readPrimary scope) tokens) ∧
    (∀ tokens, Leaves (readArguments scope) tokens) ∧
    (∀ tokens, Leaves (readMoreArguments scope) tokens) ∧
    (∀ level left tokens, Leaves (readOperators scope level left) tokens) := by
  -- Where the reading of all tokens takes one, the tokens in front have one too, or it is the first of those left and
  -- the reading takes too many.
  refine readLevel.mutual_induct _ _ _ _ _ _ _
    ?binary ?tightest ?noOperand ?negated ?operand ?noSuffix ?member ?index ?otherToken ?noPrimary ?literal
    ?call ?name ?bracketed ?otherPrimary ?noArguments ?arguments ?moreArguments ?noOperator ?otherOperator
    ?operator
  case binary =>
    intro level long below operand operators tail short ahead
    rw [readLevel_binary scope short below, readLevel_binary scope long below]
    apply (operand tail short ahead).andThen
    rintro left _ rest rest' _ k rfl ahead
    exact operators left rest' k tail rest ahead
  case tightest =>
    intro level long tightest unary tail short ahead
    rw [readLevel_tightest scope short tightest, readLevel_tightest scope long tightest]
    exact unary tail short ahead
  case noOperand =>
    intro tail short _
    rw [readUnary_nil]
    exact .fail _ _
  case negated =>
    intro t after op sign operand tail short ahead
    rw [readUnary_negated scope sign]
    obtain ⟨rfl, rfl⟩ | ⟨u, front, rfl, token, ahead⟩ := ahead.front
    · exact .taken _ _ _
    · rw [readUnary_negated scope (token ▸ sign)]
      apply ((operand tail front ahead).map _).widen
      rintro _ _ rfl
      rfl
  case operand =>
    intro t after sign primary suffixes tail short ahead
    have whole := ahead
    have read : readUnary scope short =
        (readPrimary scope short).andThen fun e rest _ => readSuffixes scope e rest := by
      obtain ⟨rfl, -⟩ | ⟨u, front, rfl, token, -⟩ := ahead.front
      · rw [readUnary_nil, readPrimary_nil]
        rfl
      · exact readUnary_operand scope (token ▸ sign)
    rw [read, readUnary_operand scope sign]
    apply (primary tail short whole).andThen
    rintro e _ rest rest' _ k rfl ahead
    exact suffixes e rest' k tail rest ahead
  case noSuffix =>
    intro e tail short ahead
    obtain rfl := ahead.ended
    rw [readSuffixes_nil]
    exact .mk_done rfl ahead
  case member =>
    intro e t after dot suffixes tail short ahead
    rw [readSuffixes_member scope e dot]
    obtain ⟨rfl, rfl⟩ | ⟨u, front, rfl, token, ahead⟩ := ahead.front
    · exact .taken _ _ _
    · rw [readSuffixes_member scope e (token ▸ dot)]
      apply Keeps.widen
      apply (Keeps.expectName ahead).andThen
      intro other name rest rest' _ k same ahead
      rw [same]
      exact suffixes name rest' k tail rest ahead
  case index =>
    intro e t after dot bracket index suffixes tail short ahead
    rw [readSuffixes_index scope e dot bracket]
    obtain ⟨rfl, rfl⟩ | ⟨u, front, rfl, token, ahead⟩ := ahead.front
    · exact .taken _ _ _
    · rw [readSuffixes_index scope e (token ▸ dot) (token ▸ bracket)]
      apply Keeps.widen
      apply (index tail front ahead).andThen
      rintro place _ rest rest' _ k rfl ahead
      apply (Keeps.expectSymbol ahead).andThen
      intro _ _ last last' _ k' _ ahead
      exact suffixes place rest' k last' k' tail last ahead
  case otherToken =>
    intro e t after dot bracket tail short ahead
    have stays : readSuffixes scope e short = .done short e := by
      obtain ⟨rfl, -⟩ | ⟨u, front, rfl, token, -⟩ := ahead.front
      · exact readSuffixes_nil scope e
      · exact readSuffixes_other scope e (token ▸ dot) (token ▸ bracket)
    rw [stays, readSuffixes_other scope e dot bracket]
    exact .mk_done rfl ahead
  case noPrimary =>
    intro tail short _
    rw [readPrimary_nil]
    exact .fail _ _
  case literal =>
    intro t after value literal tail short ahead
    rw [readPrimary_literal scope literal]
    obtain ⟨rfl, rfl⟩ | ⟨u, front, rfl, token, ahead⟩ := ahead.front
    · exact .taken _ _ _
    · rw [readPrimary_literal scope (token ▸ literal)]
      exact (Keeps.mk_done rfl ahead).widen _ _
  case call =>
    intro t after literal name span named call arguments tail short ahead
    rw [readPrimary_call scope literal named call]
    obtain ⟨rfl, rfl⟩ | ⟨u, front, rfl, token, ahead⟩ := ahead.front
    · exact .taken _ _ _
    have literal' : literal? u.token = none := token ▸ literal
    have named' := (nameOf?_of_token token.symm).trans (congrArg _ named)
    have called : Keeps Eq tail
        ((expectSymbol .openParen front).andThen fun _ rest _ => (readArguments scope rest).andThen fun given rest' _ =>
          (Reading.done rest' (scope.resolveCall name u.span given).1).note (scope.resolveCall name u.span given).2)
        ((expectSymbol .openParen after).andThen fun _ rest _ => (readArguments scope rest).andThen fun given rest' _ =>
          (Reading.done rest' (scope.resolveCall name span given).1).note (scope.resolveCall name span given).2) := by
      apply (Keeps.expectSymbol ahead).andThen
      intro _ _ rest rest' _ k _ ahead
      apply (arguments rest' k tail rest ahead).andThen
      rintro given _ last last' _ _ rfl ahead
      obtain ⟨result, notes⟩ := map_problem_resolveCall scope name u.span span given
      rw [result]
      exact (Keeps.mk_done rfl ahead).note notes
    cases front with
    | nil =>
      -- The bracket of the call is left, so that the reading takes too many tokens.
      have bare : ¬ startsWith .openParen [] := Bool.false_ne_true
      rw [readPrimary_name scope literal' named' bare]
      exact (called.broken rfl).widen _ _
    | cons v front =>
      rw [ahead.startsWith_cons] at call
      rw [readPrimary_call scope literal' named' call]
      exact called.widen _ _
  case name =>
    intro t after literal name span named call tail short ahead
    rw [readPrimary_name scope literal named call]
    obtain ⟨rfl, rfl⟩ | ⟨u, front, rfl, token, ahead⟩ := ahead.front
    · exact .taken _ _ _
    have named' := (nameOf?_of_token token.symm).trans (congrArg _ named)
    have call' : ¬ startsWith .openParen front := by
      cases front with
      | nil => exact Bool.false_ne_true
      | cons v front =>
        rw [← ahead.startsWith_cons]
        exact call
    rw [readPrimary_name scope (token ▸ literal) named' call']
    obtain ⟨result, notes⟩ := map_problem_resolveName scope name u.span span
    rw [result]
    exact ((Keeps.mk_done rfl ahead).note notes).widen _ _
  case bracketed =>
    intro t after literal named bracket inner tail short ahead
    rw [readPrimary_bracketed scope literal named bracket]
    obtain ⟨rfl, rfl⟩ | ⟨u, front, rfl, token, ahead⟩ := ahead.front
    · exact .taken _ _ _
    have named' := (nameOf?_of_token token.symm).trans (congrArg _ named)
    rw [readPrimary_bracketed scope (token ▸ literal) named' (token ▸ bracket)]
    apply Keeps.widen
    apply (inner tail front ahead).andThen
    rintro e _ rest rest' _ _ rfl ahead
    exact (Keeps.expectSymbol ahead).map fun _ _ _ => rfl
  case otherPrimary =>
    intro t after literal named bracket tail short _
    rw [readPrimary_other scope literal named bracket]
    exact .fail _ _
  case noArguments =>
    intro long empty tail short ahead
    have closed : Keeps Eq tail ((expectSymbol .closeParen short).map fun _ => ([] : List Expr))
        ((expectSymbol .closeParen long).map fun _ => []) := (Keeps.expectSymbol ahead).map fun _ _ _ => rfl
    rw [readArguments_none scope empty]
    cases short with
    | nil => exact closed.broken rfl
    | cons u front =>
      rw [ahead.startsWith_cons] at empty
      rw [readArguments_none scope empty]
      exact closed
  case arguments =>
    intro long some_ arguments tail short ahead
    have some' : ¬ startsWith .closeParen short := by
      cases short with
      | nil => exact Bool.false_ne_true
      | cons u front =>
        rw [← ahead.startsWith_cons]
        exact some_
    rw [readArguments_some scope some', readArguments_some scope some_]
    apply (arguments tail short ahead).andThen
    rintro given _ rest rest' _ _ rfl ahead
    exact (Keeps.expectSymbol ahead).map fun _ _ _ => rfl
  case moreArguments =>
    intro long first more tail short ahead
    rw [readMoreArguments.eq_def scope short, readMoreArguments.eq_def scope long]
    apply (first tail short ahead).andThen
    rintro e _ rest rest' _ k rfl ahead
    cases rest' with
    | nil =>
      obtain rfl := ahead.ended
      exact .mk_done rfl ahead
    | cons t after =>
      by_cases comma : t.token.isSymbol .comma
      · simp only [comma, if_true]
        obtain ⟨rfl, rfl⟩ | ⟨u, front, rfl, token, ahead⟩ := ahead.front
        · exact .taken _ _ _
        · simp only [← token, comma, if_true]
          apply Keeps.widen
          apply (more t after k tail front ahead).map
          rintro given _ rfl
          rfl
      · simp only [comma]
        obtain ⟨rfl, -⟩ | ⟨u, front, rfl, token, -⟩ := ahead.front
        · exact .mk_done rfl ahead
        · simp only [← token, comma]
          exact .mk_done rfl ahead
  case noOperator =>
    intro level left tail short ahead
    obtain rfl := ahead.ended
    rw [readOperators_nil]
    exact .mk_done rfl ahead
  case otherOperator =>
    intro level left t after none tail short ahead
    have stays : readOperators scope level left short = .done short left := by
      obtain ⟨rfl, -⟩ | ⟨u, front, rfl, token, -⟩ := ahead.front
      · exact readOperators_nil scope level left
      · exact readOperators_other scope left (token ▸ none)
    rw [stays, readOperators_other scope left none]
    exact .mk_done rfl ahead
  case operator =>
    intro level left t after op sign operand operators tail short ahead
    rw [readOperators_operator scope left sign]
    obtain ⟨rfl, rfl⟩ | ⟨u, front, rfl, token, ahead⟩ := ahead.front
    · exact .taken _ _ _
    · rw [readOperators_operator scope left (token ▸ sign)]
      apply Keeps.widen
      apply (operand tail front ahead).andThen
      rintro right _ rest rest' _ k rfl ahead
      exact operators right rest' k tail rest ahead

/-! ### Expressions to the end of the tokens -/

/-- Tokens that are read to their end are read alike wherever they stand. -/
theorem readExpr_of_tokens {lexemes others : List Lexeme} (same : others.map Lexeme.token = lexemes.map Lexeme.token)
    {e : Expr} (reads : (readExpr scope lexemes).outcome = .ok e) (whole : (readExpr scope lexemes).rest = []) :
    (readExpr scope others).outcome = .ok e ∧
      (readExpr scope others).notes.map Fault.problem = (readExpr scope lexemes).notes.map Fault.problem ∧
      (readExpr scope others).rest = [] := by
  have ahead : Ahead [] others lexemes := ⟨lexemes, (List.append_nil _).symm, same.symm⟩
  obtain ⟨_, reads', rfl, notes, left⟩ := (readers_leave scope).1 0 lexemes [] others ahead e reads (Nat.zero_le _)
  change Ahead [] (readExpr scope others).rest (readExpr scope lexemes).rest at left
  rw [whole] at left
  exact ⟨reads', notes, left.ended⟩

theorem ok_of_readLevel {tokens : List Lexeme} {level : Nat} (loose : level ≤ operandLevel) {e : Expr}
    (reads : (readLevel scope level tokens).outcome = .ok e) :
    ∃ operand, (readUnary scope tokens).outcome = .ok operand := by
  obtain ⟨tighter, sum⟩ := Nat.exists_eq_add_of_le loose
  induction tighter generalizing level e with
  | zero =>
    rw [readLevel_tightest scope tokens (by omega)] at reads
    exact ⟨e, reads⟩
  | succ tighter ih =>
    rw [readLevel_binary scope tokens (by omega)] at reads
    obtain ⟨left, first, -⟩ := ok_of_andThen reads
    exact ih (by omega) first (by omega)

section
variable {t : Lexeme} (opens : t.token = .symbol .openParen) (body : List Lexeme)

include opens

theorem readPrimary_bracket :
    readPrimary scope (t :: body) = ((readLevel scope 0 body).andThen fun e rest _ =>
      (expectSymbol .closeParen rest).map fun _ => e).widen (Nat.le_succ _) :=
  readPrimary_bracketed scope (by rw [opens]; rfl) (nameOf?_of_symbol opens) (isSymbol_iff.mpr opens)

theorem readUnary_bracket :
    readUnary scope (t :: body) =
      (readPrimary scope (t :: body)).andThen fun e rest _ => readSuffixes scope e rest :=
  readUnary_operand scope (by rw [opens]; rfl)

end

theorem readUnary_of_brackets {t c : Lexeme} {body : List Lexeme} (opens : t.token = .symbol .openParen) {e : Expr}
    (reads : (readLevel scope 0 body).outcome = .ok e) (left : (readLevel scope 0 body).rest = [c])
    (closes : c.token = .symbol .closeParen) :
    (readUnary scope (t :: body)).outcome = .ok e ∧
      (readUnary scope (t :: body)).notes = (readLevel scope 0 body).notes ∧
      (readUnary scope (t :: body)).rest = [] := by
  have closed : Gives ((expectSymbol .closeParen (readLevel scope 0 body).rest).map fun _ => e) e [] := by
    rw [left]
    exact (Gives.expectSymbol closes).map fun _ => e
  obtain ⟨outcome, notes, rest⟩ := andThen_of_ok reads fun e rest _ =>
    (expectSymbol .closeParen rest).map fun _ => e
  have read : (readPrimary scope (t :: body)).outcome = .ok e := by
    rw [readPrimary_bracket scope opens]
    exact outcome.trans closed.outcome
  have noted : (readPrimary scope (t :: body)).notes = (readLevel scope 0 body).notes := by
    rw [readPrimary_bracket scope opens]
    exact notes.trans (by rw [closed.notes, List.append_nil])
  have ended : (readPrimary scope (t :: body)).rest = [] := by
    rw [readPrimary_bracket scope opens]
    exact rest.trans closed.rest
  obtain ⟨outcome', notes', rest'⟩ := andThen_of_ok read fun e rest _ => readSuffixes scope e rest
  rw [readUnary_bracket scope opens, outcome', notes', rest', ended, readSuffixes_nil, noted]
  exact ⟨rfl, List.append_nil _, rfl⟩

theorem readExpr_of_brackets {lexemes others : List Lexeme} {inner : List Token} (balanced : Balanced true inner)
    (bracketed : lexemes.map Lexeme.token = .symbol .openParen :: (inner ++ [.symbol .closeParen]))
    (same : others.map Lexeme.token = inner)
    {e : Expr} (reads : (readExpr scope lexemes).outcome = .ok e) :
    (readExpr scope others).outcome = .ok e ∧
      (readExpr scope others).notes.map Fault.problem = (readExpr scope lexemes).notes.map Fault.problem ∧
      (readExpr scope others).rest = [] := by
  obtain ⟨t, body, rfl, opens, tokens⟩ := List.map_eq_cons_iff.mp bracketed
  -- The operand that the expression begins with is read from the first bracket to the one that closes it.
  obtain ⟨_, unary⟩ := ok_of_readLevel scope (Nat.zero_le _) reads
  rw [readUnary_bracket scope opens] at unary
  obtain ⟨_, primary, -⟩ := ok_of_andThen unary
  rw [readPrimary_bracket scope opens] at primary
  simp only [Reading.widen] at primary
  obtain ⟨content, within, primary⟩ := ok_of_andThen primary
  obtain ⟨_, closing, -⟩ := ok_of_map primary
  obtain ⟨_, shows_, rfl⟩ := Takes.expectSymbol .closeParen _ closing False.elim
  obtain ⟨c, left, closes⟩ := shows_.singleton
  generalize (expectSymbol .closeParen (readLevel scope 0 body).rest).rest = after at left
  obtain ⟨taken, ⟨front, parts, rfl⟩, balanced'⟩ := readExpr_balanced scope within
  -- Nothing stands behind that one.
  rw [readExpr, left] at parts
  have whole : inner ++ .symbol .closeParen :: [] =
      front.map Lexeme.token ++ .symbol .closeParen :: after.map Lexeme.token := by
    rw [← tokens, parts, List.map_append, List.map_cons, closes]
  have pair : (Symbol.openParen, Symbol.closeParen) ∈ bracketPairs := by simp [bracketPairs]
  obtain ⟨rfl, -, ended⟩ := balanced.unique balanced' pair pair whole
  rw [List.map_eq_nil_iff.mp ended.symm] at left parts
  obtain ⟨outcome, notes, rest⟩ := readUnary_of_brackets scope opens within left closes
  obtain ⟨outcome', notes', -⟩ := readLevel_of_readUnary scope outcome rest (Nat.zero_le _)
  obtain rfl : e = content := Except.ok.inj (reads.symm.trans outcome')
  -- What stands inside is read alike without the bracket behind it.
  have ahead : Ahead [c] others body := ⟨front, parts, same.symm⟩
  obtain ⟨_, reads', rfl, noted, rest'⟩ :=
    (readers_leave scope).1 0 body [c] others ahead e within (Nat.le_of_eq (congrArg List.length left.symm))
  rw [left] at rest'
  exact ⟨reads', noted.trans (congrArg _ (notes.symm.trans notes'.symm)), rest'.all⟩

end

end Stencil.Program
