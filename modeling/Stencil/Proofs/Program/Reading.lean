import Stencil.Program.Parse

/-! Readings and the branches of the readers.

A reading that goes on behind another one is told by the two. Each reader of expressions takes one of a few branches,
which the next token decides, and every branch has its law here. What is shown of all readers goes through these laws,
so that it does not depend on how a reader comes to its branch.
-/

set_option autoImplicit false

namespace Stencil.Program

theorem isSymbol_iff {sign : Symbol} {token : Token} : token.isSymbol sign ↔ token = .symbol sign := by
  cases token <;> simp [Token.isSymbol]

theorem isKeyword_iff {t : Token} {word : Keyword} : t.isKeyword word ↔ t = .keyword word := by
  cases t <;> simp [Token.isKeyword]

theorem token_of_nameOf? {t : Lexeme} {name : String} {span : Span} (named : nameOf? t = some (name, span)) :
    t.token = .name name := by
  unfold nameOf? at named
  split at named
  · rename_i is
    cases named
    exact is
  · cases named

theorem nameOf?_of_name {t : Lexeme} {name : String} (named : t.token = .name name) :
    nameOf? t = some (name, t.span) := by
  simp only [nameOf?, named]

theorem nameOf?_of_symbol {t : Lexeme} {sign : Symbol} (symbol : t.token = .symbol sign) : nameOf? t = none := by
  simp only [nameOf?, symbol]

theorem startsWith_cons {t : Lexeme} {rest : List Lexeme} {sign : Symbol} (token : t.token = .symbol sign) :
    startsWith sign (t :: rest) := isSymbol_iff.mpr token

/-- The tokens of `short` stand in front of `tail` in `long`. -/
def Ahead (tail short long : List Lexeme) : Prop :=
  ∃ front, long = front ++ tail ∧ front.map Lexeme.token = short.map Lexeme.token

section

variable {tail short long : List Lexeme}

theorem Ahead.nil (ahead : Ahead tail [] long) : long = tail := by
  obtain ⟨front, rfl, tokens⟩ := ahead
  rw [List.map_nil, List.map_eq_nil_iff] at tokens
  rw [tokens, List.nil_append]

theorem Ahead.cons {t : Lexeme} (ahead : Ahead tail (t :: short) long) :
    ∃ u after, long = u :: after ∧ u.token = t.token ∧ Ahead tail short after := by
  obtain ⟨front, rfl, tokens⟩ := ahead
  rw [List.map_cons, List.map_eq_cons_iff] at tokens
  obtain ⟨u, others, rfl, token, rest⟩ := tokens
  exact ⟨u, others ++ tail, rfl, token, others, rfl, rest⟩

end

theorem nameOf?_of_token {t u : Lexeme} (token : u.token = t.token) :
    nameOf? u = (nameOf? t).map fun name => (name.1, u.span) := by
  unfold nameOf?
  rw [token]
  cases t.token <;> rfl

theorem map_problem_resolveName (scope : Scope) (name : String) (first second : Span) :
    (scope.resolveName name first).1 = (scope.resolveName name second).1 ∧
      (scope.resolveName name first).2.map Fault.problem =
        (scope.resolveName name second).2.map Fault.problem := by
  unfold Scope.resolveName
  split
  · exact ⟨rfl, rfl⟩
  · exact ⟨rfl, rfl⟩

theorem map_problem_resolveCall (scope : Scope) (name : String) (first second : Span)
    (arguments : List Expr) :
    (scope.resolveCall name first arguments).1 = (scope.resolveCall name second arguments).1 ∧
      (scope.resolveCall name first arguments).2.map Fault.problem =
        (scope.resolveCall name second arguments).2.map Fault.problem := by
  unfold Scope.resolveCall
  split
  · split
    · exact ⟨rfl, rfl⟩
    · exact ⟨rfl, rfl⟩
  · exact ⟨rfl, rfl⟩

/-! ### Readings that go on -/

theorem andThen_of_ok {α β : Type} {tokens : List Lexeme} {r : Reading tokens α} {a : α}
    (outcome : r.outcome = .ok a)
    (f : α → (rest : List Lexeme) → rest.length ≤ tokens.length → Reading rest β) :
    (r.andThen f).outcome = (f a r.rest r.rest_le).outcome ∧
      (r.andThen f).notes = r.notes ++ (f a r.rest r.rest_le).notes ∧
      (r.andThen f).rest = (f a r.rest r.rest_le).rest := by
  unfold Reading.andThen
  rw [outcome]
  exact ⟨rfl, rfl, rfl⟩

theorem ok_of_andThen {α β : Type} {tokens : List Lexeme} {r : Reading tokens α}
    {f : α → (rest : List Lexeme) → rest.length ≤ tokens.length → Reading rest β} {b : β}
    (read : (r.andThen f).outcome = .ok b) :
    ∃ a, r.outcome = .ok a ∧ (f a r.rest r.rest_le).outcome = .ok b := by
  cases first : r.outcome with
  | error fault =>
    rw [Reading.andThen, first] at read
    cases read
  | ok a => exact ⟨a, rfl, (andThen_of_ok first f).1.symm.trans read⟩

theorem ok_of_map {α β : Type} {tokens : List Lexeme} {r : Reading tokens α} {f : α → β} {b : β}
    (read : (r.map f).outcome = .ok b) : ∃ a, r.outcome = .ok a ∧ f a = b := by
  obtain ⟨_, outcome, _, _⟩ := r
  cases outcome with
  | error fault => cases read
  | ok a => exact ⟨a, rfl, Except.ok.inj read⟩

/-! ### The branches of the readers -/

section

variable (scope : Scope) {level : Nat} {t : Lexeme} {after : List Lexeme}

theorem readLevel_binary (tokens : List Lexeme) (below : level < operandLevel) :
    readLevel scope level tokens =
      (readLevel scope (level + 1) tokens).andThen fun left rest _ => readOperators scope level left rest := by
  rw [readLevel, if_pos below]

theorem readLevel_tightest (tokens : List Lexeme) (tightest : ¬ level < operandLevel) :
    readLevel scope level tokens = readUnary scope tokens := by
  rw [readLevel, if_neg tightest]

theorem readOperators_nil (level : Nat) (left : Expr) : readOperators scope level left [] = .done [] left := by
  rw [readOperators]

theorem readOperators_other (left : Expr) (none : binaryOp? level t.token = none) :
    readOperators scope level left (t :: after) = .done (t :: after) left := by
  rw [readOperators]
  simp only [none]

theorem readOperators_operator {op : BinaryOp} (left : Expr) (sign : binaryOp? level t.token = some op) :
    readOperators scope level left (t :: after) =
      ((readLevel scope (level + 1) after).andThen fun right rest _ =>
        readOperators scope level (.binary op left right) rest).widen (Nat.le_succ _) := by
  rw [readOperators]
  simp only [sign]

theorem readUnary_nil : readUnary scope [] = .fail [] .expression := by
  rw [readUnary]

theorem readUnary_negated {op : UnaryOp} (sign : unaryOp? t.token = some op) :
    readUnary scope (t :: after) = ((readUnary scope after).map (.unary op)).widen (Nat.le_succ _) := by
  rw [readUnary]
  simp only [sign]

theorem readUnary_operand (sign : unaryOp? t.token = none) :
    readUnary scope (t :: after) =
      (readPrimary scope (t :: after)).andThen fun e rest _ => readSuffixes scope e rest := by
  rw [readUnary]
  simp only [sign]

theorem readSuffixes_nil (e : Expr) : readSuffixes scope e [] = .done [] e := by
  rw [readSuffixes]

theorem readSuffixes_member (e : Expr) (dot : t.token.isSymbol .dot) :
    readSuffixes scope e (t :: after) =
      ((expectName .memberName after).andThen fun name rest _ =>
        readSuffixes scope (.member e name.1) rest).widen (Nat.le_succ _) := by
  rw [readSuffixes, if_pos dot]

theorem readSuffixes_index (e : Expr) (dot : ¬ t.token.isSymbol .dot) (bracket : t.token.isSymbol .openBracket) :
    readSuffixes scope e (t :: after) =
      ((readLevel scope 0 after).andThen fun index rest _ =>
        (expectSymbol .closeBracket rest).andThen fun _ rest' _ =>
          readSuffixes scope (.index e index) rest').widen (Nat.le_succ _) := by
  rw [readSuffixes, if_neg dot, if_pos bracket]

theorem readSuffixes_other (e : Expr) (dot : ¬ t.token.isSymbol .dot) (bracket : ¬ t.token.isSymbol .openBracket) :
    readSuffixes scope e (t :: after) = .done (t :: after) e := by
  rw [readSuffixes, if_neg dot, if_neg bracket]

theorem readPrimary_nil : readPrimary scope [] = .fail [] .expression := by
  rw [readPrimary]

theorem readPrimary_literal {value : Json.Value} (literal : literal? t.token = some value) :
    readPrimary scope (t :: after) = (Reading.done after (.literal value)).widen (Nat.le_succ _) := by
  rw [readPrimary]
  simp only [literal]
  rfl

section
variable {name : String} {span : Span} (literal : literal? t.token = none) (named : nameOf? t = some (name, span))

include literal named

theorem readPrimary_call (call : startsWith .openParen after) :
    readPrimary scope (t :: after) =
      ((expectSymbol .openParen after).andThen fun _ rest _ =>
        (readArguments scope rest).andThen fun arguments rest' _ =>
          (Reading.done rest' (scope.resolveCall name span arguments).1).note
            (scope.resolveCall name span arguments).2).widen (Nat.le_succ _) := by
  rw [readPrimary]
  simp only [literal, named, call, if_true]

theorem readPrimary_name (call : ¬ startsWith .openParen after) :
    readPrimary scope (t :: after) =
      ((Reading.done after (scope.resolveName name span).1).note
        (scope.resolveName name span).2).widen (Nat.le_succ _) := by
  rw [readPrimary]
  simp only [literal, named, call, Bool.false_eq_true, if_false]

end

section
variable (literal : literal? t.token = none) (named : nameOf? t = none)

include literal named

theorem readPrimary_bracketed (bracket : t.token.isSymbol .openParen) :
    readPrimary scope (t :: after) =
      ((readLevel scope 0 after).andThen fun e rest _ =>
        (expectSymbol .closeParen rest).map fun _ => e).widen (Nat.le_succ _) := by
  rw [readPrimary]
  simp only [literal, named, bracket, if_true]

theorem readPrimary_other (bracket : ¬ t.token.isSymbol .openParen) :
    readPrimary scope (t :: after) = .fail (t :: after) .expression := by
  rw [readPrimary]
  simp only [literal, named, bracket, Bool.false_eq_true, if_false]

end

theorem readArguments_none {tokens : List Lexeme} (empty : startsWith .closeParen tokens) :
    readArguments scope tokens = (expectSymbol .closeParen tokens).map fun _ => [] := by
  rw [readArguments, if_pos empty]

theorem readArguments_some {tokens : List Lexeme} (some_ : ¬ startsWith .closeParen tokens) :
    readArguments scope tokens =
      (readMoreArguments scope tokens).andThen fun arguments rest _ =>
        (expectSymbol .closeParen rest).map fun _ => arguments := by
  rw [readArguments, if_neg some_]

theorem readLevel_of_readUnary {tokens : List Lexeme} {e : Expr}
    (outcome : (readUnary scope tokens).outcome = .ok e) (ended : (readUnary scope tokens).rest = [])
    (loose : level ≤ operandLevel) :
    (readLevel scope level tokens).outcome = .ok e ∧
      (readLevel scope level tokens).notes = (readUnary scope tokens).notes ∧
      (readLevel scope level tokens).rest = [] := by
  -- By the number of levels down to the operands: at none of them does an operator follow.
  obtain ⟨tighter, sum⟩ := Nat.exists_eq_add_of_le loose
  induction tighter generalizing level with
  | zero =>
    rw [readLevel_tightest scope tokens (by omega)]
    exact ⟨outcome, rfl, ended⟩
  | succ tighter ih =>
    obtain ⟨outcome', notes', rest'⟩ := @ih (level + 1) (by omega) (by omega)
    rw [readLevel_binary scope tokens (by omega)]
    obtain ⟨last, notes, rest⟩ := andThen_of_ok outcome' fun left rest _ =>
      readOperators scope level left rest
    rw [last, notes, rest, rest', readOperators_nil, notes']
    exact ⟨rfl, List.append_nil _, rfl⟩

end

end Stencil.Program
