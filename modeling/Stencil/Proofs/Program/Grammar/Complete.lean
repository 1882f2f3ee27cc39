import Stencil.Proofs.Program.Grammar.Basic

/-! What is derived is read.

The readers take the tokens of a derivation and come to its tree, without a fault, where the next token does not
belong to the expression as well. A level is read by going on behind its first operand, so that what is shown about
it says what the readers come to where they go on. From the readers the grammar has its uniqueness: there is one tree
for some tokens, since the readers come to it.
-/

set_option autoImplicit false

namespace Stencil.Program

/-- The next token is no operator of a level or a tighter one, and begins no suffix and no call. -/
def Stops (level : Nat) (tail : List Lexeme) : Prop :=
  ∀ t ∈ tail.head?, (∀ other, level ≤ other → binaryOp? other t.token = none) ∧
    ∀ sign ∈ [Symbol.dot, .openBracket, .openParen], ¬ t.token.isSymbol sign

section

variable {scope : Scope} {level : Nat} {tail rest : List Lexeme} {t : Lexeme}

theorem Stops.mono {other : Nat} (stops : Stops level tail) (le : level ≤ other) : Stops other tail := by
  intro t first
  obtain ⟨none, suffix⟩ := stops t first
  exact ⟨fun further le' => none further (Nat.le_trans le le'), suffix⟩

theorem Stops.tightest (stops : Stops (operandLevel + 1) tail) : Stops operandLevel tail := by
  intro t first
  obtain ⟨none, suffix⟩ := stops t first
  refine ⟨fun other le => ?_, suffix⟩
  rcases Nat.lt_or_eq_of_le le with tighter | rfl
  · exact none other tighter
  · rw [Option.eq_none_iff_forall_ne_some]
    intro op found
    obtain ⟨sign, _, known⟩ := binaryOp?_eq_some_iff.mp found
    cases known

theorem stops_nil (level : Nat) : Stops level [] := by
  intro t first
  cases first

theorem stops_of_closing {sign : Symbol} (token : t.token = .symbol sign)
    (closing : sign ∈ [Symbol.closeParen, .closeBracket, .closeBrace, .comma]) : Stops level (t :: rest) := by
  have none : BinaryOp.ofSymbol? sign = none := by
    revert closing
    cases sign <;> decide
  rintro _ ⟨⟩
  rw [token]
  constructor
  · intro other _
    simp only [binaryOp?, none, Option.filter_none]
  · intro other suffix
    rw [isSymbol_iff]
    rintro ⟨⟩
    revert closing suffix
    cases sign <;> decide

theorem stops_of_mem_operators {sign : Symbol} {op : BinaryOp} (token : t.token = .symbol sign)
    (known : (sign, op) ∈ operators level) : Stops (level + 1) (t :: rest) := by
  obtain ⟨rfl, rfl⟩ := mem_operators_iff.mp known
  rintro _ ⟨⟩
  rw [token]
  constructor
  · intro other tighter
    rw [Option.eq_none_iff_forall_ne_some]
    intro op' found
    obtain ⟨_, same, known'⟩ := binaryOp?_eq_some_iff.mp found
    cases same
    obtain ⟨same, rfl⟩ := mem_operators_iff.mp known'
    have one := (BinaryOp.ofSymbol?_eq_some_iff.mpr same).symm.trans (BinaryOp.ofSymbol?_eq_some_iff.mpr rfl)
    cases one
    exact absurd tighter (Nat.not_succ_le_self _)
  · intro other suffix
    rw [isSymbol_iff]
    rintro ⟨⟩
    revert suffix
    cases op <;> decide

/-! ### What expressions begin with -/

theorem IsPostfix.begins {tokens : List Token} {e : Expr} (derived : IsPostfix scope tokens e) :
    ∃ first rest, tokens = first :: rest ∧ unaryOp? first = none ∧ first ≠ .symbol .closeParen := by
  match derived with
  | .primary derived =>
    cases derived with
    | literal stands => cases stands <;> exact ⟨_, _, rfl, rfl, by simp⟩
    | parameter => exact ⟨_, _, rfl, rfl, by simp⟩
    | call known accepted derived => exact ⟨_, _, rfl, rfl, by simp⟩
    | bracketed derived => exact ⟨_, _, rfl, rfl, by simp⟩
  | .member property derived =>
    obtain ⟨first, rest, rfl, other⟩ := derived.begins
    exact ⟨first, _, rfl, other⟩
  | .index derived derived' =>
    obtain ⟨first, rest, rfl, other⟩ := derived.begins
    exact ⟨first, _, rfl, other⟩

theorem IsUnary.begins {tokens : List Token} {e : Expr} (derived : IsUnary scope tokens e) :
    ∃ first rest, tokens = first :: rest ∧ first ≠ .symbol .closeParen := by
  cases derived with
  | operand derived =>
    obtain ⟨first, rest, same, _, other⟩ := derived.begins
    exact ⟨first, rest, same, other⟩
  | signed known derived =>
    refine ⟨_, _, rfl, ?_⟩
    rintro ⟨⟩
    simp [prefixes] at known

/-- The operators of an expression have a level, and no expression begins with a closing bracket. -/
theorem IsLevel.begins {level : Nat} {tokens : List Token} {e : Expr} (derived : IsLevel scope level tokens e) :
    level ≤ operandLevel ∧ ∃ first rest, tokens = first :: rest ∧ first ≠ .symbol .closeParen := by
  match derived with
  | .unary derived => exact ⟨Nat.le_refl _, derived.begins⟩
  | .tighter derived =>
    obtain ⟨le, first⟩ := derived.begins
    exact ⟨Nat.le_of_succ_le le, first⟩
  | .binary known derived derived' =>
    obtain ⟨le, first, rest, rfl, other⟩ := derived.begins
    exact ⟨le, first, _, rfl, other⟩

theorem IsSeries.begins {tokens : List Token} {arguments : List Expr} (derived : IsSeries scope tokens arguments) :
    ∃ first rest, tokens = first :: rest ∧ first ≠ .symbol .closeParen := by
  cases derived with
  | last derived => exact derived.begins.2
  | cons derived derived' =>
    obtain ⟨_, first, rest, rfl, other⟩ := derived.begins
    exact ⟨first, _, rfl, other⟩

/-! ### Where reading ends -/

variable (scope) in
theorem readOperators_of_stops (stops : Stops level tail) (e : Expr) :
    Gives (readOperators scope level e tail) e tail := by
  cases tail with
  | nil =>
    rw [readOperators_nil]
    exact .done e
  | cons t after =>
    rw [readOperators_other scope e ((stops t rfl).1 level (Nat.le_refl _))]
    exact .done e

variable (scope) in
theorem readSuffixes_of_stops (stops : Stops level tail) (e : Expr) :
    Gives (readSuffixes scope e tail) e tail := by
  cases tail with
  | nil =>
    rw [readSuffixes_nil]
    exact .done e
  | cons t after =>
    obtain ⟨_, suffix⟩ := stops t rfl
    rw [readSuffixes_other scope e (suffix .dot (by simp)) (suffix .openBracket (by simp))]
    exact .done e

theorem startsWith_of_stops (stops : Stops level tail) : startsWith .openParen tail = false := by
  cases tail with
  | nil => rfl
  | cons t after => exact Bool.eq_false_iff.mpr ((stops t rfl).2 .openParen (by simp))

end

/-! ### The readers on derivations -/

section

variable {scope : Scope}

mutual

theorem IsLevel.read {level : Nat} {tokens : List Token} {e b : Expr} {text tail rest : List Lexeme}
    (derived : IsLevel scope level tokens e) (shows_ : Shows tokens tail text) (stops : Stops (level + 1) tail)
    (onward : Gives (readOperators scope level e tail) b rest) :
    Gives (readLevel scope level text) b rest := by
  match derived with
  | .unary derived =>
    rw [readLevel_tightest scope text (by decide)]
    have ends := readOperators_of_stops scope stops.tightest e
    rw [onward.unique ends, onward.rest.symm.trans ends.rest]
    exact derived.read shows_ stops
  | .tighter derived =>
    rw [readLevel_binary scope text (Nat.lt_of_succ_le derived.begins.1)]
    apply (derived.read shows_ (stops.mono (Nat.le_succ _)) (readOperators_of_stops scope stops _)).andThen
    exact fun _ => onward
  | .binary known derived derived' =>
    obtain ⟨between, shows_, others⟩ := shows_.append
    obtain ⟨t, after, rfl, sign, shows'⟩ := others.cons
    apply derived.read shows_ (stops_of_mem_operators sign known)
    rw [readOperators_operator scope _ (binaryOp?_eq_some_iff.mpr ⟨_, sign, known⟩)]
    apply Gives.widen
    apply (derived'.read shows' (stops.mono (Nat.le_succ _)) (readOperators_of_stops scope stops _)).andThen
    exact fun _ => onward

theorem IsUnary.read {level : Nat} {tokens : List Token} {e : Expr} {text tail : List Lexeme}
    (derived : IsUnary scope tokens e) (shows_ : Shows tokens tail text) (stops : Stops level tail) :
    Gives (readUnary scope text) e tail := by
  match derived with
  | .operand derived => exact derived.read shows_ (startsWith_of_stops stops) (readSuffixes_of_stops scope stops _)
  | .signed known derived =>
    obtain ⟨t, after, rfl, sign, shows_⟩ := shows_.cons
    rw [readUnary_negated scope (unaryOp?_eq_some_iff.mpr ⟨_, sign, known⟩)]
    exact ((derived.read shows_ stops).map _).widen _

theorem IsPostfix.read {tokens : List Token} {e b : Expr} {text tail rest : List Lexeme}
    (derived : IsPostfix scope tokens e) (shows_ : Shows tokens tail text)
    (bare : startsWith .openParen tail = false) (onward : Gives (readSuffixes scope e tail) b rest) :
    Gives (readUnary scope text) b rest := by
  match derived with
  | .primary derived =>
    have primary := derived.read shows_ bare
    obtain ⟨first, others, rfl, none, _⟩ := (IsPostfix.primary derived).begins
    obtain ⟨t, after, rfl, rfl, _⟩ := shows_.cons
    rw [readUnary_operand scope none]
    exact primary.andThen fun _ => onward
  | .member property derived =>
    obtain ⟨between, shows_, suffix⟩ := shows_.append
    obtain ⟨dot, after, rfl, isDot, suffix⟩ := suffix.cons
    obtain ⟨name, rfl, isName⟩ := suffix.singleton
    apply derived.read shows_
    · simp only [startsWith, isDot]
      rfl
    · rw [readSuffixes_member scope _ (isSymbol_iff.mpr isDot)]
      exact ((Gives.expectName _ isName).andThen fun _ => onward).widen _
  | .index derived derived' =>
    obtain ⟨between, shows_, suffix⟩ := shows_.append
    obtain ⟨opening, after, rfl, isOpening, suffix⟩ := suffix.cons
    obtain ⟨before, inner, suffix⟩ := suffix.append
    obtain ⟨closing, rfl, isClosing⟩ := suffix.singleton
    -- Reading the operand goes on with the suffix, and reading that with what comes behind.
    have stops {level : Nat} : Stops level (closing :: tail) := stops_of_closing isClosing (by decide)
    apply derived.read shows_
    · simp only [startsWith, isOpening]
      rfl
    · rw [readSuffixes_index scope _ (by rw [isOpening]; decide) (isSymbol_iff.mpr isOpening)]
      apply Gives.widen
      apply (derived'.read inner stops (readOperators_of_stops scope stops _)).andThen
      intro _
      exact (Gives.expectSymbol isClosing).andThen fun _ => onward

theorem IsPrimary.read {tokens : List Token} {e : Expr} {text tail : List Lexeme}
    (derived : IsPrimary scope tokens e) (shows_ : Shows tokens tail text)
    (bare : startsWith .openParen tail = false) : Gives (readPrimary scope text) e tail := by
  match derived with
  | .literal stands =>
    obtain ⟨t, rfl, isLiteral⟩ := shows_.singleton
    rw [readPrimary_literal scope (isLiteral ▸ literal?_eq_some_iff.mpr stands)]
    exact (Gives.done _).widen _
  | .parameter =>
    obtain ⟨t, rfl, isName⟩ := shows_.singleton
    rw [readPrimary_name scope (by rw [isName]; rfl) (nameOf?_of_name isName) (Bool.eq_false_iff.mp bare),
      Scope.resolveName, if_pos rfl]
    exact ((Gives.done _).note rfl).widen _
  | .call known accepted derived =>
    obtain ⟨name, after, rfl, isName, others⟩ := shows_.cons
    obtain ⟨opening, after, rfl, isOpening, others⟩ := others.cons
    obtain ⟨between, inner, others⟩ := others.append
    obtain ⟨closing, rfl, isClosing⟩ := others.singleton
    rw [readPrimary_call scope (by rw [isName]; rfl) (nameOf?_of_name isName) (startsWith_cons isOpening)]
    apply Gives.widen
    apply (Gives.expectSymbol isOpening).andThen
    intro _
    apply (derived.read inner isClosing).andThen
    intro _
    have found := findFunction?_eq_some_iff.mpr ⟨known, rfl⟩
    simp only [Scope.resolveCall, found, accepted, if_true]
    exact (Gives.done _).note rfl
  | .bracketed derived =>
    obtain ⟨opening, after, rfl, isOpening, others⟩ := shows_.cons
    obtain ⟨between, inner, others⟩ := others.append
    obtain ⟨closing, rfl, isClosing⟩ := others.singleton
    have stops {level : Nat} : Stops level (closing :: tail) := stops_of_closing isClosing (by decide)
    rw [readPrimary_bracketed scope (by rw [isOpening]; rfl) (nameOf?_of_symbol isOpening) (isSymbol_iff.mpr isOpening)]
    apply Gives.widen
    apply (derived.read inner stops (readOperators_of_stops scope stops _)).andThen
    intro _
    exact (Gives.expectSymbol isClosing).map _

theorem IsArguments.read {tokens : List Token} {arguments : List Expr} {t : Lexeme} {text tail : List Lexeme}
    (derived : IsArguments scope tokens arguments) (shows_ : Shows tokens (t :: tail) text)
    (closes : t.token = .symbol .closeParen) : Gives (readArguments scope text) arguments tail := by
  match derived with
  | .none =>
    rw [shows_.nil, readArguments_none scope (startsWith_cons closes)]
    exact (Gives.expectSymbol closes).map _
  | .series derived =>
    have series := derived.read shows_ closes
    obtain ⟨first, others, rfl, other⟩ := derived.begins
    obtain ⟨u, after, rfl, rfl, _⟩ := shows_.cons
    rw [readArguments_some scope (by rwa [startsWith, isSymbol_iff])]
    apply series.andThen
    intro _
    exact (Gives.expectSymbol closes).map _

theorem IsSeries.read {tokens : List Token} {arguments : List Expr} {t : Lexeme} {text tail : List Lexeme}
    (derived : IsSeries scope tokens arguments) (shows_ : Shows tokens (t :: tail) text)
    (closes : t.token = .symbol .closeParen) :
    Gives (readMoreArguments scope text) arguments (t :: tail) := by
  match derived with
  | .last derived =>
    have stops {level : Nat} : Stops level (t :: tail) := stops_of_closing closes (by decide)
    rw [readMoreArguments]
    apply (derived.read shows_ stops (readOperators_of_stops scope stops _)).andThen
    intro _
    simp only [closes]
    exact .done _
  | .cons derived derived' =>
    obtain ⟨between, first, others⟩ := shows_.append
    obtain ⟨comma, after, rfl, isComma, others⟩ := others.cons
    have stops {level : Nat} : Stops level (comma :: after) := stops_of_closing isComma (by decide)
    rw [readMoreArguments]
    apply (derived.read first stops (readOperators_of_stops scope stops _)).andThen
    intro _
    simp only [isComma, Token.isSymbol, decide_true, if_true]
    exact ((derived'.read others closes).map _).widen _

end

/-- What is derived is read up to any token that does not go on with it. -/
theorem IsLevel.gives {level : Nat} {tokens : List Token} {e : Expr} {text tail : List Lexeme}
    (derived : IsLevel scope level tokens e) (shows_ : Shows tokens tail text) (stops : Stops level tail) :
    Gives (readLevel scope level text) e tail :=
  derived.read shows_ (stops.mono (Nat.le_succ _)) (readOperators_of_stops scope stops e)

/-- Some tokens have one derivation at most. -/
theorem IsLevel.same {level : Nat} {tokens : List Token} {e e' : Expr} (derived : IsLevel scope level tokens e)
    (derived' : IsLevel scope level tokens e') : e = e' := by
  have shows_ : Shows tokens [] (tokens.map fun token => ⟨token, ⟨0, 0⟩⟩) :=
    ⟨_, (List.append_nil _).symm, by simp [Function.comp_def]⟩
  exact (derived.gives shows_ (stops_nil level)).unique (derived'.gives shows_ (stops_nil level))

end

end Stencil.Program
