import Stencil.Proofs.Program.Grammar.Basic

/-! What is read is derived.

A reader takes tokens from the front. When it comes to a result, the tokens that it took are what the productions of the
grammar put together for the result, and the readers that go on behind something, operators and suffixes, take what
makes a longer derivation of the tokens before. This holds of whatever is closed under the productions: of the grammar
itself where nothing has been noted, and of the shape of the tokens in any case.
-/

set_option autoImplicit false

namespace Stencil.Program

/-- Where a reading comes to a result, `derived` holds of the tokens taken and the result; if `strict`, only where
nothing has been noted. -/
def Takes {α : Type} (strict : Prop) (derived : List Token → α → Prop) {tokens : List Lexeme}
    (r : Reading tokens α) : Prop :=
  ∀ a, r.outcome = .ok a → (strict → r.notes = []) → ∃ taken, Shows taken r.rest tokens ∧ derived taken a

namespace Takes

variable {α β : Type} {strict : Prop} {derived : List Token → α → Prop} {next : List Token → β → Prop}
variable {tokens : List Lexeme}

theorem done {a : α} (holds : derived [] a) : Takes strict derived (Reading.done tokens a) := by
  rintro b ⟨⟩ -
  exact ⟨[], .refl, holds⟩

theorem fail (expected : Expected) : Takes strict derived (Reading.fail tokens expected : Reading tokens α) := by
  rintro a ⟨⟩

theorem imp {other : List Token → α → Prop} {r : Reading tokens α} (takes : Takes strict derived r)
    (implies : ∀ taken a, derived taken a → other taken a) : Takes strict other r := by
  intro a outcome quiet
  obtain ⟨taken, shows_, holds⟩ := takes a outcome quiet
  exact ⟨taken, shows_, implies _ _ holds⟩

theorem behind {t : Lexeme} {r : Reading tokens α}
    (takes : Takes strict (fun taken a => derived (t.token :: taken) a) r)
    (h : tokens.length ≤ (t :: tokens).length) : Takes strict derived (r.widen h : Reading (t :: tokens) α) := by
  intro a outcome quiet
  obtain ⟨taken, shows_, holds⟩ := takes a outcome quiet
  exact ⟨t.token :: taken, (Shows.one t).trans shows_, holds⟩

theorem andThen {r : Reading tokens α} (takes : Takes strict derived r)
    {f : α → (rest : List Lexeme) → rest.length ≤ tokens.length → Reading rest β}
    (continues : ∀ a rest h taken, derived taken a →
      Takes strict (fun more b => next (taken ++ more) b) (f a rest h)) :
    Takes strict next (r.andThen f) := by
  intro b outcome quiet
  obtain ⟨a, first, second⟩ := ok_of_andThen outcome
  obtain ⟨-, notes, rest⟩ := andThen_of_ok first f
  rw [notes] at quiet
  obtain ⟨taken, shows_, holds⟩ := takes a first fun on => (List.append_eq_nil_iff.mp (quiet on)).1
  obtain ⟨more, shows', holds'⟩ :=
    continues a r.rest r.rest_le taken holds b second fun on => (List.append_eq_nil_iff.mp (quiet on)).2
  exact ⟨taken ++ more, rest ▸ shows_.trans shows', holds'⟩

theorem map {r : Reading tokens α} {f : α → β} (takes : Takes strict (fun taken a => next taken (f a)) r) :
    Takes strict next (r.map f) := by
  intro b outcome quiet
  obtain ⟨a, read, rfl⟩ := ok_of_map outcome
  exact takes a read quiet

theorem note {r : Reading tokens α} {faults : List Fault} (takes : (strict → faults = []) → Takes strict derived r) :
    Takes strict derived (r.note faults) := by
  intro a outcome quiet
  have quiet (on : strict) : r.notes = [] ∧ faults = [] := List.append_eq_nil_iff.mp (quiet on)
  exact takes (fun on => (quiet on).2) a outcome fun on => (quiet on).1

theorem expectToken {expected : Expected} {select : Lexeme → Option α}
    (holds : ∀ t a, select t = some a → derived [t.token] a) :
    Takes strict derived (expectToken expected select tokens) := by
  cases tokens with
  | nil => exact fail expected
  | cons t rest =>
    simp only [Program.expectToken]
    cases found : select t with
    | none => exact fail expected
    | some a => exact behind (done (holds t a found)) (Nat.le_succ _)

theorem expectSymbol (sign : Symbol) :
    Takes strict (fun taken _ => taken = [.symbol sign]) (expectSymbol sign tokens) := by
  refine expectToken fun t span found => ?_
  split at found
  · rename_i symbol
    rw [isSymbol_iff.mp symbol]
  · cases found

theorem expectName (expected : Expected) :
    Takes strict (fun taken name => taken = [.name name.1]) (expectName expected tokens) := by
  refine expectToken fun t name found => ?_
  rw [token_of_nameOf? found]

end Takes

/-- What may be said of the tokens that each reader takes and of the tree that they come to, closed under the
productions of the grammar. Names and calls are to be known only if `strict`. -/
structure Productions (scope : Scope) (strict : Prop) where
  level : Nat → List Token → Expr → Prop
  operand : List Token → Expr → Prop
  suffixed : List Token → Expr → Prop
  primary : List Token → Expr → Prop
  arguments : List Token → List Expr → Prop
  series : List Token → List Expr → Prop
  tightest {tokens : List Token} {e : Expr} : operand tokens e → level operandLevel tokens e
  tighter {loose : Nat} {tokens : List Token} {e : Expr} : level (loose + 1) tokens e → level loose tokens e
  binary {loose : Nat} {first second : List Token} {sign : Symbol} {op : BinaryOp} {left right : Expr} :
    (sign, op) ∈ operators loose → level loose first left → level (loose + 1) second right →
      level loose (first ++ .symbol sign :: second) (.binary op left right)
  bare {tokens : List Token} {e : Expr} : suffixed tokens e → operand tokens e
  signed {sign : Symbol} {op : UnaryOp} {tokens : List Token} {e : Expr} :
    (sign, op) ∈ prefixes → operand tokens e → operand (.symbol sign :: tokens) (.unary op e)
  plain {tokens : List Token} {e : Expr} : primary tokens e → suffixed tokens e
  member {tokens : List Token} {e : Expr} (property : String) :
    suffixed tokens e → suffixed (tokens ++ [.symbol .dot, .name property]) (.member e property)
  index {tokens inner : List Token} {e place : Expr} : suffixed tokens e → level 0 inner place →
    suffixed (tokens ++ .symbol .openBracket :: (inner ++ [.symbol .closeBracket])) (.index e place)
  literal {token : Token} {value : Json.Value} : IsLiteral token value → primary [token] (.literal value)
  name {name : String} {span : Span} : (strict → (scope.resolveName name span).2 = []) →
    primary [.name name] (scope.resolveName name span).1
  call {name : String} {span : Span} {tokens : List Token} {given : List Expr} : arguments tokens given →
    (strict → (scope.resolveCall name span given).2 = []) →
      primary (.name name :: .symbol .openParen :: (tokens ++ [.symbol .closeParen]))
        (scope.resolveCall name span given).1
  bracketed {tokens : List Token} {e : Expr} :
    level 0 tokens e → primary (.symbol .openParen :: (tokens ++ [.symbol .closeParen])) e
  none : arguments [] []
  some {tokens : List Token} {given : List Expr} : series tokens given → arguments tokens given
  last {tokens : List Token} {e : Expr} : level 0 tokens e → series tokens [e]
  cons {tokens more : List Token} {e : Expr} {others : List Expr} : level 0 tokens e → series more others →
    series (tokens ++ .symbol .comma :: more) (e :: others)

theorem Productions.readers_take {scope : Scope} {strict : Prop} (p : Productions scope strict) :
    (∀ level tokens, level ≤ operandLevel → Takes strict (p.level level) (readLevel scope level tokens)) ∧
    (∀ tokens, Takes strict p.operand (readUnary scope tokens)) ∧
    (∀ e tokens before, p.suffixed before e →
      Takes strict (fun taken => p.suffixed (before ++ taken)) (readSuffixes scope e tokens)) ∧
    (∀ tokens, Takes strict p.primary (readPrimary scope tokens)) ∧
    (∀ tokens,
      Takes strict (fun taken given => ∃ inner, taken = inner ++ [.symbol .closeParen] ∧ p.arguments inner given)
        (readArguments scope tokens)) ∧
    (∀ tokens, Takes strict p.series (readMoreArguments scope tokens)) ∧
    (∀ level left tokens before, level < operandLevel → p.level level before left →
      Takes strict (fun taken => p.level level (before ++ taken)) (readOperators scope level left tokens)) := by
  -- One case for each branch of each reader, with what is known of the readings that the branch goes on with.
  refine readLevel.mutual_induct _ _ _ _ _ _ _
    ?binary ?tightest ?noOperand ?negated ?operand ?noSuffix ?member ?index ?otherToken ?noPrimary ?literal
    ?call ?name ?bracketed ?otherPrimary ?noArguments ?arguments ?moreArguments ?noOperator ?otherOperator
    ?operator
  case binary =>
    intro level tokens below operand operators _
    rw [readLevel_binary scope tokens below]
    apply (operand below).andThen
    intro left rest h taken derived
    exact operators left rest h taken below (p.tighter derived)
  case tightest =>
    intro level tokens tightest unary le
    rw [readLevel_tightest scope tokens tightest]
    obtain rfl : level = operandLevel := Nat.le_antisymm le (Nat.le_of_not_lt tightest)
    exact unary.imp fun _ _ => p.tightest
  case noOperand =>
    rw [readUnary_nil]
    exact .fail _
  case negated =>
    intro t after op sign operand
    obtain ⟨symbol, token, known⟩ := unaryOp?_eq_some_iff.mp sign
    rw [readUnary_negated scope sign]
    apply Takes.behind
    apply Takes.map
    rw [token]
    exact operand.imp fun _ _ => p.signed known
  case operand =>
    intro t after sign primary suffixes
    rw [readUnary_operand scope sign]
    apply primary.andThen
    intro e rest h taken derived
    exact (suffixes e rest h taken (p.plain derived)).imp fun _ _ => p.bare
  case noSuffix =>
    intro e before derived
    rw [readSuffixes_nil]
    exact .done (by rwa [List.append_nil])
  case member =>
    intro e t after dot suffixes before derived
    rw [readSuffixes_member scope e dot]
    apply Takes.behind
    apply (Takes.expectName _).andThen
    rintro name rest h _ rfl
    rw [isSymbol_iff.mp dot]
    exact (suffixes name rest h _ (p.member name.1 derived)).imp fun taken _ => by simp
  case index =>
    intro e t after dot bracket index suffixes before derived
    rw [readSuffixes_index scope e dot bracket]
    apply Takes.behind
    apply (index (Nat.zero_le _)).andThen
    intro place rest h inner derived'
    apply (Takes.expectSymbol _).andThen
    rintro span rest' h' _ rfl
    rw [isSymbol_iff.mp bracket]
    exact (suffixes place rest h rest' h' _ (p.index derived derived')).imp fun taken _ => by simp
  case otherToken =>
    intro e t after dot bracket before derived
    rw [readSuffixes_other scope e dot bracket]
    exact .done (by rwa [List.append_nil])
  case noPrimary =>
    rw [readPrimary_nil]
    exact .fail _
  case literal =>
    intro t after value literal
    rw [readPrimary_literal scope literal]
    exact Takes.behind (.done (p.literal (literal?_eq_some_iff.mp literal))) _
  case call =>
    intro t after literal name span named call arguments
    rw [readPrimary_call scope literal named call]
    apply Takes.behind
    apply (Takes.expectSymbol _).andThen
    rintro opening rest h _ rfl
    apply (arguments rest h).andThen
    -- The reader of the arguments has taken the closing bracket as well.
    rintro given rest' _ _ ⟨inner, rfl, derived⟩
    apply Takes.note
    intro quiet
    rw [token_of_nameOf? named]
    exact .done (by simpa using p.call derived quiet)
  case name =>
    intro t after literal name span named call
    rw [readPrimary_name scope literal named call]
    apply Takes.behind
    apply Takes.note
    intro quiet
    rw [token_of_nameOf? named]
    exact .done (p.name quiet)
  case bracketed =>
    intro t after literal named bracket inner
    rw [readPrimary_bracketed scope literal named bracket]
    apply Takes.behind
    apply (inner (Nat.zero_le _)).andThen
    intro e rest _ taken derived
    apply Takes.map
    apply (Takes.expectSymbol _).imp
    rintro _ _ rfl
    rw [isSymbol_iff.mp bracket]
    exact p.bracketed derived
  case otherPrimary =>
    intro t after literal named bracket
    rw [readPrimary_other scope literal named bracket]
    exact .fail _
  case noArguments =>
    intro tokens empty
    rw [readArguments_none scope empty]
    apply Takes.map
    apply (Takes.expectSymbol _).imp
    rintro _ _ rfl
    exact ⟨[], rfl, p.none⟩
  case arguments =>
    intro tokens some_ arguments
    rw [readArguments_some scope some_]
    apply arguments.andThen
    intro given rest _ taken derived
    apply Takes.map
    apply (Takes.expectSymbol _).imp
    rintro _ _ rfl
    exact ⟨taken, rfl, p.some derived⟩
  case moreArguments =>
    intro tokens first more
    rw [readMoreArguments.eq_def]
    apply (first (Nat.zero_le _)).andThen
    intro e rest h taken derived
    have last : Takes strict (fun more => p.series (taken ++ more)) (Reading.done rest [e]) :=
      .done (by rw [List.append_nil]; exact p.last derived)
    cases rest with
    | nil => exact last
    | cons t after =>
      by_cases comma : t.token.isSymbol .comma
      · simp only [comma, if_true]
        apply Takes.behind
        apply Takes.map
        rw [isSymbol_iff.mp comma]
        exact (more t after h).imp fun _ _ => p.cons derived
      · simp only [comma]
        exact last
  case noOperator =>
    intro level left before _ derived
    rw [readOperators_nil]
    exact .done (by rwa [List.append_nil])
  case otherOperator =>
    intro level left t after none before _ derived
    rw [readOperators_other scope left none]
    exact .done (by rwa [List.append_nil])
  case operator =>
    intro level left t after op sign operand operators before below derived
    obtain ⟨symbol, token, known⟩ := binaryOp?_eq_some_iff.mp sign
    rw [readOperators_operator scope left sign]
    apply Takes.behind
    apply (operand below).andThen
    intro right rest h taken derived'
    rw [token]
    exact (operators right rest h _ below (p.binary known derived derived')).imp fun more _ => by simp

section

variable (scope : Scope)

theorem takes_resolveName {name : String} {span : Span} (none : (scope.resolveName name span).2 = []) :
    IsPrimary scope [.name name] (scope.resolveName name span).1 := by
  unfold Scope.resolveName at none ⊢
  split at none
  · rename_i same
    rw [if_pos same, same]
    exact .parameter
  · cases none

theorem takes_resolveCall {name : String} {span : Span} {tokens : List Token} {arguments : List Expr}
    (derived : IsArguments scope tokens arguments) (none : (scope.resolveCall name span arguments).2 = []) :
    IsPrimary scope (.name name :: .symbol .openParen :: (tokens ++ [.symbol .closeParen]))
      (scope.resolveCall name span arguments).1 := by
  unfold Scope.resolveCall at none ⊢
  split at none
  · rename_i f found
    obtain ⟨known, rfl⟩ := findFunction?_eq_some_iff.mp found
    split at none
    · rename_i accepted
      simp only [accepted, if_true]
      exact .call known accepted derived
    · cases none
  · cases none

/-- The grammar itself, where names and calls are known. -/
def grammar : Productions scope True where
  level := IsLevel scope
  operand := IsUnary scope
  suffixed := IsPostfix scope
  primary := IsPrimary scope
  arguments := IsArguments scope
  series := IsSeries scope
  tightest := .unary
  tighter := .tighter
  binary := .binary
  bare := .operand
  signed := .signed
  plain := .primary
  member property := .member property
  index := .index
  literal := .literal
  name quiet := takes_resolveName scope (quiet trivial)
  call derived quiet := takes_resolveCall scope derived (quiet trivial)
  bracketed := .bracketed
  none := .none
  some := .series
  last := .last
  cons := .cons

theorem readExpr_takes (tokens : List Lexeme) (e : Expr) (rest : List Lexeme)
    (gives : Gives (readExpr scope tokens) e rest) :
    ∃ taken, Shows taken rest tokens ∧ IsLevel scope 0 taken e := by
  obtain ⟨outcome, notes, rfl⟩ := gives
  exact (grammar scope).readers_take.1 0 tokens (Nat.zero_le _) e outcome fun _ => notes

end

end Stencil.Program
