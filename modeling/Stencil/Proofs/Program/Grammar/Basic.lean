import Stencil.Program.Declarations
import Stencil.Proofs.Program.Reading

/-! The grammar of programs.

The tokens of a program are derived without regard to how they are read. Binary operators come in six levels; an
operator of a level takes what the level derives on its left and what the next tighter one derives on its right, so
that operators of one level group to the left. Every derivation comes with its tree.
-/

set_option autoImplicit false

namespace Stencil.Program

/-- The binary operators of a level and their signs, the loosest level first. -/
def operators : Nat → List (Symbol × BinaryOp)
  | 0 => [(.either, .either)]
  | 1 => [(.both, .both)]
  | 2 => [(.equal, .equal), (.unequal, .unequal)]
  | 3 => [(.less, .less), (.lessEqual, .lessEqual), (.greater, .greater), (.greaterEqual, .greaterEqual)]
  | 4 => [(.plus, .add), (.minus, .subtract)]
  | 5 => [(.star, .multiply), (.slash, .divide), (.percent, .remainder)]
  | _ => []

def prefixes : List (Symbol × UnaryOp) := [(.bang, .not), (.minus, .negate)]

inductive IsLiteral : Token → Json.Value → Prop
  | integer (n : Nat) : IsLiteral (.integer n) (.ofInt n)
  | float (x : Float) : IsLiteral (.float x) (.ofFloat x)
  | string (s : String) : IsLiteral (.string s) (.string s)
  | yes : IsLiteral (.keyword .yes) (.bool true)
  | no : IsLiteral (.keyword .no) (.bool false)
  | null : IsLiteral (.keyword .null) .null

section
variable (scope : Scope)

mutual

/-- Some tokens are an expression whose outer binary operators are of a level or tighter. -/
inductive IsLevel : Nat → List Token → Expr → Prop
  | unary {tokens : List Token} {e : Expr} (derived : IsUnary tokens e) : IsLevel 6 tokens e
  | tighter {level : Nat} {tokens : List Token} {e : Expr} (derived : IsLevel (level + 1) tokens e) :
    IsLevel level tokens e
  | binary {level : Nat} {first second : List Token} {sign : Symbol} {op : BinaryOp} {left right : Expr}
    (known : (sign, op) ∈ operators level) (derived : IsLevel level first left)
    (derived' : IsLevel (level + 1) second right) :
    IsLevel level (first ++ .symbol sign :: second) (.binary op left right)

inductive IsUnary : List Token → Expr → Prop
  | operand {tokens : List Token} {e : Expr} (derived : IsPostfix tokens e) : IsUnary tokens e
  | signed {sign : Symbol} {op : UnaryOp} {tokens : List Token} {e : Expr} (known : (sign, op) ∈ prefixes)
    (derived : IsUnary tokens e) : IsUnary (.symbol sign :: tokens) (.unary op e)

inductive IsPostfix : List Token → Expr → Prop
  | primary {tokens : List Token} {e : Expr} (derived : IsPrimary tokens e) : IsPostfix tokens e
  | member {tokens : List Token} {e : Expr} (property : String) (derived : IsPostfix tokens e) :
    IsPostfix (tokens ++ [.symbol .dot, .name property]) (.member e property)
  | index {tokens inner : List Token} {e place : Expr} (derived : IsPostfix tokens e)
    (derived' : IsLevel 0 inner place) :
    IsPostfix (tokens ++ .symbol .openBracket :: (inner ++ [.symbol .closeBracket])) (.index e place)

/-- A literal, the parameter, a call of a known function or an expression in brackets. -/
inductive IsPrimary : List Token → Expr → Prop
  | literal {token : Token} {value : Json.Value} (stands : IsLiteral token value) :
    IsPrimary [token] (.literal value)
  | parameter : IsPrimary [.name scope.parameter] .model
  | call {f : Function} {tokens : List Token} {arguments : List Expr} (known : f ∈ scope.functions)
    (accepted : f.accepts arguments.length) (derived : IsArguments tokens arguments) :
    IsPrimary (.name f.name :: .symbol .openParen :: (tokens ++ [.symbol .closeParen])) (.call f arguments)
  | bracketed {tokens : List Token} {e : Expr} (derived : IsLevel 0 tokens e) :
    IsPrimary (.symbol .openParen :: (tokens ++ [.symbol .closeParen])) e

inductive IsArguments : List Token → List Expr → Prop
  | none : IsArguments [] []
  | series {tokens : List Token} {arguments : List Expr} (derived : IsSeries tokens arguments) :
    IsArguments tokens arguments

inductive IsSeries : List Token → List Expr → Prop
  | last {tokens : List Token} {e : Expr} (derived : IsLevel 0 tokens e) : IsSeries tokens [e]
  | cons {tokens more : List Token} {e : Expr} {others : List Expr} (derived : IsLevel 0 tokens e)
    (derived' : IsSeries more others) : IsSeries (tokens ++ .symbol .comma :: more) (e :: others)

end

end

theorem IsUnary.level {scope : Scope} {level : Nat} {tokens : List Token} {e : Expr} (derived : IsUnary scope tokens e)
    (le : level ≤ operandLevel) : IsLevel scope level tokens e := by
  obtain ⟨tighter, sum⟩ := Nat.exists_eq_add_of_le le
  induction tighter generalizing level with
  | zero =>
    obtain rfl : level = 6 := sum.symm
    exact .unary derived
  | succ tighter ih => exact .tighter (ih (by omega) (by omega))

theorem IsLevel.eq_parameter {scope : Scope} {level : Nat} {tokens : List Token} {e : Expr} {name : String}
    (derived : IsLevel scope level tokens e) (single : tokens = [.name name]) : name = scope.parameter := by
  match derived with
  | .tighter derived => exact derived.eq_parameter single
  | .binary _ _ _ => simp [List.append_eq_singleton_iff] at single
  | .unary derived =>
    cases derived with
    | signed => cases single
    | operand derived =>
      cases derived with
      | member => simp [List.append_eq_singleton_iff] at single
      | index => simp [List.append_eq_singleton_iff] at single
      | primary derived =>
        cases derived with
        | parameter =>
          cases single
          rfl
        | literal stands =>
          cases single
          cases stands
        | call => cases single
        | bracketed => cases single

/-- Some lexemes are a function: its head and, between braces, an expression over its parameter. -/
inductive IsFunction (functions : List Function) : List Lexeme → Declaration → Prop
  | mk {fn : Lexeme} {head body : List Lexeme} {closing : Lexeme} {name parameter : String} {kind : ReturnKind}
    {e : Expr}
    (heads : (fn :: head).map Lexeme.token = [.keyword .fn, .name name, .symbol .openParen, .name parameter,
      .symbol .closeParen, .symbol .arrow, .name kind.keyword, .symbol .openBrace])
    (derived : IsLevel { parameter, functions } 0 (body.map Lexeme.token) e)
    (closes : closing.token = .symbol .closeBrace) :
    IsFunction functions (fn :: (head ++ (body ++ [closing])))
      { name, kind, body := e, span := ⟨fn.span.start, closing.span.stop⟩ }

inductive IsProgram (functions : List Function) : List Lexeme → List Declaration → Prop
  | nil : IsProgram functions [] []
  | cons {first rest : List Lexeme} {d : Declaration} {declarations : List Declaration}
    (derived : IsFunction functions first d) (derived' : IsProgram functions rest declarations) :
    IsProgram functions (first ++ rest) (d :: declarations)

/-! ### The tables of the grammar and those of the readers -/

theorem sign_level_of_mem_operators (level : Nat) :
    ∀ entry ∈ operators level, entry.2.sign = entry.1 ∧ entry.2.level = level := by
  unfold operators
  split <;> simp [BinaryOp.sign, BinaryOp.level]

theorem mem_operators_iff {level : Nat} {sign : Symbol} {op : BinaryOp} :
    (sign, op) ∈ operators level ↔ op.sign = sign ∧ op.level = level := by
  constructor
  · exact sign_level_of_mem_operators level (sign, op)
  · rintro ⟨rfl, rfl⟩
    cases op <;> simp [operators, BinaryOp.sign, BinaryOp.level]

theorem BinaryOp.ofSymbol?_eq_some_iff {sign : Symbol} {op : BinaryOp} :
    BinaryOp.ofSymbol? sign = some op ↔ op.sign = sign := by
  constructor
  · intro found
    simpa using List.find?_some found
  · rintro rfl
    cases op <;> rfl

theorem binaryOp?_eq_some_iff {level : Nat} {token : Token} {op : BinaryOp} :
    binaryOp? level token = some op ↔ ∃ sign, token = .symbol sign ∧ (sign, op) ∈ operators level := by
  cases token with
  | symbol sign =>
    simp only [binaryOp?, Option.filter_eq_some_iff, BinaryOp.ofSymbol?_eq_some_iff, decide_eq_true_eq,
      Token.symbol.injEq, exists_eq_left', mem_operators_iff]
  | _ => simp [binaryOp?]

theorem unaryOp?_eq_some_iff {token : Token} {op : UnaryOp} :
    unaryOp? token = some op ↔ ∃ sign, token = .symbol sign ∧ (sign, op) ∈ prefixes := by
  cases token with
  | symbol sign => cases sign <;> cases op <;> simp [unaryOp?, UnaryOp.ofSymbol?, prefixes]
  | _ => simp [unaryOp?]

theorem literal?_eq_some_iff {token : Token} {value : Json.Value} :
    literal? token = some value ↔ IsLiteral token value := by
  constructor
  · intro stands
    unfold literal? at stands
    split at stands <;> cases stands <;> constructor
  · intro stands
    cases stands <;> rfl

theorem findFunction?_eq_some_iff {functions : List Function} {name : String} {f : Function} :
    findFunction? functions name = some f ↔ f ∈ functions ∧ f.name = name := by
  constructor
  · intro found
    exact ⟨List.mem_of_find?_eq_some found, name_of_findFunction? found⟩
  · rintro ⟨known, rfl⟩
    -- No two functions have the same name, so that the first one of the name is `f`.
    cases found : findFunction? functions f.name with
    | none =>
      have other := List.find?_eq_none.mp found f known
      simp at other
    | some g =>
      have same := name_of_findFunction? found
      cases f <;> cases g <;> first | rfl | simp [Function.name] at same

theorem kindOfWord?_eq_some_iff {word : String} {kind : ReturnKind} :
    kindOfWord? word = some kind ↔ word = kind.keyword := by
  unfold kindOfWord?
  cases kind with
  | text =>
    by_cases text : word = "text" <;> simp [text, ReturnKind.keyword]
  | boolean =>
    by_cases text : word = "text"
    · simp [text, ReturnKind.keyword]
    · simp [text, ReturnKind.keyword]

/-! ### Readings without a fault -/

structure Gives {α : Type} {tokens : List Lexeme} (r : Reading tokens α) (a : α) (rest : List Lexeme) : Prop where
  outcome : r.outcome = .ok a
  notes : r.notes = []
  rest : r.rest = rest

namespace Gives

variable {α β : Type} {tokens rest last : List Lexeme} {a : α} {b : β}

theorem unique {r : Reading tokens α} {a' : α} (gives : Gives r a rest) (gives' : Gives r a' last) : a = a' := by
  have same := gives.outcome.symm.trans gives'.outcome
  cases same
  rfl

theorem done (a : α) : Gives (Reading.done tokens a) a tokens := ⟨rfl, rfl, rfl⟩

theorem andThen {r : Reading tokens α} (gives : Gives r a rest)
    {f : α → (rest : List Lexeme) → rest.length ≤ tokens.length → Reading rest β}
    (continues : ∀ h, Gives (f a rest h) b last) : Gives (r.andThen f) b last := by
  obtain ⟨outcome, notes, rfl⟩ := gives
  obtain ⟨outcome', notes', rest'⟩ := andThen_of_ok outcome f
  have further := continues r.rest_le
  exact ⟨outcome'.trans further.outcome, by rw [notes', notes, further.notes, List.append_nil],
    rest'.trans further.rest⟩

theorem of_andThen {r : Reading tokens α} {f : α → (rest : List Lexeme) → rest.length ≤ tokens.length → Reading rest β}
    (gives : Gives (r.andThen f) b last) : ∃ a rest h, Gives r a rest ∧ Gives (f a rest h) b last := by
  cases outcome : r.outcome with
  | error fault =>
    have broken := gives.outcome
    simp [Reading.andThen, outcome] at broken
  | ok a =>
    obtain ⟨outcome', notes', rest'⟩ := andThen_of_ok outcome f
    obtain ⟨none, none'⟩ := List.append_eq_nil_iff.mp (notes'.symm.trans gives.notes)
    exact ⟨a, r.rest, r.rest_le, ⟨outcome, none, rfl⟩, outcome'.symm.trans gives.outcome, none',
      rest'.symm.trans gives.rest⟩

theorem map {r : Reading tokens α} (gives : Gives r a rest) (f : α → β) : Gives (r.map f) (f a) rest := by
  obtain ⟨rNotes, rOutcome, rRest, rLe⟩ := r
  obtain ⟨outcome, notes, same⟩ := gives
  cases outcome
  exact ⟨rfl, notes, same⟩

theorem of_map {r : Reading tokens α} {f : α → β} (gives : Gives (r.map f) b rest) :
    ∃ a, f a = b ∧ Gives r a rest := by
  obtain ⟨rNotes, rOutcome, rRest, rLe⟩ := r
  obtain ⟨outcome, notes, same⟩ := gives
  cases rOutcome with
  | error fault => cases outcome
  | ok a =>
    cases outcome
    exact ⟨a, rfl, rfl, notes, same⟩

theorem widen {more : List Lexeme} {r : Reading tokens α} (gives : Gives r a rest)
    (h : tokens.length ≤ more.length) : Gives (r.widen h) a rest :=
  ⟨gives.outcome, gives.notes, gives.rest⟩

theorem note {r : Reading tokens α} (gives : Gives r a rest) {faults : List Fault} (none : faults = []) :
    Gives (r.note faults) a rest :=
  ⟨gives.outcome, by rw [none]; exact (List.append_nil _).trans gives.notes, gives.rest⟩

theorem of_expectToken {expected : Expected} {select : Lexeme → Option α}
    (gives : Gives (expectToken expected select tokens) a rest) : ∃ t, tokens = t :: rest ∧ select t = some a := by
  cases tokens with
  | nil => cases gives.outcome
  | cons t after =>
    cases found : select t with
    | none =>
      have outcome := gives.outcome
      simp only [expectToken, found] at outcome
      cases outcome
    | some b =>
      simp only [expectToken, found] at gives
      obtain ⟨⟨⟩, -, rfl⟩ := gives
      exact ⟨t, rfl, found⟩

theorem of_expectSymbol {sign : Symbol} {span : Span} (gives : Gives (Program.expectSymbol sign tokens) span rest) :
    ∃ t, tokens = t :: rest ∧ t.token = .symbol sign ∧ t.span = span := by
  obtain ⟨t, same, found⟩ := of_expectToken gives
  split at found
  · rename_i symbol
    cases found
    exact ⟨t, same, isSymbol_iff.mp symbol, rfl⟩
  · cases found

theorem of_expectName {expected : Expected} {name : String} {span : Span}
    (gives : Gives (Program.expectName expected tokens) (name, span) rest) :
    ∃ t, tokens = t :: rest ∧ t.token = .name name := by
  obtain ⟨t, same, found⟩ := of_expectToken gives
  exact ⟨t, same, token_of_nameOf? found⟩

theorem expectSymbol {t : Lexeme} {sign : Symbol} (token : t.token = .symbol sign) :
    Gives (expectSymbol sign (t :: tokens)) t.span tokens := by
  simp only [Program.expectSymbol, expectToken, token, Token.isSymbol, decide_true, if_true]
  exact ⟨rfl, rfl, rfl⟩

theorem expectName {t : Lexeme} {name : String} (expected : Expected) (token : t.token = .name name) :
    Gives (expectName expected (t :: tokens)) (name, t.span) tokens := by
  simp only [Program.expectName, expectToken, nameOf?, token]
  exact ⟨rfl, rfl, rfl⟩

end Gives

def Shows (tokens : List Token) (tail text : List Lexeme) : Prop :=
  ∃ front, text = front ++ tail ∧ front.map Lexeme.token = tokens

section

variable {tail text : List Lexeme} {first second : List Token}

theorem Shows.nil (shows_ : Shows [] tail text) : text = tail := by
  obtain ⟨front, rfl, none⟩ := shows_
  rw [List.map_eq_nil_iff.mp none, List.nil_append]

theorem Shows.one (t : Lexeme) : Shows [t.token] tail (t :: tail) := ⟨[t], rfl, rfl⟩

theorem Shows.refl : Shows [] tail tail := ⟨[], rfl, rfl⟩

theorem Shows.trans {between : List Lexeme} (before : Shows first between text) (after : Shows second tail between) :
    Shows (first ++ second) tail text := by
  obtain ⟨front, rfl, rfl⟩ := before
  obtain ⟨front', rfl, rfl⟩ := after
  exact ⟨front ++ front', (List.append_assoc ..).symm, List.map_append⟩

theorem Shows.append (shows_ : Shows (first ++ second) tail text) :
    ∃ between, Shows first between text ∧ Shows second tail between := by
  obtain ⟨front, rfl, same⟩ := shows_
  obtain ⟨before, after, rfl, same, same'⟩ := List.map_eq_append_iff.mp same
  exact ⟨after ++ tail, ⟨before, List.append_assoc .., same⟩, after, rfl, same'⟩

theorem Shows.cons {token : Token} (shows_ : Shows (token :: second) tail text) :
    ∃ t after, text = t :: after ∧ t.token = token ∧ Shows second tail after := by
  obtain ⟨front, rfl, same⟩ := shows_
  obtain ⟨t, after, rfl, same, same'⟩ := List.map_eq_cons_iff.mp same
  exact ⟨t, after ++ tail, rfl, same, after, rfl, same'⟩

theorem Shows.singleton {token : Token} (shows_ : Shows [token] tail text) :
    ∃ t, text = t :: tail ∧ t.token = token := by
  obtain ⟨t, after, rfl, same, rest⟩ := shows_.cons
  exact ⟨t, by rw [rest.nil], same⟩

end

end Stencil.Program
