import Stencil.Program.Trapping
import Stencil.Proofs.Evaluation.Access
import Stencil.Proofs.Program.Grammar.Program

/-! Accepted programs run without a trap.

The reader of a program gives a call only the numbers of arguments that its function takes. The evaluation looks at
divisors and positions itself, and leaves integers that overflow to the doubles.
-/

set_option autoImplicit false

namespace Stencil.Program

open Json (Value Number)
open Attempt (settled bare)

/-! ### Calls in an expression -/

mutual

/-- Every call in an expression has a number of arguments that its function takes. -/
def Expr.IsCounted : Expr → Prop
  | .literal _ | .model => True
  | .member object _ => object.IsCounted
  | .index object index => object.IsCounted ∧ index.IsCounted
  | .call f arguments => f.accepts arguments.length ∧ AllCounted arguments
  | .unary _ operand => operand.IsCounted
  | .binary _ left right => left.IsCounted ∧ right.IsCounted

def AllCounted : List Expr → Prop
  | [] => True
  | e :: rest => e.IsCounted ∧ AllCounted rest

end

section

variable {scope : Scope}

mutual

theorem IsLevel.isCounted {level : Nat} {tokens : List Token} {e : Expr} :
    IsLevel scope level tokens e → e.IsCounted
  | .unary derived => derived.isCounted
  | .tighter derived => derived.isCounted
  | .binary _ derived derived' => by
    rw [Expr.IsCounted]
    exact ⟨derived.isCounted, derived'.isCounted⟩

theorem IsUnary.isCounted {tokens : List Token} {e : Expr} : IsUnary scope tokens e → e.IsCounted
  | .operand derived => derived.isCounted
  | .signed _ derived => by
    rw [Expr.IsCounted]
    exact derived.isCounted

theorem IsPostfix.isCounted {tokens : List Token} {e : Expr} : IsPostfix scope tokens e → e.IsCounted
  | .primary derived => derived.isCounted
  | .member _ derived => by
    rw [Expr.IsCounted]
    exact derived.isCounted
  | .index derived derived' => by
    rw [Expr.IsCounted]
    exact ⟨derived.isCounted, derived'.isCounted⟩

theorem IsPrimary.isCounted {tokens : List Token} {e : Expr} : IsPrimary scope tokens e → e.IsCounted
  | .literal _ => by
    rw [Expr.IsCounted]
    trivial
  | .parameter => by
    rw [Expr.IsCounted]
    trivial
  | .call _ accepted derived => by
    rw [Expr.IsCounted]
    exact ⟨accepted, derived.allCounted⟩
  | .bracketed derived => derived.isCounted

theorem IsArguments.allCounted {tokens : List Token} {arguments : List Expr} :
    IsArguments scope tokens arguments → AllCounted arguments
  | .none => trivial
  | .series derived => derived.allCounted

theorem IsSeries.allCounted {tokens : List Token} {arguments : List Expr} :
    IsSeries scope tokens arguments → AllCounted arguments
  | .last derived => ⟨derived.isCounted, trivial⟩
  | .cons derived derived' => ⟨derived.isCounted, derived'.allCounted⟩

end

theorem IsProgram.isCounted {functions : List Function} {lexemes : List Lexeme} {declarations : List Declaration}
    (derived : IsProgram functions lexemes declarations) : ∀ d ∈ declarations, d.body.IsCounted := by
  induction derived with
  | nil => simp
  | cons function _ ih =>
    rw [List.forall_mem_cons]
    refine ⟨?_, ih⟩
    cases function with
    | mk _ derived _ => exact derived.isCounted

end

/-! ### Attempts that do not trap -/

/-- A result that no number of arguments is to blame for. -/
def IsProper {α : Type} (result : Except EvalError α) : Prop := ∀ f given, result ≠ .error (.argumentCount f given)

structure Settles {α : Type} (x : Attempt α) (result : Except EvalError α) : Prop where
  same : x = settled result
  proper : IsProper result

section

variable {α β : Type}

theorem isProper_ok (a : α) : IsProper (.ok a) := fun _ _ same => by cases same

theorem settles_pure (a : α) : Settles (pure a) (.ok a) := ⟨rfl, isProper_ok a⟩

theorem settles_settled {result : Except EvalError α} (proper : IsProper result) : Settles (settled result) result :=
  ⟨rfl, proper⟩

theorem Settles.bind_of_ok {x : Attempt α} {result : Except EvalError α} {f : α → Attempt β}
    {g : α → Except EvalError β} (settles : Settles x result) (next : ∀ a, result = .ok a → Settles (f a) (g a)) :
    Settles (x >>= f) (result >>= g) := by
  obtain ⟨rfl, proper⟩ := settles
  cases result with
  | ok a => exact next a rfl
  | error e => exact ⟨rfl, fun f given same => proper f given (by cases same; rfl)⟩

theorem Settles.bind {x : Attempt α} {result : Except EvalError α} {f : α → Attempt β} {g : α → Except EvalError β}
    (settles : Settles x result) (next : ∀ a, Settles (f a) (g a)) : Settles (x >>= f) (result >>= g) :=
  settles.bind_of_ok fun a _ => next a

theorem Settles.map {x : Attempt α} {result : Except EvalError α} (settles : Settles x result) (f : α → β) :
    Settles (x >>= fun a => pure (f a)) (result.map f) := by
  have same : result.map f = result >>= fun a => .ok (f a) := by cases result <;> rfl
  rw [same]
  exact settles.bind fun a => settles_pure (f a)

theorem settles_bare {x : Except Trap α} {a : α} (runs : x = .ok a) : Settles (bare x) (.ok a) := by
  rw [runs]
  exact settles_pure a

end

/-! ### Single operations -/

theorem isProper_expectBool (value : Value) : IsProper (expectBool value) := by
  intro f given
  cases value <;> simp [expectBool]

theorem isProper_member (target : Held) (property : String) : IsProper (target.member property) := by
  intro f given
  unfold Held.member
  split <;> try split
  all_goals simp

theorem isProper_index (target : Held) (index : Value) : IsProper (target.index index) := by
  intro f given
  unfold Held.index
  split <;> try split
  all_goals first | exact isProper_member _ _ f given | simp

theorem isProper_floatArithmetic (op : BinaryOp) (x y : Float) : IsProper (floatArithmetic op x y) := by
  intro f given
  unfold floatArithmetic
  split <;> simp

theorem held_eq (n : Int) : checked ((held n).map some) = .ok ((some n).filter inRange) := by
  rw [held]
  by_cases fits : inRange n <;> simp [fits, Except.map, checked, Option.filter_some]

theorem checked_integerOp {op : BinaryOp} {a b : Int} (divisor : ¬(isDivision op && b = 0) = true) :
    checked (integerOp op a b) = .ok ((exact op a b).filter inRange) := by
  have nonzero (division : isDivision op = true) : b ≠ 0 := by simpa [division] using divisor
  cases op with
  | add | subtract | multiply => exact held_eq _
  | divide =>
    rw [integerOp, if_neg (nonzero rfl)]
    exact held_eq _
  | remainder =>
    -- The remainder that traps is the one that has no exact result either.
    rw [integerOp, if_neg (nonzero rfl), exact]
    split
    · rfl
    · exact held_eq _
  | _ => rfl

theorem settles_arithmetic (op : BinaryOp) (a b : Num) : Settles (attemptArithmetic op a b) (arithmetic op a b) := by
  cases a with
  | int m =>
    cases b with
    | int n =>
      rw [attemptArithmetic, arithmetic]
      split
      · exact settles_settled (by simp [IsProper])
      next divisor =>
        rw [checked_integerOp divisor]
        cases (exact op m n).filter inRange with
        | some result => exact settles_pure _
        | none => exact settles_settled (isProper_floatArithmetic _ _ _)
    | float y => exact settles_settled (isProper_floatArithmetic _ _ _)
  | float x => cases b <;> exact settles_settled (isProper_floatArithmetic _ _ _)

theorem isProper_compare {op : BinaryOp} {a b : Value} :
    IsProper (match compareValues? a b with
      | some order => .ok (Value.bool (satisfies op order))
      | none => .error (.invalidOperands op a.kind b.kind)) := by
  intro f given
  split <;> simp

theorem settles_binary (op : BinaryOp) (a b : Value) : Settles (attemptBinary op a b) (applyBinary op a b) := by
  have invalid (op : BinaryOp) :
      Settles (settled (.error (.invalidOperands op a.kind b.kind)) : Attempt Value)
        (.error (.invalidOperands op a.kind b.kind)) :=
    settles_settled (by simp [IsProper])
  cases op with
  | add =>
    simp only [attemptBinary, applyBinary]
    split
    · exact settles_pure _
    · rcases Num.ofValue? a with _ | x
      · exact invalid _
      · rcases Num.ofValue? b with _ | y
        · exact invalid _
        · exact settles_arithmetic _ x y
  | subtract | multiply | divide | remainder =>
    simp only [attemptBinary, applyBinary]
    rcases Num.ofValue? a with _ | x
    · exact invalid _
    · rcases Num.ofValue? b with _ | y
      · exact invalid _
      · exact settles_arithmetic _ x y
  | equal | unequal => exact settles_pure _
  | less | lessEqual | greater | greaterEqual => exact settles_settled isProper_compare
  | both | either => exact settles_settled (by simp [IsProper, applyBinary])

theorem settles_unary (op : UnaryOp) (value : Value) : Settles (attemptUnary op value) (applyUnary op value) := by
  have other : IsProper (applyUnary op value) := by
    intro f given
    cases op with
    | not => cases value <;> simp [applyUnary, expectBool, Except.map]
    | negate =>
      rw [applyUnary, negate]
      split <;> simp
  unfold attemptUnary
  split
  next n number =>
    rw [held_eq, applyUnary, negate, number]
    by_cases fits : inRange (-n) <;> simp only [fits, Option.filter_some]
    · exact settles_pure _
    · exact settles_pure _
  next => exact settles_settled other

theorem positionBelow_eq (n : Number) (length : Nat) :
    positionBelow n length = (positionIn n length).map (Option.map Fin.val) := by
  rw [positionBelow, positionIn]
  cases n.asInt? with
  | none => rfl
  | some i =>
    dsimp only
    split
    all_goals simp [Except.map]

theorem itemOf_eq {α : Type} {items : List α} (position : Fin items.length) :
    itemOf items position.val = .ok (items.get position) := by
  rw [itemOf, List.getElem?_eq_getElem position.isLt]
  rfl

theorem swapRemoveAt_eq {items : List Value} (position : Fin items.length) :
    swapRemoveAt items position.val = .ok (swapRemove items position) := by
  rw [swapRemoveAt, dif_pos position.isLt]

/-- A position is looked at before the item there is read or taken out. -/
theorem settles_index (target : Held) (index : Value) : Settles (target.attemptIndex index) (target.index index) := by
  unfold Held.attemptIndex
  split
  next items n =>
    rw [positionBelow_eq, Held.index]
    obtain error | (_ | position) := positionIn n items.length
    · exact settles_settled (by simp [IsProper])
    · exact settles_pure _
    · exact settles_bare (congrArg (Except.map Held.borrowed) (itemOf_eq position))
  next items n =>
    rw [positionBelow_eq, Held.index]
    obtain error | (_ | position) := positionIn n items.length
    · exact settles_settled (by simp [IsProper])
    · exact settles_pure _
    · exact settles_bare (congrArg (Except.map fun taken => Held.owned taken.1) (swapRemoveAt_eq position))
  next => exact settles_settled (isProper_index _ _)

theorem isProper_lengthOf (value : Value) : IsProper (lengthOf value) := by
  intro f given
  cases value <;> simp [lengthOf]

theorem isProper_joined (separator : String) (value : Value) : IsProper (joined separator value) := by
  intro f given
  cases value <;> simp [joined]

theorem isProper_holds (needle value : Value) : IsProper (holds needle value) := by
  intro f given
  cases value <;> simp [holds]

theorem settles_call {f : Function} {arguments : List Value} (counted : f.accepts arguments.length) :
    Settles (f.attempt arguments) (f.call arguments) := by
  match arguments with
  | [] => cases f <;> cases counted
  | [value] =>
    cases f with
    | len => exact settles_settled (isProper_lengthOf value)
    | join => exact settles_settled (isProper_joined "" value)
    | upper | lower | trim | string => exact settles_pure _
    | contains | default => cases counted
  | [value, other] =>
    cases f with
    | join => exact settles_settled (isProper_joined _ value)
    | contains => exact settles_settled (isProper_holds other value)
    | default =>
      cases value with
      | string s =>
        have kept : Settles (if s = "" then pure other else pure (.string s))
            (.ok (if s = "" then other else .string s)) := by
          split <;> exact settles_pure _
        exact kept
      | _ => exact settles_pure _
    | len | upper | lower | trim | string => cases counted
  | _ :: _ :: _ :: rest =>
    -- No function takes three arguments.
    simp only [Function.accepts, List.length_cons, Bool.and_eq_true, decide_eq_true_eq] at counted
    have most : f.most ≤ 2 := by cases f <;> decide
    omega

/-! ### Whole expressions -/

theorem length_resolveAll {model : Value} {es : List Expr} {values : List Value}
    (resolved : resolveAll model es = .ok values) : values.length = es.length := by
  induction es generalizing values with
  | nil =>
    cases resolved
    rfl
  | cons e rest ih =>
    rw [resolveAll] at resolved
    cases head : resolve model e with
    | error error =>
      rw [head] at resolved
      cases resolved
    | ok held =>
      cases tail : resolveAll model rest with
      | error error =>
        rw [head, tail] at resolved
        cases resolved
      | ok others =>
        rw [head, tail] at resolved
        cases resolved
        exact congrArg (· + 1) (ih tail)

mutual

theorem settles_attempt (model : Value) : ∀ e : Expr, e.IsCounted → Settles (attempt model e) (resolve model e)
  | .literal value, _ => by
    rw [attempt, resolve]
    exact settles_pure _
  | .model, _ => by
    rw [attempt, resolve]
    exact settles_pure _
  | .member object property, counted => by
    rw [Expr.IsCounted] at counted
    rw [attempt, resolve]
    exact (settles_attempt model object counted).bind fun target => settles_settled (isProper_member target property)
  | .index object index, counted => by
    rw [Expr.IsCounted] at counted
    rw [attempt, resolve]
    refine (settles_attempt model object counted.1).bind fun target => ?_
    exact (settles_attempt model index counted.2).bind fun index => settles_index target index.value
  | .call f arguments, counted => by
    rw [Expr.IsCounted] at counted
    rw [attempt, resolve]
    -- There are as many values as arguments, and those have been counted.
    refine (settles_attemptAll model arguments counted.2).bind_of_ok fun values resolved => ?_
    refine (settles_call ?_).map Held.owned
    rw [length_resolveAll resolved]
    exact counted.1
  | .unary op operand, counted => by
    rw [Expr.IsCounted] at counted
    rw [attempt, resolve]
    exact (settles_attempt model operand counted).bind fun held => (settles_unary op held.value).map Held.owned
  | .binary op left right, counted => by
    rw [Expr.IsCounted] at counted
    have first := settles_attempt model left counted.1
    have second := settles_attempt model right counted.2
    have truth (held : Held) : Settles (settled (expectBool held.value)) (expectBool held.value) :=
      settles_settled (isProper_expectBool held.value)
    cases op with
    | both =>
      rw [attempt, resolve]
      refine first.bind fun a => (truth a).bind fun holds => ?_
      cases holds with
      | true => exact second.bind fun b => (truth b).bind fun _ => settles_pure _
      | false => exact settles_pure _
    | either =>
      rw [attempt, resolve]
      refine first.bind fun a => (truth a).bind fun holds => ?_
      cases holds with
      | true => exact settles_pure _
      | false => exact second.bind fun b => (truth b).bind fun _ => settles_pure _
    | _ =>
      rw [attempt, resolve]
      · exact first.bind fun a => second.bind fun b => (settles_binary _ a.value b.value).map Held.owned
      all_goals simp

theorem settles_attemptAll (model : Value) :
    ∀ es : List Expr, AllCounted es → Settles (attemptAll model es) (resolveAll model es)
  | [], _ => settles_pure []
  | e :: rest, counted => by
    rw [attemptAll, resolveAll]
    refine (settles_attempt model e counted.1).bind fun held => ?_
    exact (settles_attemptAll model rest counted.2).bind fun values => settles_pure _

end

/-! ### The functions of a library -/

/-- Each call runs an expression without a trap, to its answer or to its failure. -/
def EntryPoint.RunsSafely (e : Expr) : EntryPoint → Prop
  | .text call => ∀ model, ∃ result, Settles (attemptText model e) result ∧ call model = result.mapError .eval
  | .boolean call => ∀ model, ∃ result, Settles (attemptDecision model e) result ∧ call model = result.mapError .eval

theorem settles_attemptText {model : Value} {e : Expr} (counted : e.IsCounted) :
    Settles (attemptText model e) (textFor model e) := by
  have same : textFor model e = (resolve model e).map fun held => textOf held.value := by
    rw [textFor, ← map_resolve]
    cases resolve model e <;> rfl
  rw [same]
  exact (settles_attempt model e counted).map fun held => textOf held.value

theorem settles_attemptDecision {model : Value} {e : Expr} (counted : e.IsCounted) :
    Settles (attemptDecision model e) (decideOn model e) := by
  have same : decideOn model e = resolve model e >>= fun held => expectBool held.value := by
    rw [decideOn, ← map_resolve]
    cases resolve model e <;> rfl
  rw [same]
  exact (settles_attempt model e counted).bind fun held => settles_settled (isProper_expectBool held.value)

theorem runsSafely_entryPoint {d : Declaration} (counted : d.body.IsCounted) :
    EntryPoint.RunsSafely d.body d.entryPoint := by
  cases kind : d.kind with
  | text =>
    simp only [Declaration.entryPoint, kind]
    exact fun model => ⟨_, settles_attemptText counted, rfl⟩
  | boolean =>
    simp only [Declaration.entryPoint, kind]
    exact fun model => ⟨_, settles_attemptDecision counted, rfl⟩

/-- In a program that is accepted each function is called with arguments that it takes, and each call of an entry
point comes to a value or to a failure of the evaluation. -/
theorem accepted_runsSafely {request : Request} {library : Library} {name : String} {entry : EntryPoint}
    (accepted : interpreter request = .ok library) (found : library.entryPoint? name = some entry) :
    ∃ d ∈ (surveyFor request).declarations,
      d.name = name ∧ d.body.IsCounted ∧ entry = d.entryPoint ∧ EntryPoint.RunsSafely d.body entry := by
  obtain ⟨_, clean, _, _, rfl⟩ := interpreter_eq_ok_iff.mp accepted
  obtain ⟨d, first, rfl⟩ := Option.map_eq_some_iff.mp found
  have member := List.mem_of_find?_eq_some first
  have counted : d.body.IsCounted := (isProgram_of_survey _ clean).isCounted d member
  exact ⟨d, member, by simpa using List.find?_some first, counted, rfl, runsSafely_entryPoint counted⟩

namespace BehindLast

/-- What `fn f(m) -> text { m[len(m)] }` is read as: the place behind the last item of the model. -/
def declaration : Declaration where
  name := "f"
  kind := .text
  body := .index .model (.call .len [.model])
  span := ⟨0, 29⟩

def request : Request where
  modelType := "Items"
  source := "fn f(m) -> text { m[len(m)] }"
  references := ["core"]

def head : List Lexeme :=
  [⟨.name "f", ⟨3, 4⟩⟩, ⟨.symbol .openParen, ⟨4, 5⟩⟩, ⟨.name "m", ⟨5, 6⟩⟩, ⟨.symbol .closeParen, ⟨6, 7⟩⟩,
    ⟨.symbol .arrow, ⟨8, 10⟩⟩, ⟨.name "text", ⟨11, 15⟩⟩, ⟨.symbol .openBrace, ⟨16, 17⟩⟩]

def body : List Lexeme :=
  [⟨.name "m", ⟨18, 19⟩⟩, ⟨.symbol .openBracket, ⟨19, 20⟩⟩, ⟨.name "len", ⟨20, 23⟩⟩, ⟨.symbol .openParen, ⟨23, 24⟩⟩,
    ⟨.name "m", ⟨24, 25⟩⟩, ⟨.symbol .closeParen, ⟨25, 26⟩⟩, ⟨.symbol .closeBracket, ⟨26, 27⟩⟩]

theorem tokenize_source : tokenize request.source =
    (⟨.keyword .fn, ⟨0, 2⟩⟩ :: (head ++ (body ++ [⟨.symbol .closeBrace, ⟨28, 29⟩⟩])), []) := by
  with_unfolding_all rfl

theorem isProgram_source :
    IsProgram (functionsOf request.references)
      (⟨.keyword .fn, ⟨0, 2⟩⟩ :: (head ++ (body ++ [⟨.symbol .closeBrace, ⟨28, 29⟩⟩]))) [declaration] := by
  have place {scope : Scope} : IsLevel scope 0 [Token.name scope.parameter] .model :=
    (IsUnary.operand (.primary .parameter)).level (by decide)
  have length : IsPrimary { parameter := "m", functions := functionsOf request.references }
      (.name "len" :: .symbol .openParen :: ([.name "m"] ++ [.symbol .closeParen])) (.call .len [.model]) :=
    .call (f := .len) (by decide) (by decide) (.series (.last place))
  have item : IsLevel { parameter := "m", functions := functionsOf request.references } 0 (body.map Lexeme.token)
      declaration.body :=
    (IsUnary.operand (.index (.primary .parameter) ((IsUnary.operand (.primary length)).level (by decide)))).level
      (by decide)
  have function : IsFunction (functionsOf request.references)
      (⟨.keyword .fn, ⟨0, 2⟩⟩ :: (head ++ (body ++ [⟨.symbol .closeBrace, ⟨28, 29⟩⟩]))) declaration :=
    .mk rfl item rfl
  exact .cons function .nil

theorem interpreter_request : interpreter request = .ok (libraryOf [declaration]) := by
  have survey : (surveyFor request).findings = [] ∧ (surveyFor request).declarations = [declaration] := by
    rw [surveyFor, tokenize_source]
    exact isProgram_source.survey
  refine interpreter_eq_ok_iff.mpr ⟨by decide, survey.1, by rw [tokenize_source], ?_, by rw [survey.2]⟩
  rw [survey.2]
  decide

end BehindLast

open BehindLast in
theorem accepted_runsSafely_behindLast :
    interpreter request = .ok (libraryOf [declaration]) ∧
      (libraryOf [declaration]).entryPoint? "f" = some declaration.entryPoint ∧
      ∃ d ∈ (surveyFor request).declarations, d.name = "f" ∧ d.body.IsCounted ∧
        declaration.entryPoint = d.entryPoint ∧ EntryPoint.RunsSafely d.body declaration.entryPoint :=
  ⟨interpreter_request, rfl, accepted_runsSafely interpreter_request rfl⟩

end Stencil.Program
