import Stencil.Program.Expr
import Stencil.Program.Fault

/-! Reading expressions.

An expression is read from the front of a sequence of tokens. Binary operators come in six levels and group
to the left; prefix operators bind tighter, and member and index suffixes tighter still. A name that is
neither the parameter nor a function of the right number of arguments is noted as a fault and read as `null`,
so that one reading notes them all; a token out of place ends the reading.
-/

set_option autoImplicit false

namespace Stencil.Program

structure Scope where
  parameter : String
  functions : List Function

/-- What a reading of `tokens` comes to: the faults noted on the way, the outcome and the tokens left. -/
structure Reading (tokens : List Lexeme) (α : Type) where
  notes : List Fault
  outcome : Except Fault α
  rest : List Lexeme
  rest_le : rest.length ≤ tokens.length

namespace Reading

section
variable {α β : Type} {tokens : List Lexeme}

def done (tokens : List Lexeme) (a : α) : Reading tokens α := ⟨[], .ok a, tokens, Nat.le_refl _⟩

def refuse (tokens : List Lexeme) (fault : Fault) : Reading tokens α := ⟨[], .error fault, tokens, Nat.le_refl _⟩

def fail (tokens : List Lexeme) (expected : Expected) : Reading tokens α :=
  refuse tokens (.unexpected expected tokens)

def widen {rest : List Lexeme} (r : Reading rest α) (h : rest.length ≤ tokens.length) :
    Reading tokens α :=
  ⟨r.notes, r.outcome, r.rest, Nat.le_trans r.rest_le h⟩

def andThen (r : Reading tokens α)
    (next : α → (rest : List Lexeme) → rest.length ≤ tokens.length → Reading rest β) :
    Reading tokens β :=
  match r.outcome with
  | .error e => ⟨r.notes, .error e, r.rest, r.rest_le⟩
  | .ok a =>
    let last := next a r.rest r.rest_le
    ⟨r.notes ++ last.notes, last.outcome, last.rest, Nat.le_trans last.rest_le r.rest_le⟩

def map (f : α → β) (r : Reading tokens α) : Reading tokens β :=
  ⟨r.notes, r.outcome.map f, r.rest, r.rest_le⟩

def note (r : Reading tokens α) (faults : List Fault) : Reading tokens α :=
  { r with notes := r.notes ++ faults }

end

end Reading

def expectToken {α : Type} (expected : Expected) (select : Lexeme → Option α) (tokens : List Lexeme) :
    Reading tokens α :=
  match tokens with
  | [] => .fail [] expected
  | t :: rest =>
    match select t with
    | some a => ⟨[], .ok a, rest, Nat.le_succ _⟩
    | none => .fail (t :: rest) expected

def expectSymbol (sign : Symbol) (tokens : List Lexeme) : Reading tokens Span :=
  expectToken (.symbol sign) (fun t => if t.token.isSymbol sign then some t.span else none) tokens

def nameOf? (t : Lexeme) : Option (String × Span) :=
  match t.token with
  | .name text => some (text, t.span)
  | _ => none

def expectName (expected : Expected) (tokens : List Lexeme) : Reading tokens (String × Span) :=
  expectToken expected nameOf? tokens

def startsWith (sign : Symbol) : List Lexeme → Bool
  | t :: _ => t.token.isSymbol sign
  | [] => false

/-- A name used as a value, with the fault to note if it is not the parameter. -/
def Scope.resolveName (scope : Scope) (name : String) (span : Span) : Expr × List Fault :=
  if name = scope.parameter then (.model, [])
  else (.literal .null, [{ span := some span, problem := .unknownName name }])

def Scope.resolveCall (scope : Scope) (name : String) (span : Span) (arguments : List Expr) :
    Expr × List Fault :=
  match findFunction? scope.functions name with
  | some f =>
    if f.accepts arguments.length then (.call f arguments, [])
    else (.literal .null, [{ span := some span, problem := .argumentCount f arguments.length }])
  | none => (.literal .null, [{ span := some span, problem := .unknownFunction name }])

mutual

/-- An expression of binary operators of the given level and tighter ones. -/
def readLevel (scope : Scope) (level : Nat) (tokens : List Lexeme) : Reading tokens Expr :=
  if level < operandLevel then
    (readLevel scope (level + 1) tokens).andThen fun left rest _h => readOperators scope level left rest
  else readUnary scope tokens
termination_by (tokens.length, operandLevel - level + 4)
decreasing_by
  · exact Prod.Lex.right _ (by unfold operandLevel at *; omega)
  · rcases Nat.lt_or_eq_of_le _h with shorter | same
    · exact Prod.Lex.left _ _ shorter
    · rw [same]
      exact Prod.Lex.right _ (by unfold operandLevel at *; omega)
  · exact Prod.Lex.right _ (by unfold operandLevel at *; omega)

/-- The operators of one level behind their first operand, grouped to the left. -/
def readOperators (scope : Scope) (level : Nat) (left : Expr) (tokens : List Lexeme) :
    Reading tokens Expr :=
  match tokens with
  | [] => .done [] left
  | t :: after =>
    match binaryOp? level t.token with
    | none => .done (t :: after) left
    | some op =>
      ((readLevel scope (level + 1) after).andThen fun right rest _h =>
        readOperators scope level (.binary op left right) rest).widen (Nat.le_succ _)
termination_by (tokens.length, 0)
decreasing_by
  · exact Prod.Lex.left _ _ (Nat.lt_succ_self _)
  · exact Prod.Lex.left _ _ (Nat.lt_succ_of_le _h)

def readUnary (scope : Scope) (tokens : List Lexeme) : Reading tokens Expr :=
  match tokens with
  | [] => .fail [] .expression
  | t :: after =>
    match unaryOp? t.token with
    | some op => ((readUnary scope after).map (.unary op)).widen (Nat.le_succ _)
    | none => (readPrimary scope (t :: after)).andThen fun e rest _h => readSuffixes scope e rest
termination_by (tokens.length, 3)
decreasing_by
  · exact Prod.Lex.left _ _ (Nat.lt_succ_self _)
  · exact Prod.Lex.right _ (by omega)
  · rcases Nat.lt_or_eq_of_le _h with shorter | same
    · exact Prod.Lex.left _ _ shorter
    · rw [same]
      exact Prod.Lex.right _ (by omega)

def readSuffixes (scope : Scope) (e : Expr) (tokens : List Lexeme) : Reading tokens Expr :=
  match tokens with
  | [] => .done [] e
  | t :: after =>
    if t.token.isSymbol .dot then
      ((expectName .memberName after).andThen fun name rest _h =>
        readSuffixes scope (.member e name.1) rest).widen (Nat.le_succ _)
    else if t.token.isSymbol .openBracket then
      ((readLevel scope 0 after).andThen fun index rest _h =>
        (expectSymbol .closeBracket rest).andThen fun _ rest' _h' =>
          readSuffixes scope (.index e index) rest').widen (Nat.le_succ _)
    else .done (t :: after) e
termination_by (tokens.length, 0)
decreasing_by
  · exact Prod.Lex.left _ _ (Nat.lt_succ_of_le _h)
  · exact Prod.Lex.left _ _ (Nat.lt_succ_self _)
  · exact Prod.Lex.left _ _ (Nat.lt_succ_of_le (Nat.le_trans _h' _h))

def readPrimary (scope : Scope) (tokens : List Lexeme) : Reading tokens Expr :=
  match tokens with
  | [] => .fail [] .expression
  | t :: after =>
    match literal? t.token with
    | some value => ⟨[], .ok (.literal value), after, Nat.le_succ _⟩
    | none =>
      match nameOf? t with
      | some (name, span) =>
        if startsWith .openParen after then
          ((expectSymbol .openParen after).andThen fun _ rest _h =>
            (readArguments scope rest).andThen fun arguments rest' _ =>
              (Reading.done rest' (scope.resolveCall name span arguments).1).note
                (scope.resolveCall name span arguments).2).widen (Nat.le_succ _)
        else
          ((Reading.done after (scope.resolveName name span).1).note
            (scope.resolveName name span).2).widen (Nat.le_succ _)
      | none =>
        if t.token.isSymbol .openParen then
          ((readLevel scope 0 after).andThen fun e rest _ =>
            (expectSymbol .closeParen rest).map fun _ => e).widen (Nat.le_succ _)
        else .fail (t :: after) .expression
termination_by (tokens.length, 1)
decreasing_by
  · exact Prod.Lex.left _ _ (Nat.lt_succ_of_le _h)
  · exact Prod.Lex.left _ _ (Nat.lt_succ_self _)

def readArguments (scope : Scope) (tokens : List Lexeme) : Reading tokens (List Expr) :=
  if startsWith .closeParen tokens then (expectSymbol .closeParen tokens).map fun _ => []
  else
    (readMoreArguments scope tokens).andThen fun arguments rest _ =>
      (expectSymbol .closeParen rest).map fun _ => arguments
termination_by (tokens.length, operandLevel + 6)
decreasing_by
  exact Prod.Lex.right _ (by omega)

def readMoreArguments (scope : Scope) (tokens : List Lexeme) : Reading tokens (List Expr) :=
  (readLevel scope 0 tokens).andThen fun first rest _h =>
    match rest with
    | [] => .done [] [first]
    | t :: after =>
      if t.token.isSymbol .comma then
        ((readMoreArguments scope after).map (first :: ·)).widen (Nat.le_succ _)
      else .done (t :: after) [first]
termination_by (tokens.length, operandLevel + 5)
decreasing_by
  · exact Prod.Lex.right _ (by omega)
  · exact Prod.Lex.left _ _ (Nat.lt_of_lt_of_le (Nat.lt_succ_self _) _h)

end

def readExpr (scope : Scope) (tokens : List Lexeme) : Reading tokens Expr := readLevel scope 0 tokens

end Stencil.Program
