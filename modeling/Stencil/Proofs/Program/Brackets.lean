import Stencil.Proofs.Program.Grammar.Sound

/-! The brackets of an expression are closed in order.

Whatever a reader comes to, every bracket among the tokens that it takes is closed by one of its kind, none is a brace,
and commas stand only inside brackets. Faults that are noted on the way make no difference: they concern names, not the
shape.
-/

set_option autoImplicit false

namespace Stencil.Program

/-- The brackets that expressions have, the opening ones with those that close them. -/
def bracketPairs : List (Symbol × Symbol) := [(.openParen, .closeParen), (.openBracket, .closeBracket)]

/-- Whether a token is neither a bracket nor a brace. Only inside brackets may it be a comma. -/
def Token.isPlain (enclosed : Bool) : Token → Bool
  | .symbol .openParen | .symbol .closeParen | .symbol .openBracket | .symbol .closeBracket
  | .symbol .openBrace | .symbol .closeBrace => false
  | .symbol .comma => enclosed
  | _ => true

/-- Brackets are closed in order; `enclosed` tells whether the tokens stand inside some. -/
inductive Balanced : Bool → List Token → Prop
  | nil {enclosed : Bool} : Balanced enclosed []
  | plain {enclosed : Bool} {token : Token} {rest : List Token} (plain : token.isPlain enclosed)
    (after : Balanced enclosed rest) : Balanced enclosed (token :: rest)
  | group {enclosed : Bool} {opening closing : Symbol} {inner rest : List Token}
    (pair : (opening, closing) ∈ bracketPairs) (inside : Balanced true inner) (after : Balanced enclosed rest) :
    Balanced enclosed (.symbol opening :: (inner ++ .symbol closing :: rest))

theorem Token.isPlain_true {token : Token} {enclosed : Bool} (plain : token.isPlain enclosed) : token.isPlain true := by
  cases enclosed with
  | true => exact plain
  | false =>
    cases token with
    | symbol sign => cases sign <;> first | rfl | cases plain
    | _ => rfl

theorem isPlain_of_mem_operators {level : Nat} {sign : Symbol} {op : BinaryOp} (known : (sign, op) ∈ operators level) :
    (Token.symbol sign).isPlain false := by
  obtain ⟨rfl, -⟩ := mem_operators_iff.mp known
  cases op <;> rfl

theorem isPlain_of_mem_prefixes {sign : Symbol} {op : UnaryOp} (known : (sign, op) ∈ prefixes) :
    (Token.symbol sign).isPlain false := by
  simp only [prefixes, List.mem_cons, Prod.mk.injEq, List.not_mem_nil, or_false] at known
  rcases known with ⟨rfl, -⟩ | ⟨rfl, -⟩ <;> rfl

theorem isPlain_of_isLiteral {token : Token} {value : Json.Value} (stands : IsLiteral token value) :
    token.isPlain false := by
  cases stands <;> rfl

theorem not_isPlain_of_mem_bracketPairs {opening closing : Symbol} (pair : (opening, closing) ∈ bracketPairs)
    {enclosed : Bool} :
    ¬ (Token.symbol opening).isPlain enclosed ∧ ¬ (Token.symbol closing).isPlain enclosed := by
  simp only [bracketPairs, List.mem_cons, Prod.mk.injEq, List.not_mem_nil, or_false] at pair
  rcases pair with ⟨rfl, rfl⟩ | ⟨rfl, rfl⟩ <;> exact ⟨Bool.false_ne_true, Bool.false_ne_true⟩

theorem ne_closeBrace_of_mem_bracketPairs {opening closing : Symbol} (pair : (opening, closing) ∈ bracketPairs) :
    opening ≠ .closeBrace ∧ closing ≠ .closeBrace := by
  simp only [bracketPairs, List.mem_cons, Prod.mk.injEq, List.not_mem_nil, or_false] at pair
  rcases pair with ⟨rfl, rfl⟩ | ⟨rfl, rfl⟩ <;> decide

theorem opening_ne_closing {opening closing opening' closing' : Symbol} (pair : (opening, closing) ∈ bracketPairs)
    (pair' : (opening', closing') ∈ bracketPairs) : opening ≠ closing' := by
  simp only [bracketPairs, List.mem_cons, Prod.mk.injEq, List.not_mem_nil, or_false] at pair pair'
  rcases pair with ⟨rfl, rfl⟩ | ⟨rfl, rfl⟩ <;> rcases pair' with ⟨rfl, rfl⟩ | ⟨rfl, rfl⟩ <;> decide

namespace Balanced

variable {enclosed : Bool} {first second : List Token}

theorem single {token : Token} (plain : token.isPlain enclosed) : Balanced enclosed [token] := .plain plain .nil

theorem bracketed {opening closing : Symbol} (pair : (opening, closing) ∈ bracketPairs)
    (inside : Balanced true first) : Balanced enclosed (.symbol opening :: (first ++ [.symbol closing])) :=
  .group pair inside .nil

theorem append (before : Balanced enclosed first) (after : Balanced enclosed second) :
    Balanced enclosed (first ++ second) := by
  induction before with
  | nil => exact after
  | plain plain _ ih => exact .plain plain (ih after)
  | group pair inside _ _ ih =>
    rw [List.cons_append, List.append_assoc, List.cons_append]
    exact .group pair inside (ih after)

theorem closeBrace_notMem (balanced : Balanced enclosed first) : Token.symbol .closeBrace ∉ first := by
  induction balanced with
  | nil => exact List.not_mem_nil
  | plain plain _ ih =>
    rw [List.mem_cons, not_or]
    refine ⟨?_, ih⟩
    rintro rfl
    cases plain
  | group pair _ _ ih ih' =>
    have ⟨opening, closing⟩ := ne_closeBrace_of_mem_bracketPairs pair
    simp [ih, ih', Ne.symm opening, Ne.symm closing]

theorem enclose (balanced : Balanced enclosed first) : Balanced true first := by
  induction balanced with
  | nil => exact .nil
  | plain plain _ ih => exact .plain (Token.isPlain_true plain) ih
  | group pair inside _ _ ih => exact .group pair inside ih

/-- A bracket has one partner: in front of one that closes there is only one way for the tokens to be balanced. -/
theorem unique {inside : Bool} {opening closing opening' closing' : Symbol} {behind behind' : List Token}
    (balanced : Balanced enclosed first) (balanced' : Balanced inside second) (pair : (opening, closing) ∈ bracketPairs)
    (pair' : (opening', closing') ∈ bracketPairs)
    (same : first ++ .symbol closing :: behind = second ++ .symbol closing' :: behind') :
    first = second ∧ closing = closing' ∧ behind = behind' := by
  -- Side by side, the tokens are of one kind: a plain one, an opening bracket, or the closing one that ends the tokens.
  induction balanced generalizing inside second opening closing opening' closing' behind behind' with
  | nil =>
    cases balanced' with
    | nil =>
      rw [List.nil_append, List.nil_append, List.cons.injEq, Token.symbol.injEq] at same
      exact ⟨rfl, same⟩
    | plain plain _ =>
      cases same
      exact absurd plain (not_isPlain_of_mem_bracketPairs pair).2
    | group within _ _ =>
      cases same
      exact absurd rfl (opening_ne_closing within pair)
  | plain plain _ ih =>
    cases balanced' with
    | nil =>
      cases same
      exact absurd plain (not_isPlain_of_mem_bracketPairs pair').2
    | plain _ after =>
      rw [List.cons_append, List.cons_append, List.cons.injEq] at same
      obtain ⟨rest, others⟩ := ih after pair pair' same.2
      exact ⟨by rw [same.1, rest], others⟩
    | group within _ _ =>
      rw [(List.cons.inj same).1] at plain
      exact absurd plain (not_isPlain_of_mem_bracketPairs within).1
  | group within inside _ ih ih' =>
    cases balanced' with
    | nil =>
      cases same
      exact absurd rfl (opening_ne_closing within pair')
    | plain plain _ =>
      rw [← (List.cons.inj same).1] at plain
      exact absurd plain (not_isPlain_of_mem_bracketPairs within).1
    | group within' inside' after' =>
      -- Both groups end with the bracket that closes them, so that what stands behind is to be compared as well.
      simp only [List.cons_append, List.append_assoc, List.cons.injEq, Token.symbol.injEq] at same
      obtain ⟨inner, last, rest⟩ := ih inside' within within' same.2
      obtain ⟨rest, others⟩ := ih' after' pair pair' rest
      exact ⟨by rw [same.1, inner, last, rest], others⟩

end Balanced

section

variable (scope : Scope)

def bracketing : Productions scope False where
  level _ tokens _ := Balanced false tokens
  operand tokens _ := Balanced false tokens
  suffixed tokens _ := Balanced false tokens
  primary tokens _ := Balanced false tokens
  arguments tokens _ := Balanced true tokens
  series tokens _ := Balanced true tokens
  tightest balanced := balanced
  tighter balanced := balanced
  binary known left right := left.append (.plain (isPlain_of_mem_operators known) right)
  bare balanced := balanced
  signed known operand := .plain (isPlain_of_mem_prefixes known) operand
  plain balanced := balanced
  member _ operand := operand.append (.plain rfl (.single rfl))
  index operand place := operand.append (.bracketed (by simp [bracketPairs]) place.enclose)
  literal stands := .single (isPlain_of_isLiteral stands)
  name _ := .single rfl
  call given _ := .plain rfl (.bracketed (by simp [bracketPairs]) given)
  bracketed inner := .bracketed (by simp [bracketPairs]) inner.enclose
  none := .nil
  some balanced := balanced
  last argument := argument.enclose
  cons argument others := argument.enclose.append (.plain rfl others)

/-- Whatever is noted on the way, the tokens that make an expression are balanced. -/
theorem readExpr_balanced {tokens : List Lexeme} {e : Expr} (outcome : (readExpr scope tokens).outcome = .ok e) :
    ∃ taken, Shows taken (readExpr scope tokens).rest tokens ∧ Balanced false taken :=
  (bracketing scope).readers_take.1 0 tokens (Nat.zero_le _) e outcome False.elim

theorem balanced_of_readExpr {tokens : List Lexeme} {e : Expr} (outcome : (readExpr scope tokens).outcome = .ok e)
    (whole : (readExpr scope tokens).rest = []) : Balanced false (tokens.map Lexeme.token) := by
  obtain ⟨taken, ⟨front, same, rfl⟩, balanced⟩ := readExpr_balanced scope outcome
  rw [whole, List.append_nil] at same
  rw [same]
  exact balanced

end

end Stencil.Program
