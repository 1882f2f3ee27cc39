import Stencil.Diagnostic
import Stencil.Json.Value
import Stencil.Program.Function
import Stencil.Program.Token
import Stencil.Units

/-! Expressions and the functions that a program declares. -/

set_option autoImplicit false

namespace Stencil.Program

inductive UnaryOp where
  | not
  | negate
  deriving DecidableEq, Repr

inductive BinaryOp where
  | add
  | subtract
  | multiply
  | divide
  | remainder
  | equal
  | unequal
  | less
  | lessEqual
  | greater
  | greaterEqual
  | both
  | either
  deriving DecidableEq, Repr

inductive Expr where
  | literal (value : Json.Value)
  /-- The parameter of the function around the expression. -/
  | model
  | member (object : Expr) (property : String)
  | index (object index : Expr)
  | call (function : Function) (arguments : List Expr)
  | unary (op : UnaryOp) (operand : Expr)
  | binary (op : BinaryOp) (left right : Expr)
  deriving Repr, Inhabited

def UnaryOp.ofSymbol? : Symbol → Option UnaryOp
  | .bang => some .not
  | .minus => some .negate
  | _ => none

def BinaryOp.sign : BinaryOp → Symbol
  | .add => .plus
  | .subtract => .minus
  | .multiply => .star
  | .divide => .slash
  | .remainder => .percent
  | .equal => .equal
  | .unequal => .unequal
  | .less => .less
  | .lessEqual => .lessEqual
  | .greater => .greater
  | .greaterEqual => .greaterEqual
  | .both => .both
  | .either => .either

def BinaryOp.all : List BinaryOp :=
  [.add, .subtract, .multiply, .divide, .remainder, .equal, .unequal, .less, .lessEqual, .greater,
    .greaterEqual, .both, .either]

def BinaryOp.ofSymbol? (sign : Symbol) : Option BinaryOp := BinaryOp.all.find? fun op => op.sign = sign

def BinaryOp.level : BinaryOp → Nat
  | .either => 0
  | .both => 1
  | .equal | .unequal => 2
  | .less | .lessEqual | .greater | .greaterEqual => 3
  | .add | .subtract => 4
  | .multiply | .divide | .remainder => 5

/-- Operands of the tightest operators are built without binary operators. -/
def operandLevel : Nat := 6

def binaryOp? (level : Nat) : Token → Option BinaryOp
  | .symbol sign => (BinaryOp.ofSymbol? sign).filter fun op => op.level = level
  | _ => none

def unaryOp? : Token → Option UnaryOp
  | .symbol sign => UnaryOp.ofSymbol? sign
  | _ => none

structure Declaration where
  name : String
  kind : ReturnKind
  body : Expr
  span : Span
  deriving Repr

def literal? : Token → Option Json.Value
  | .integer n => some (.ofInt n)
  | .float x => some (.ofFloat x)
  | .string s => some (.string s)
  | .keyword .yes => some (.bool true)
  | .keyword .no => some (.bool false)
  | .keyword .null => some .null
  | _ => none

end Stencil.Program
