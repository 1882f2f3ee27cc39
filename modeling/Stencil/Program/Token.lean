/-! The tokens of a program text. -/

set_option autoImplicit false

namespace Stencil.Program

inductive Keyword where
  | fn
  | yes
  | no
  | null
  deriving DecidableEq, Repr

def Keyword.text : Keyword → String
  | .fn => "fn"
  | .yes => "true"
  | .no => "false"
  | .null => "null"

def Keyword.ofText? (word : String) : Option Keyword :=
  [Keyword.fn, .yes, .no, .null].find? fun k => k.text = word

inductive Symbol where
  | plus
  | minus
  | star
  | slash
  | percent
  | equal
  | unequal
  | less
  | lessEqual
  | greater
  | greaterEqual
  | both
  | either
  | bang
  | arrow
  | openParen
  | closeParen
  | openBracket
  | closeBracket
  | openBrace
  | closeBrace
  | comma
  | dot
  deriving DecidableEq, Repr

def Symbol.text : Symbol → String
  | .plus => "+"
  | .minus => "-"
  | .star => "*"
  | .slash => "/"
  | .percent => "%"
  | .equal => "=="
  | .unequal => "!="
  | .less => "<"
  | .lessEqual => "<="
  | .greater => ">"
  | .greaterEqual => ">="
  | .both => "&&"
  | .either => "||"
  | .bang => "!"
  | .arrow => "->"
  | .openParen => "("
  | .closeParen => ")"
  | .openBracket => "["
  | .closeBracket => "]"
  | .openBrace => "\x7b"
  | .closeBrace => "\x7d"
  | .comma => ","
  | .dot => "."

def Symbol.long : List Symbol :=
  [.equal, .unequal, .lessEqual, .greaterEqual, .both, .either, .arrow]

def Symbol.short : List Symbol :=
  [.plus, .minus, .star, .slash, .percent, .less, .greater, .bang, .openParen, .closeParen, .openBracket,
    .closeBracket, .openBrace, .closeBrace, .comma, .dot]

inductive Token where
  | keyword (word : Keyword)
  | symbol (sign : Symbol)
  | name (text : String)
  | string (value : String)
  | integer (value : Nat)
  | float (value : Float)
  deriving Repr

def Token.describe : Token → String
  | .keyword word => "`" ++ word.text ++ "`"
  | .symbol sign => "`" ++ sign.text ++ "`"
  | .name text => "identifier `" ++ text ++ "`"
  | .string _ => "string"
  | .integer _ => "number"
  | .float _ => "number"

def Token.isKeyword (word : Keyword) : Token → Bool
  | .keyword k => k = word
  | _ => false

def Token.isSymbol (sign : Symbol) : Token → Bool
  | .symbol s => s = sign
  | _ => false

end Stencil.Program
