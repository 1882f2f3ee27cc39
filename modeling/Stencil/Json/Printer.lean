import Stencil.Decimal.Layout
import Stencil.Json.Value

/-! The compact text of a JSON value: no blanks, members in the order of the object. -/

set_option autoImplicit false

namespace Stencil.Json

def hexDigit (n : Nat) : Char := Nat.digitChar (n % 16)

/-- One character of a string. Only quotes, backslashes and control characters are escaped. -/
def escapeChar (c : Char) : List Char :=
  if c = '"' then ['\\', '"']
  else if c = '\\' then ['\\', '\\']
  else if c.toNat = 8 then ['\\', 'b']
  else if c = '\t' then ['\\', 't']
  else if c = '\n' then ['\\', 'n']
  else if c.toNat = 12 then ['\\', 'f']
  else if c = '\r' then ['\\', 'r']
  else if c.toNat < 32 then ['\\', 'u', '0', '0', hexDigit (c.toNat / 16), hexDigit c.toNat]
  else [c]

def stringText (s : String) : List Char := '"' :: s.toList.flatMap escapeChar ++ ['"']

def Number.text : Number → List Char
  | .int n => (toString n).toList
  | .float x => Decimal.text x

def boolText (b : Bool) : List Char := if b then "true".toList else "false".toList

mutual

def Value.text : Value → List Char
  | .null => "null".toList
  | .bool b => boolText b
  | .number n => n.text
  | .string s => stringText s
  | .array [] => ['[', ']']
  | .array (item :: items) => '[' :: item.text ++ itemsText items ++ [']']
  | .object [] => ['{', '}']
  | .object ((key, value) :: members) =>
    '{' :: stringText key ++ ':' :: value.text ++ membersText members ++ ['}']

def itemsText : List Value → List Char
  | [] => []
  | item :: items => ',' :: item.text ++ itemsText items

def membersText : List (String × Value) → List Char
  | [] => []
  | (key, value) :: members => ',' :: stringText key ++ ':' :: value.text ++ membersText members

end

end Stencil.Json
