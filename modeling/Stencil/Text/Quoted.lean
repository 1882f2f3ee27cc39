import Stencil.Text.Quoted.Table
import Stencil.Text.Ranges

/-! Quoted texts, as descriptions of values show them.

The text stands between double quotes. A double quote and a backslash get a backslash, the common control
characters their letter, and every other character without a visible form its code in braces.
-/

set_option autoImplicit false

namespace Stencil.Text

def hexDigits (n : Nat) : List Char := Nat.toDigits 16 n

def quoteChar (c : Char) : List Char :=
  if c = '"' then ['\\', '"']
  else if c = '\\' then ['\\', '\\']
  else if c = '\t' then ['\\', 't']
  else if c = '\r' then ['\\', 'r']
  else if c = '\n' then ['\\', 'n']
  else if c.toNat = 0 then ['\\', '0']
  else if inRanges hiddenRanges c.toNat then ['\\', 'u', '{'] ++ hexDigits c.toNat ++ ['}']
  else [c]

def quoted (s : String) : String :=
  String.ofList ('"' :: s.toList.flatMap quoteChar ++ ['"'])

end Stencil.Text
