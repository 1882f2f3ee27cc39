import Stencil.Diagnostic
import Stencil.Text.Blank

/-! Diagnostics as a report shows them.

A report marks the place of a problem by line and column, both counted from one. It takes the beginning and the
end of the problem for numbers of characters from the beginning of the text. A problem that reaches beyond the
end of the text that way has no mark.
-/

set_option autoImplicit false

namespace Stencil

def endsLine (c : Char) : Bool :=
  let n := c.toNat
  (10 ≤ n && n ≤ 13) || n == 0x85 || n == 0x2028 || n == 0x2029

/-- The lengths of the lines of a text, ends of lines included; a carriage return and a line feed behind it
are one end. The line being read has `current` characters so far. -/
def lineLengths : (current : Nat) → List Char → List Nat
  | 0, [] => []
  | current, [] => [current]
  | current, '\r' :: '\n' :: rest => (current + 2) :: lineLengths 0 rest
  | current, c :: rest =>
    if endsLine c then (current + 1) :: lineLengths 0 rest else lineLengths (current + 1) rest

/-- The line and column of a character, with the number of the first line; the end of the text counts as part
of its last line. -/
def placeIn : (line : Nat) → (offset : Nat) → List Nat → Option (Nat × Nat)
  | _, _, [] => none
  | line, offset, [length] => if offset ≤ length then some (line, offset + 1) else none
  | line, offset, length :: next :: rest =>
    if offset < length then some (line, offset + 1) else placeIn (line + 1) (offset - length) (next :: rest)

structure Mark where
  line : Nat
  column : Nat
  label : String
  deriving DecidableEq, Repr

structure Report where
  title : String
  mark : Option Mark
  deriving DecidableEq, Repr

namespace Report

def markOf (lengths : List Nat) (d : Diagnostic) : Option Mark :=
  match placeIn 1 d.start lengths with
  | some (line, column) => if d.last ≤ lengths.foldl (· + ·) 0 then some { line, column, label := d.label } else none
  | none => none

def ofDiagnostic (source : String) (d : Diagnostic) : Report :=
  { title := String.ofList (Text.trimEnd d.message.toList)
    mark := markOf (lineLengths 0 source.toList) d }

end Report

def Mark.placeText (mark : Mark) : String := toString mark.line ++ ":" ++ toString mark.column

end Stencil
