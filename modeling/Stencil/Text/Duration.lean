/-! Lengths of time in words.

A time is written in its largest unit of which it has at least one: seconds, with as many places as are
needed, or milliseconds. No time at all is no nanoseconds.
-/

set_option autoImplicit false

namespace Stencil.Text

def thousandths (n : Nat) : List Char :=
  [Nat.digitChar (n / 100 % 10), Nat.digitChar (n / 10 % 10), Nat.digitChar (n % 10)]

def dropZeros (digits : List Char) : List Char := (digits.reverse.dropWhile (· = '0')).reverse

def duration (milliseconds : Nat) : String :=
  if milliseconds = 0 then "0ns"
  else if milliseconds < 1000 then toString milliseconds ++ "ms"
  else
    let whole := toString (milliseconds / 1000)
    match dropZeros (thousandths (milliseconds % 1000)) with
    | [] => whole ++ "s"
    | places => whole ++ "." ++ String.ofList places ++ "s"

end Stencil.Text
