import Stencil.Decimal.Shortest

/-! The text of a double.

The shortest decimal is written positionally when its first digit stands between the places 10⁻⁵ and 10¹⁵,
always with a digit after the point, and otherwise with an exponent that always carries its sign.
-/

set_option autoImplicit false

namespace Stencil.Decimal

/-- Digits without the zeros at their end, with the place of the last digit kept. -/
def dropZeros (digits : List Char) : List Char := (digits.reverse.dropWhile (· = '0')).reverse

def positional (digits : List Char) (lead : Int) : List Char :=
  if lead < 0 then '0' :: '.' :: List.replicate (-lead - 1).toNat '0' ++ digits
  else
    let whole := lead.toNat + 1
    let fraction := digits.drop whole
    digits.take whole ++ List.replicate (whole - digits.length) '0' ++ '.' ::
      (if fraction.isEmpty then ['0'] else fraction)

def scientific (digits : List Char) (lead : Int) : List Char :=
  let mantissa :=
    match digits with
    | [] => []
    | [d] => [d]
    | d :: rest => d :: '.' :: rest
  mantissa ++ 'e' :: (if lead < 0 then '-' else '+') :: Nat.toDigits 10 lead.natAbs

/-- The place of the first digit is written positionally from this one on. -/
def lowestPositional : Int := -5

def highestPositional : Int := 16

def Digits.text (d : Digits) : List Char :=
  let spelled := Nat.toDigits 10 d.digits
  let lead := d.place + spelled.length - 1
  let digits := dropZeros spelled
  if lowestPositional ≤ lead ∧ lead < highestPositional then positional digits lead
  else scientific digits lead

def text (x : Float) : List Char :=
  let p := partsOf x
  let size := if p.significand = 0 then ['0', '.', '0'] else (shortest p.significand p.exponent).text
  if p.negative then '-' :: size else size

end Stencil.Decimal
