import Stencil.Json.Value

/-! Number literals of JSON texts.

The digits are gathered into one 64-bit number as long as they fit; digits that no longer fit are dropped,
and those of the whole part still count for the power of ten. A literal with neither fraction nor exponent
that fits 64 bits is an integer, and any other is that number scaled by the power of ten in one rounding
step, or in several where the power lies below the table of powers.
-/

set_option autoImplicit false

namespace Stencil.Json

structure Literal where
  negative : Bool
  whole : List Char
  fraction : Option (List Char)
  /-- The sign of the exponent, true when it is negative, and its digits. -/
  exponent : Option (Bool × List Char)

def digitValue (c : Char) : Nat := c.toNat - '0'.toNat

/-- Digits gathered behind `seen` while the result stays within `bound`, and the digits left over. -/
def gather (bound seen : Nat) : List Char → Nat × List Char
  | [] => (seen, [])
  | c :: rest =>
    let next := seen * 10 + digitValue c
    if next ≤ bound then gather bound next rest else (seen, c :: rest)

def largestUnsigned : Nat := Nat.pow 2 64 - 1

def largestExponent : Nat := Nat.pow 2 31 - 1

def powerOfTen (n : Nat) : Float := Float.ofScientific 1 false n

/-- A double divided by a power of ten, in steps of at most `10 ^ 308`. -/
def scaleDown (x : Float) (power : Nat) : Float :=
  if power ≤ 308 then x / powerOfTen power
  else if x == 0 then x
  else scaleDown (x / powerOfTen 308) (power - 308)
termination_by power

def scale? (x : Float) (power : Int) : Option Float :=
  if power < 0 then some (scaleDown x (-power).toNat)
  else if power ≤ 308 then
    let y := x * powerOfTen power.toNat
    if y.isInf then none else some y
  else if x == 0 then some x
  else none

/-- The power of ten that the exponent of a literal adds, `none` when it has too many digits to count. -/
def exponentPower? : Option (Bool × List Char) → Option Int
  | none => some 0
  | some (negative, digits) =>
    match gather largestExponent 0 digits with
    | (n, []) => some (if negative then -n else n)
    | _ => none

def Literal.signed (l : Literal) (x : Float) : Number := .float (if l.negative then -x else x)

def Literal.number? (l : Literal) : Option Number :=
  let (head, extra) := gather largestUnsigned 0 l.whole
  if extra.isEmpty && l.fraction.isNone && l.exponent.isNone then
    if !l.negative then some (.int head)
    else if head = 0 ∨ Nat.pow 2 63 < head then some (l.signed (floatOfInt head))
    else some (.int (-head))
  else
    let fraction := l.fraction.getD []
    let (digits, dropped) := gather largestUnsigned head fraction
    let base : Int := (extra.length : Int) - (fraction.length - dropped.length : Nat)
    match exponentPower? l.exponent with
    | some power => (scale? (floatOfInt digits) (base + power)).map l.signed
    | none =>
      let down := match l.exponent with
        | some (negative, _) => negative
        | none => false
      if digits ≠ 0 ∧ !down then none else some (l.signed 0)

end Stencil.Json
