/-! The parts of a double.

A finite double is `± significand · 2 ^ exponent` with a significand below `2 ^ 53` and an exponent of at
least `-1074`. The parts are read off the bit pattern and put back the same way, so that operations which
floating-point hardware does not offer exactly can be carried out on natural numbers.
-/

set_option autoImplicit false

namespace Stencil.Decimal

structure Parts where
  negative : Bool
  significand : Nat
  exponent : Int
  deriving DecidableEq, Repr

/-- The lowest exponent, shared by the subnormal doubles and the smallest normal ones. -/
def Parts.lowest : Int := -1074

/-- The parts of a bit pattern with an exponent field below 2047. -/
def Parts.ofBits (bits : Nat) : Parts :=
  let field : Nat := bits / Nat.pow 2 52 % Nat.pow 2 11
  let fraction : Nat := bits % Nat.pow 2 52
  { negative := bits / Nat.pow 2 63 % 2 == 1
    significand := if field = 0 then fraction else Nat.pow 2 52 + fraction
    exponent := if field = 0 then lowest else (field : Int) - 1075 }

/-- The bit pattern of parts whose significand is below `2 ^ 53` and whose exponent is in range. The
significand is first moved up as far as the exponent allows. -/
def Parts.toBits (p : Parts) : Nat :=
  let room := (p.exponent - lowest).toNat
  let shift := min room (52 - p.significand.log2)
  let significand := p.significand * Nat.pow 2 shift
  let exponent := p.exponent - shift
  let sign := if p.negative then Nat.pow 2 63 else 0
  if significand < Nat.pow 2 52 then sign + significand
  else sign + ((exponent + 1075).toNat * Nat.pow 2 52 + (significand - Nat.pow 2 52))

end Stencil.Decimal

namespace Stencil.Decimal

def partsOf (x : Float) : Parts := Parts.ofBits x.toBits.toNat

def ofParts (p : Parts) : Float := Float.ofBits (UInt64.ofNat p.toBits)

/-- The exact remainder of a division truncated towards zero: it has the sign of `x` and is smaller than
`y` in size. Both doubles are finite and `y` is not zero. -/
def remainder (x y : Float) : Float :=
  let a := partsOf x
  let b := partsOf y
  let exponent := min a.exponent b.exponent
  let m := a.significand * Nat.pow 2 (a.exponent - exponent).toNat
  let n := b.significand * Nat.pow 2 (b.exponent - exponent).toNat
  ofParts { negative := a.negative, significand := m % n, exponent := exponent }

end Stencil.Decimal
