import Stencil.Decimal.Binary64

/-! The shortest decimal of a double.

Among the decimals that read back as a given double, the one with the fewest digits is chosen; of several with
equally few, the one nearest to the double; of two equally near, the one with an even last digit. The doubles
around a value `m · 2 ^ q` leave an interval of reals that round to it, whose ends belong to it exactly when
`m` is even. For each number of digits the two neighbours of the value on that decimal grid are tried.
-/

set_option autoImplicit false

namespace Stencil.Decimal

/-- The reals that round to a double, as multiples of one unit `2 ^ scale`: the value itself, the ends of the
interval, and whether the ends belong to it. -/
structure Rounding where
  value : Nat
  low : Nat
  high : Nat
  closed : Bool
  scale : Int

/-- The interval around `m · 2 ^ q`. Below a power of two the neighbours stand half as far apart. -/
def Rounding.around (m : Nat) (q : Int) : Rounding :=
  { value := 4 * m
    low := if m = Nat.pow 2 52 ∧ Parts.lowest < q then 4 * m - 1 else 4 * m - 2
    high := 4 * m + 2
    closed := m % 2 = 0
    scale := q - 2 }

/-- Multiplying by `2 ^ scale / 10 ^ place` turns units of a rounding interval into units of a decimal grid;
the factor is kept as a fraction. -/
def gridFactor (scale place : Int) : Nat × Nat :=
  (Nat.pow 2 scale.toNat * Nat.pow 10 (-place).toNat, Nat.pow 2 (-scale).toNat * Nat.pow 10 place.toNat)

def Rounding.contains (r : Rounding) (factor : Nat × Nat) (n : Nat) : Bool :=
  let point := n * factor.2
  let low := r.low * factor.1
  let high := r.high * factor.1
  if r.closed then low ≤ point && point ≤ high else low < point && point < high

/-- The point of one decimal grid that lies in the interval nearest to the value, if the grid has any. -/
def Rounding.onGrid? (r : Rounding) (place : Int) : Option Nat :=
  let factor := gridFactor r.scale place
  let value := r.value * factor.1
  let below := value / factor.2
  let above := below + 1
  match r.contains factor below, r.contains factor above with
  | false, false => none
  | true, false => some below
  | false, true => some above
  | true, true =>
    let toBelow := value - below * factor.2
    let toAbove := above * factor.2 - value
    if toBelow < toAbove then some below
    else if toAbove < toBelow then some above
    else some (if below % 2 = 0 then below else above)

/-- The decimal exponent of the first digit of `num / den`. -/
def leadingPlace (num den : Nat) : Int :=
  if den ≤ num then ((Nat.toDigits 10 (num / den)).length : Int) - 1
  else
    let down := (Nat.toDigits 10 (den / num)).length
    if num * Nat.pow 10 (down - 1) = den then 1 - (down : Int) else -(down : Int)

structure Digits where
  digits : Nat
  place : Int
  deriving DecidableEq, Repr

def Rounding.search (r : Rounding) : Nat → Int → Digits
  | 0, place => { digits := r.value * (gridFactor r.scale place).1 / (gridFactor r.scale place).2, place }
  | tries + 1, place =>
    match r.onGrid? place with
    | some digits => { digits, place }
    | none => r.search tries (place - 1)

def shortest (m : Nat) (q : Int) : Digits :=
  let r := Rounding.around m q
  let factor := gridFactor r.scale 0
  r.search 17 (leadingPlace (r.value * factor.1) factor.2)

end Stencil.Decimal
