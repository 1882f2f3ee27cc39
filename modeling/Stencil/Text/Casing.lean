import Stencil.Text.Casing.Table
import Stencil.Text.Ranges

/-! Upper and lower case of a text.

Each character has a full form in the other case, which may be several characters long. One character
depends on its surroundings: a capital sigma at the end of a word has its own lower-case form. Characters
that do not take part in words (Case_Ignorable) are looked through when the end of a word is decided.
-/

set_option autoImplicit false

namespace Stencil.Text

/-- The form of `c` given by a list of expansions and a list of shifts; `c` itself when neither has one. -/
def otherCase (expansions : List (Nat × List Nat)) (shifts : List Shift) (c : Char) : List Char :=
  match expansions.lookup c.toNat with
  | some codes => codes.map Char.ofNat
  | none =>
    match shifts.findSome? (Shift.target? · c.toNat) with
    | some n => [Char.ofNat n]
    | none => [c]

def upperChar (c : Char) : List Char := otherCase upperExpansions upperShifts c

def lowerChar (c : Char) : List Char := otherCase lowerExpansions lowerShifts c

/-- Characters looked through when the end of a word is decided. -/
def isCaseIgnorable (c : Char) : Bool := inRanges ignorableRanges c.toNat

def startsCased (s : List Char) : Bool :=
  match s.dropWhile isCaseIgnorable with
  | [] => false
  | c :: _ => inRanges letterRanges c.toNat

def upper (s : List Char) : List Char := s.flatMap upperChar

/-- The lower-case form of `rest`, where `before` holds the characters in front of it, nearest first. -/
def lowerAfter (before : List Char) : List Char → List Char
  | [] => []
  | c :: rest =>
    let here :=
      if c = 'Σ' then [if startsCased before && !startsCased rest then 'ς' else 'σ'] else lowerChar c
    here ++ lowerAfter (c :: before) rest

/-- Every character in lower case; a capital sigma that ends a word takes the final form. -/
def lower (s : List Char) : List Char := lowerAfter [] s

theorem upper_append (s t : List Char) : upper (s ++ t) = upper s ++ upper t := by
  simp [upper]

end Stencil.Text
