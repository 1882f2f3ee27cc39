import Stencil.Program.Lexer

/-! Texts cut at offsets.

An offset into a text counts the bytes of its UTF-8 form. A text can be cut there if the offset is not beyond its end
and does not lie inside of a character.
-/

set_option autoImplicit false

namespace Stencil.Text

structure Cut (offset : Nat) (text : List Char) where
  front : List Char
  back : List Char
  whole : front ++ back = text
  begun : offset ≠ 0 → front ≠ []

def cut? : (offset : Nat) → (text : List Char) → Option (Cut offset text)
  | 0, text => some ⟨[], text, rfl, absurd rfl⟩
  | _ + 1, [] => none
  | offset + 1, c :: rest =>
    if c.utf8Size ≤ offset + 1 then
      (cut? (offset + 1 - c.utf8Size) rest).map fun cut =>
        ⟨c :: cut.front, cut.back, congrArg (c :: ·) cut.whole, fun _ => List.cons_ne_nil _ _⟩
    else none

def slice? (start stop : Nat) (text : List Char) : Option (List Char) :=
  if start ≤ stop then do
    let upTo ← cut? stop text
    let from_ ← cut? start upTo.front
    return from_.back
  else none

def backFrom? (offset distance : Nat) : Option Nat := if distance ≤ offset then some (offset - distance) else none

namespace Cut

variable {offset : Nat} {text : List Char} (cut : Cut offset text)

theorem length_eq : cut.front.length + cut.back.length = text.length := by
  rw [← List.length_append, cut.whole]

theorem length_back_le : cut.back.length ≤ text.length := by
  have total := cut.length_eq
  omega

theorem length_back_lt (some : cut.front ≠ []) : cut.back.length < text.length := by
  have total := cut.length_eq
  have positive := List.length_pos_iff.mpr some
  omega

end Cut

end Stencil.Text
