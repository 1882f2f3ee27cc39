import Stencil.Template.Error
import Stencil.Text.Blank

/-! The lines of a template and the outline that their indentation draws.

Lines without visible characters do not count. The lines directly below a line that are indented deeper than
it are nested under it; the outline of a template nests every line that way, whatever the lines hold.
-/

set_option autoImplicit false

namespace Stencil.Template

/-- A line with visible characters: its number, counted from one, the length of its indentation and what
stands behind it. -/
structure Line where
  number : Nat
  indent : Nat
  content : List Char
  deriving DecidableEq, Repr

def Line.ofText? (number : Nat) (raw : List Char) : Except ParseError (Option Line) :=
  let text := Text.trimEnd raw
  let indentation := text.takeWhile Text.isBlank
  let content := Text.trimStart text
  if content.isEmpty then .ok none
  else if indentation.contains ' ' && indentation.contains '\t' then
    .error (.tag number .mixedIndentation)
  else .ok (some { number, indent := indentation.length, content })

def linesFrom (number : Nat) : List (List Char) → Except ParseError (List Line)
  | [] => .ok []
  | raw :: rest => do
    let line ← Line.ofText? number raw
    let lines ← linesFrom (number + 1) rest
    return line.toList ++ lines

def linesOf (source : String) : Except ParseError (List Line) :=
  linesFrom 1 (source.toList.splitOn '\n')

inductive Outline where
  | item (line : Line) (nested : List Outline)
  deriving Repr

def Outline.line : Outline → Line
  | .item line _ => line

def Outline.nested : Outline → List Outline
  | .item _ nested => nested

def outline : List Line → List Outline
  | [] => []
  | line :: rest =>
    .item line (outline (rest.takeWhile (line.indent < ·.indent))) ::
      outline (rest.dropWhile (line.indent < ·.indent))
termination_by lines => lines.length
decreasing_by
  · exact Nat.lt_succ_of_le (List.takeWhile_prefix _).length_le
  · exact Nat.lt_succ_of_le (List.dropWhile_suffix _).length_le

mutual

def Outline.lines : Outline → List Line
  | .item line nested => line :: outlineLines nested

def outlineLines : List Outline → List Line
  | [] => []
  | item :: rest => item.lines ++ outlineLines rest

end

/-- Outlining loses no line and keeps their order. -/
theorem outlineLines_outline (lines : List Line) : outlineLines (outline lines) = lines := by
  induction lines using outline.induct with
  | case1 => simp [outline, outlineLines]
  | case2 line rest nested after =>
    rw [outline, outlineLines, Outline.lines, nested, after]
    simp [List.takeWhile_append_dropWhile]

end Stencil.Template
