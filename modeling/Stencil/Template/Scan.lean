import Stencil.Text.Blank

/-! Cutting a text at its first unprotected delimiter.

A delimiter does not count inside a quoted string, where a backslash protects the character behind it, nor
inside brackets of the kinds that a scan keeps track of. One scan serves all cuts: it carries a state along
and stops in front of the first character that the state lets count.
-/

set_option autoImplicit false

namespace Stencil.Template

section
variable {σ : Type}

/-- The text in front of the first character where `stop` holds, the state there, and the rest. -/
def cutAt (stop : σ → Char → Bool) (step : σ → Char → σ) (s : σ) :
    List Char → List Char × σ × List Char
  | [] => ([], s, [])
  | c :: rest =>
    if stop s c then ([], s, c :: rest)
    else
      let cut := cutAt stop step (step s c) rest
      (c :: cut.1, cut.2)

theorem cutAt_append (stop : σ → Char → Bool) (step : σ → Char → σ) (s : σ) (text : List Char) :
    (cutAt stop step s text).1 ++ (cutAt stop step s text).2.2 = text := by
  induction text generalizing s with
  | nil => rfl
  | cons c rest ih =>
    simp only [cutAt]
    split
    · rfl
    · simp [ih]

theorem cutAt_length (stop : σ → Char → Bool) (step : σ → Char → σ) (s : σ) (text : List Char) :
    (cutAt stop step s text).1.length + (cutAt stop step s text).2.2.length = text.length := by
  rw [← List.length_append, cutAt_append]

variable {stop : σ → Char → Bool} {step : σ → Char → σ} {s state : σ} {text front rest : List Char} {c : Char}

theorem stops_of_cutAt (cut : cutAt stop step s text = (front, state, c :: rest)) : stop state c = true := by
  induction text generalizing s front with
  | nil => cases cut
  | cons d text ih =>
    rw [cutAt] at cut
    split at cut
    · next here =>
      cases cut
      exact here
    · cases cut' : cutAt stop step (step s d) text with
      | mk front' more =>
        rw [cut'] at cut
        cases cut
        exact ih cut'

theorem append_of_cutAt {bare : σ → Bool} {closing : Char}
    (cut : cutAt (fun s c => bare s && c = closing) step s text = (front, state, c :: rest)) :
    front ++ closing :: rest = text := by
  have stops := stops_of_cutAt cut
  simp only [Bool.and_eq_true, decide_eq_true_eq] at stops
  have whole := cutAt_append (fun s c => bare s && c = closing) step s text
  rw [cut, stops.2] at whole
  exact whole

end

/-- Where a scan stands with respect to quoted strings. -/
inductive Quoting where
  | outside
  | inside (quote : Char)
  | escaped (quote : Char)
  deriving DecidableEq, Repr

def isQuote (c : Char) : Bool := c = '\'' || c = '"'

def Quoting.step : Quoting → Char → Quoting
  | .outside, c => if isQuote c then .inside c else .outside
  | .inside quote, c => if c = '\\' then .escaped quote else if c = quote then .outside else .inside quote
  | .escaped quote, _ => .inside quote

/-- The brackets open around a place, as a number, and the string around it. -/
structure Nesting where
  depth : Nat
  quoting : Quoting
  deriving DecidableEq, Repr

def Nesting.start : Nesting := ⟨0, .outside⟩

/-- The place in front of which nothing counts as protected. -/
def Nesting.isBare (n : Nesting) : Bool := n.quoting = .outside && n.depth = 0

def Nesting.step (opens closes : Char → Bool) (n : Nesting) (c : Char) : Nesting :=
  { depth :=
      if n.quoting = .outside then
        if opens c then n.depth + 1 else if closes c then n.depth - 1 else n.depth
      else n.depth
    quoting := n.quoting.step c }

/-- What lies inside and behind a bracket whose opening one has just been passed. -/
def closeBracket (opening closing : Char) (text : List Char) : Option (List Char × List Char) :=
  match cutAt (fun n c => n.isBare && c = closing) (Nesting.step (· = opening) (· = closing))
      Nesting.start text with
  | (inner, _, _ :: rest) => some (inner, rest)
  | (_, _, []) => none

def closeQuote (quote : Char) (text : List Char) : Option (List Char × List Char) :=
  match cutAt (fun q c => q = Quoting.inside quote && c = quote) Quoting.step (.inside quote) text with
  | (inner, _, _ :: rest) => some (inner, rest)
  | (_, _, []) => none

theorem append_of_closeBracket {opening closing : Char} {text inner rest : List Char}
    (closed : closeBracket opening closing text = some (inner, rest)) : inner ++ closing :: rest = text := by
  unfold closeBracket at closed
  split at closed
  · next cut =>
    cases closed
    exact append_of_cutAt cut
  · cases closed

theorem append_of_closeQuote {quote : Char} {text inner rest : List Char}
    (closed : closeQuote quote text = some (inner, rest)) : inner ++ quote :: rest = text := by
  unfold closeQuote at closed
  split at closed
  · next cut =>
    cases closed
    exact append_of_cutAt cut
  · cases closed

theorem closeBracket_length {opening closing : Char} {text inner rest : List Char}
    (h : closeBracket opening closing text = some (inner, rest)) :
    inner.length + rest.length + 1 = text.length := by
  rw [← append_of_closeBracket h, List.length_append, List.length_cons, Nat.add_assoc]

theorem closeQuote_length {quote : Char} {text inner rest : List Char}
    (h : closeQuote quote text = some (inner, rest)) :
    inner.length + rest.length + 1 = text.length := by
  rw [← append_of_closeQuote h, List.length_append, List.length_cons, Nat.add_assoc]

end Stencil.Template
