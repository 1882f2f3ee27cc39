import Stencil.Diagnostic
import Stencil.Program.Token

/-! Cutting a program text into pieces.

Every text is a sequence of pieces, one behind the other: tokens, blanks and comments, and stretches that are
no token. Each piece is the longest that starts at its place. A string without an end reaches to the end of
the text, or to a backslash with nothing behind it on its line.
-/

set_option autoImplicit false

namespace Stencil.Program

inductive PieceKind where
  | token (token : Token)
  | skipped
  | bad
  deriving Repr

structure Piece where
  kind : PieceKind
  text : List Char
  deriving Repr

def isSpace (c : Char) : Bool := c = ' ' || c = '\t' || c = '\r' || c = '\n' || c.toNat = 12

def isNameStart (c : Char) : Bool := c.isAlpha || c = '_'

def isNamePart (c : Char) : Bool := c.isAlphanum || c = '_'

def numberOf (digits : List Char) : Nat := digits.foldl (fun n c => n * 10 + (c.toNat - '0'.toNat)) 0

def largestInteger : Nat := Nat.pow 2 63 - 1

def wordToken (word : String) : Token :=
  match Keyword.ofText? word with
  | some k => .keyword k
  | none => .name word

/-- An integer that does not fit 64 bits is no token. -/
def integerKind (digits : List Char) : PieceKind :=
  let n := numberOf digits
  if n ≤ largestInteger then .token (.integer n) else .bad

def floatKind (whole fraction : List Char) : PieceKind :=
  .token (.float (Float.ofScientific (numberOf (whole ++ fraction)) true fraction.length))

def resolveEscapes : List Char → List Char
  | '\\' :: 'n' :: rest => '\n' :: resolveEscapes rest
  | '\\' :: 't' :: rest => '\t' :: resolveEscapes rest
  | '\\' :: 'r' :: rest => '\r' :: resolveEscapes rest
  | '\\' :: c :: rest => c :: resolveEscapes rest
  | ['\\'] => []
  | c :: rest => c :: resolveEscapes rest
  | [] => []

/-- The inside of a string behind its opening quote, and what follows it: the closing quote and the rest of
the text, or the place where the string breaks off. -/
def cutString (quote : Char) : List Char → List Char × List Char
  | [] => ([], [])
  | ['\\'] => ([], ['\\'])
  | '\\' :: c :: rest =>
    if c = '\n' then ([], '\\' :: c :: rest)
    else ('\\' :: c :: (cutString quote rest).1, (cutString quote rest).2)
  | c :: rest =>
    if c = quote then ([], c :: rest)
    else (c :: (cutString quote rest).1, (cutString quote rest).2)

def symbolOf? (symbols : List Symbol) (text : List Char) : Option Symbol :=
  symbols.find? fun s => s.text.toList = text

theorem cutString_append (quote : Char) (text : List Char) :
    (cutString quote text).1 ++ (cutString quote text).2 = text := by
  fun_induction cutString quote text <;> simp_all

structure Cut where
  kind : PieceKind
  tail : List Char
  rest : List Char

def cutWhile (kind : List Char → PieceKind) (p : Char → Bool) (rest : List Char) : Cut :=
  ⟨kind (rest.takeWhile p), rest.takeWhile p, rest.dropWhile p⟩

def numberPiece (whole tail after : List Char) : Cut :=
  match after with
  | '.' :: d :: more =>
    if d.isDigit then
      ⟨floatKind whole (d :: more.takeWhile Char.isDigit), tail ++ '.' :: d :: more.takeWhile Char.isDigit,
        more.dropWhile Char.isDigit⟩
    else ⟨integerKind whole, tail, after⟩
  | _ => ⟨integerKind whole, tail, after⟩

def stringPiece (quote : Char) (rest : List Char) : Cut :=
  match cutString quote rest with
  | (inner, q :: after) =>
    if q = quote then ⟨.token (.string (String.ofList (resolveEscapes inner))), inner ++ [q], after⟩
    else ⟨.bad, inner, q :: after⟩
  | (inner, []) => ⟨.bad, inner, []⟩

def shortPiece (c : Char) (rest : List Char) : Cut :=
  match symbolOf? Symbol.short [c] with
  | some s => ⟨.token (.symbol s), [], rest⟩
  | none => ⟨.bad, [], rest⟩

def symbolPiece (c : Char) (rest : List Char) : Cut :=
  match rest with
  | [] => shortPiece c []
  | d :: more =>
    if c = '/' ∧ d = '/' then ⟨.skipped, d :: more.takeWhile (· ≠ '\n'), more.dropWhile (· ≠ '\n')⟩
    else
      match symbolOf? Symbol.long [c, d] with
      | some s => ⟨.token (.symbol s), [d], more⟩
      | none => shortPiece c (d :: more)

def nextPiece (c : Char) (rest : List Char) : Cut :=
  if isSpace c then cutWhile (fun _ => .skipped) isSpace rest
  else if isNameStart c then
    cutWhile (fun tail => .token (wordToken (String.ofList (c :: tail)))) isNamePart rest
  else if c.isDigit then
    numberPiece (c :: rest.takeWhile Char.isDigit) (rest.takeWhile Char.isDigit)
      (rest.dropWhile Char.isDigit)
  else if c = '"' ∨ c = '\'' then stringPiece c rest
  else symbolPiece c rest

theorem numberPiece_append (whole tail after : List Char) :
    (numberPiece whole tail after).tail ++ (numberPiece whole tail after).rest = tail ++ after := by
  unfold numberPiece
  split
  · split <;> simp
  · rfl

theorem stringPiece_append (quote : Char) (rest : List Char) :
    (stringPiece quote rest).tail ++ (stringPiece quote rest).rest = rest := by
  have whole := cutString_append quote rest
  unfold stringPiece
  split
  · rename_i inner q after same
    rw [same] at whole
    split
    · simpa using whole
    · exact whole
  · rename_i inner same
    rw [same] at whole
    exact whole

theorem shortPiece_append (c : Char) (rest : List Char) :
    (shortPiece c rest).tail ++ (shortPiece c rest).rest = rest := by
  unfold shortPiece
  split <;> rfl

theorem symbolPiece_append (c : Char) (rest : List Char) :
    (symbolPiece c rest).tail ++ (symbolPiece c rest).rest = rest := by
  unfold symbolPiece
  split
  · exact shortPiece_append c []
  · split
    · simp
    · split
      · rfl
      · exact shortPiece_append c _

theorem nextPiece_append (c : Char) (rest : List Char) :
    (nextPiece c rest).tail ++ (nextPiece c rest).rest = rest := by
  unfold nextPiece
  split
  · simp [cutWhile]
  split
  · simp [cutWhile]
  split
  · rw [numberPiece_append]
    exact List.takeWhile_append_dropWhile
  split
  · exact stringPiece_append c rest
  · exact symbolPiece_append c rest

def pieces : List Char → List Piece
  | [] => []
  | c :: rest =>
    ⟨(nextPiece c rest).kind, c :: (nextPiece c rest).tail⟩ :: pieces (nextPiece c rest).rest
termination_by text => text.length
decreasing_by
  have total := congrArg List.length (nextPiece_append c rest)
  simp only [List.length_append] at total
  simp only [List.length_cons]
  omega

theorem flatMap_pieces (text : List Char) : (pieces text).flatMap Piece.text = text := by
  induction text using pieces.induct with
  | case1 => simp [pieces]
  | case2 c rest ih =>
    rw [pieces, List.flatMap_cons, ih]
    simp [nextPiece_append]

def byteLength (text : List Char) : Nat := text.foldl (fun length c => length + c.utf8Size) 0

structure Lexeme where
  token : Token
  span : Span
  deriving Repr

structure LexError where
  span : Span
  text : List Char
  deriving DecidableEq, Repr

def placed (offset : Nat) : List Piece → List (Span × Piece)
  | [] => []
  | piece :: rest =>
    let stop := offset + byteLength piece.text
    (⟨offset, stop⟩, piece) :: placed stop rest

def lexeme? : Span × Piece → Option Lexeme
  | (span, ⟨.token token, _⟩) => some { token, span }
  | _ => none

def lexError? : Span × Piece → Option LexError
  | (span, ⟨.bad, text⟩) => some { span, text }
  | _ => none

def tokenize (source : String) : List Lexeme × List LexError :=
  let all := placed 0 (pieces source.toList)
  (all.filterMap lexeme?, all.filterMap lexError?)

end Stencil.Program
