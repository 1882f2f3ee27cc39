import Stencil.Json.Literal

/-! Reading JSON texts.

A text is first read as it is written: members stay in their order with repeated keys kept, and a leaf that
stands for no value, such as a number beyond the doubles or an unpaired surrogate, is kept as such. Only what
somebody asks for is then turned into a value, so that a member nobody knows cannot spoil a text.
-/

set_option autoImplicit false

namespace Stencil.Json

/-- A JSON text as it is written. `none` marks a leaf without a value. -/
inductive Written where
  | null
  | bool (value : Bool)
  | number (value : Option Number)
  | string (value : Option String)
  | array (items : List Written)
  | object (members : List (Option String × Written))

/-- What one escape or character of a string stands for: a character, or a code that may be half of one. -/
inductive Piece where
  | char (value : Char)
  | code (value : Nat)

def isSpace (c : Char) : Bool := c = ' ' || c = '\n' || c = '\t' || c = '\r'

def skipSpace (s : List Char) : List Char := s.dropWhile isSpace

def hexValue? (c : Char) : Option Nat :=
  if c.isDigit then some (c.toNat - '0'.toNat)
  else if 'a' ≤ c ∧ c ≤ 'f' then some (c.toNat - 'a'.toNat + 10)
  else if 'A' ≤ c ∧ c ≤ 'F' then some (c.toNat - 'A'.toNat + 10)
  else none

def code? (a b c d : Char) : Option Nat := do
  let a ← hexValue? a
  let b ← hexValue? b
  let c ← hexValue? c
  let d ← hexValue? d
  return ((a * 16 + b) * 16 + c) * 16 + d

def escaped? (c : Char) : Option Char :=
  if c = '"' ∨ c = '\\' ∨ c = '/' then some c
  else if c = 'b' then some (Char.ofNat 8)
  else if c = 'f' then some (Char.ofNat 12)
  else if c = 'n' then some '\n'
  else if c = 'r' then some '\r'
  else if c = 't' then some '\t'
  else none

def readPieces : List Char → Option (List Piece × List Char)
  | [] => none
  | '"' :: rest => some ([], rest)
  | '\\' :: 'u' :: a :: b :: c :: d :: rest => do
    let n ← code? a b c d
    let (pieces, after) ← readPieces rest
    return (.code n :: pieces, after)
  | '\\' :: e :: rest => do
    let c ← escaped? e
    let (pieces, after) ← readPieces rest
    return (.char c :: pieces, after)
  | c :: rest =>
    if c.toNat < 32 then none
    else do
      let (pieces, after) ← readPieces rest
      return (.char c :: pieces, after)

def isHighSurrogate (n : Nat) : Bool := 0xD800 ≤ n && n < 0xDC00

def isLowSurrogate (n : Nat) : Bool := 0xDC00 ≤ n && n < 0xE000

/-- The characters of a string, unless half of a surrogate pair stands alone. -/
def joinPieces : List Piece → Option (List Char)
  | [] => some []
  | .char c :: rest => (joinPieces rest).map (c :: ·)
  | .code n :: .code m :: rest =>
    if isHighSurrogate n then
      if isLowSurrogate m then
        (joinPieces rest).map (Char.ofNat (0x10000 + (n - 0xD800) * 0x400 + (m - 0xDC00)) :: ·)
      else none
    else if isLowSurrogate n then none
    else (joinPieces (.code m :: rest)).map (Char.ofNat n :: ·)
  | .code n :: rest =>
    if isHighSurrogate n || isLowSurrogate n then none
    else (joinPieces rest).map (Char.ofNat n :: ·)

def readString (s : List Char) : Option (Option String × List Char) := do
  let (pieces, rest) ← readPieces s
  return ((joinPieces pieces).map String.ofList, rest)

def readDigits (s : List Char) : Option (List Char × List Char) :=
  match s.takeWhile Char.isDigit with
  | [] => none
  | digits => some (digits, s.dropWhile Char.isDigit)

/-- The whole part of a number: a single zero, or digits that start with another one. -/
def readWhole : List Char → Option (List Char × List Char)
  | '0' :: rest =>
    match rest with
    | c :: _ => if c.isDigit then none else some (['0'], rest)
    | [] => some (['0'], [])
  | s => readDigits s

def readFraction : List Char → Option (Option (List Char) × List Char)
  | '.' :: rest => do
    let (digits, rest) ← readDigits rest
    return (some digits, rest)
  | s => some (none, s)

def readExponent : List Char → Option (Option (Bool × List Char) × List Char)
  | c :: rest =>
    if c = 'e' ∨ c = 'E' then do
      let (negative, rest) := match rest with
        | '-' :: rest => (true, rest)
        | '+' :: rest => (false, rest)
        | rest => (false, rest)
      let (digits, rest) ← readDigits rest
      return (some (negative, digits), rest)
    else some (none, c :: rest)
  | [] => some (none, [])

def readNumber (s : List Char) : Option (Option Number × List Char) := do
  let (negative, s) := match s with
    | '-' :: rest => (true, rest)
    | s => (false, s)
  let (whole, s) ← readWhole s
  let (fraction, s) ← readFraction s
  let (exponent, s) ← readExponent s
  return (Literal.number? { negative, whole, fraction, exponent }, s)

mutual

/-- One value at the front of a text, and the text behind it. The bound limits the nesting. -/
def readValue : Nat → List Char → Option (Written × List Char)
  | 0, _ => none
  | bound + 1, s =>
    match skipSpace s with
    | 'n' :: 'u' :: 'l' :: 'l' :: rest => some (.null, rest)
    | 't' :: 'r' :: 'u' :: 'e' :: rest => some (.bool true, rest)
    | 'f' :: 'a' :: 'l' :: 's' :: 'e' :: rest => some (.bool false, rest)
    | '"' :: rest => do
      let (text, rest) ← readString rest
      return (.string text, rest)
    | '[' :: rest =>
      match skipSpace rest with
      | ']' :: rest => some (.array [], rest)
      | rest => do
        let (items, rest) ← readItems bound rest
        return (.array items, rest)
    | '{' :: rest =>
      match skipSpace rest with
      | '}' :: rest => some (.object [], rest)
      | rest => do
        let (members, rest) ← readMembers bound rest
        return (.object members, rest)
    | rest => do
      let (number, rest) ← readNumber rest
      return (.number number, rest)

def readItems : Nat → List Char → Option (List Written × List Char)
  | 0, _ => none
  | bound + 1, s => do
    let (item, rest) ← readValue bound s
    match skipSpace rest with
    | ',' :: rest => do
      let (items, rest) ← readItems bound rest
      return (item :: items, rest)
    | ']' :: rest => some ([item], rest)
    | _ => none

def readMembers : Nat → List Char → Option (List (Option String × Written) × List Char)
  | 0, _ => none
  | bound + 1, s =>
    match skipSpace s with
    | '"' :: rest => do
      let (key, rest) ← readString rest
      match skipSpace rest with
      | ':' :: rest => do
        let (value, rest) ← readValue bound rest
        match skipSpace rest with
        | ',' :: rest => do
          let (members, rest) ← readMembers bound rest
          return ((key, value) :: members, rest)
        | '}' :: rest => some ([(key, value)], rest)
        | _ => none
      | _ => none
    | _ => none

end

/-- A whole JSON text. Every two steps of the readers use up a character, so the bound is never met. -/
def Written.ofText? (s : String) : Option Written :=
  match readValue (2 * s.length + 2) s.toList with
  | some (written, rest) => if (skipSpace rest).isEmpty then some written else none
  | none => none

mutual

/-- The value of a text, with at most `depth` arrays and objects around a leaf. -/
def Written.value? : Nat → Written → Option Value
  | _, .null => some .null
  | _, .bool b => some (.bool b)
  | _, .number n => n.map .number
  | _, .string s => s.map .string
  | 0, .array _ => none
  | depth + 1, .array items => (itemValues? depth items).map .array
  | 0, .object _ => none
  | depth + 1, .object members => (memberValues? depth members).map Value.ofMembers

def itemValues? : Nat → List Written → Option (List Value)
  | _, [] => some []
  | depth, item :: items => do
    let value ← item.value? depth
    let values ← itemValues? depth items
    return value :: values

def memberValues? : Nat → List (Option String × Written) → Option (List (String × Value))
  | _, [] => some []
  | depth, (key, member) :: members => do
    let key ← key
    let value ← member.value? depth
    let values ← memberValues? depth members
    return (key, value) :: values

end

def nestingLimit : Nat := 127

def Value.ofText? (s : String) : Option Value := do
  let written ← Written.ofText? s
  written.value? nestingLimit

end Stencil.Json
