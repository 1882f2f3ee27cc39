import Stencil.Program.Parse

/-! Reading a whole program.

A program is a sequence of functions, each with a name, one parameter, the kind of its result and an
expression as its body. Behind a function that cannot be read, reading goes on at the next `fn`, so that the
faults of all functions come to light. Each fault belongs to the function whose name was read last before it.
-/

set_option autoImplicit false

namespace Stencil.Program

def kindOfWord? (word : String) : Option ReturnKind :=
  if word = "text" then some .text else if word = "bool" then some .boolean else none

def readKind (tokens : List Lexeme) : Reading tokens ReturnKind :=
  (expectName .returnType tokens).andThen fun word rest _ =>
    match kindOfWord? word.1 with
    | some kind => .done rest kind
    | none => .refuse rest { span := some word.2, problem := .unknownReturnType word.1 }

/-- A function behind its name; `start` is where its `fn` stands. -/
def readFunction (functions : List Function) (name : String) (start : Nat) (tokens : List Lexeme) :
    Reading tokens Declaration :=
  (expectSymbol .openParen tokens).andThen fun _ tokens _ =>
  (expectName .parameterName tokens).andThen fun parameter tokens _ =>
  (expectSymbol .closeParen tokens).andThen fun _ tokens _ =>
  (expectSymbol .arrow tokens).andThen fun _ tokens _ =>
  (readKind tokens).andThen fun kind tokens _ =>
  (expectSymbol .openBrace tokens).andThen fun _ tokens _ =>
  (readExpr { parameter := parameter.1, functions } tokens).andThen fun body tokens _ =>
  (expectSymbol .closeBrace tokens).map fun closing =>
    { name, kind, body, span := ⟨start, closing.stop⟩ }

def nextFunction (tokens : List Lexeme) : List Lexeme :=
  tokens.dropWhile fun t => !t.token.isKeyword .fn

theorem nextFunction_length_le (tokens : List Lexeme) :
    (nextFunction tokens).length ≤ tokens.length :=
  (List.dropWhile_suffix _).length_le

structure Finding where
  unit : Option String
  fault : Fault
  deriving Repr

structure Survey where
  declarations : List Declaration
  findings : List Finding
  headers : List (String × Nat)

namespace Survey

def empty : Survey := { declarations := [], findings := [], headers := [] }

def append (a b : Survey) : Survey :=
  { declarations := a.declarations ++ b.declarations
    findings := a.findings ++ b.findings
    headers := a.headers ++ b.headers }

end Survey

def surveyOf {tokens : List Lexeme} (name : String) (start : Nat) (r : Reading tokens Declaration) :
    Survey :=
  let tagged (faults : List Fault) : List Finding := faults.map fun fault => ⟨some name, fault⟩
  match r.outcome with
  | .ok declaration =>
    { declarations := [declaration], findings := tagged r.notes, headers := [(name, start)] }
  | .error fault =>
    { declarations := [], findings := tagged (r.notes ++ [fault]), headers := [(name, start)] }

/-- What follows a function: all that is left, or what comes from the next `fn` on if it was broken. -/
def resume {α : Type} {tokens : List Lexeme} (r : Reading tokens α) : List Lexeme :=
  match r.outcome with
  | .ok _ => r.rest
  | .error _ => nextFunction r.rest

theorem resume_length_le {α : Type} {tokens : List Lexeme} (r : Reading tokens α) :
    (resume r).length ≤ tokens.length := by
  unfold resume
  split
  · exact r.rest_le
  · exact Nat.le_trans (nextFunction_length_le _) r.rest_le

def strayFault (fault : Fault) : Survey :=
  { declarations := [], findings := [⟨none, fault⟩], headers := [] }

def survey (functions : List Function) (tokens : List Lexeme) : Survey :=
  match tokens with
  | [] => .empty
  | t :: after =>
    if t.token.isKeyword .fn then
      match after with
      | [] => strayFault (.unexpected .functionName [])
      | n :: rest =>
        match nameOf? n with
        | none =>
          (strayFault (.unexpected .functionName (n :: rest))).append
            (survey functions (nextFunction (n :: rest)))
        | some (name, _) =>
          let reading := readFunction functions name t.span.start rest
          (surveyOf name t.span.start reading).append (survey functions (resume reading))
    else
      (strayFault (.unexpected (.keyword .fn) (t :: after))).append
        (survey functions (nextFunction after))
termination_by tokens.length
decreasing_by
  · exact Nat.lt_succ_of_le (nextFunction_length_le _)
  · have shorter := resume_length_le (readFunction functions name t.span.start rest)
    simp only [List.length_cons]
    omega
  · exact Nat.lt_succ_of_le (nextFunction_length_le _)

/-- The function that a place belongs to: the last one that begins at it or before it. -/
def ownerAt? (headers : List (String × Nat)) (offset : Nat) : Option String :=
  (headers.reverse.find? fun h => h.2 ≤ offset).map (·.1)

def lexFinding (headers : List (String × Nat)) (e : LexError) : Finding :=
  { unit := ownerAt? headers e.span.start
    fault := { span := some e.span, problem := .noToken e.text } }

/-- The number of line feeds among the characters that begin before an offset in bytes. -/
def lineFeedsBefore : Nat → List Char → Nat
  | _, [] => 0
  | 0, _ => 0
  | offset + 1, c :: rest =>
    (if c = '\n' then 1 else 0) + lineFeedsBefore (offset + 1 - c.utf8Size) rest

def lineOf (source : String) (offset : Nat) : Nat := lineFeedsBefore offset source.toList + 1

def Fault.spanIn (fault : Fault) (source : String) : Span :=
  match fault.span with
  | some span => span
  | none => ⟨source.utf8ByteSize, source.utf8ByteSize⟩

def Finding.diagnostic (source : String) (finding : Finding) : Diagnostic :=
  let span := finding.fault.spanIn source
  { unit := finding.unit, line := lineOf source span.start, span := some span, templateLine := none
    message := finding.fault.problem.message }

/-- The functions that a program text holds, and the diagnostics of its faults in the order of their
places. -/
structure Contents where
  declarations : List Declaration
  diagnostics : List Diagnostic
  deriving Repr

def Contents.ofText (functions : List Function) (source : String) : Contents :=
  let (tokens, errors) := tokenize source
  let found := survey functions tokens
  let findings := found.findings ++ errors.map (lexFinding found.headers)
  { declarations := found.declarations
    diagnostics :=
      (findings.map (Finding.diagnostic source)).mergeSort fun a b => decide (a.start ≤ b.start) }

end Stencil.Program
