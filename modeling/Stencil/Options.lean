import Stencil.Json.Record
import Stencil.Text.Quoted
import Stencil.Units

/-! The options of a compile, and how they are written. -/

set_option autoImplicit false

namespace Stencil

open Json (Written Value)

def Sharing.keyword : Sharing → String
  | .dedupe => "dedupe"
  | .perSite => "perSite"

def Sharing.ofKeyword? (word : String) : Option Sharing :=
  if word = "dedupe" then some .dedupe else if word = "perSite" then some .perSite else none

def Sharing.describe : Sharing → String
  | .dedupe => "Dedupe"
  | .perSite => "PerSite"

structure Options where
  references : List String
  sharing : Sharing
  /-- How long a request waits for a compile, in milliseconds. -/
  timeout : Nat
  extension : String
  deriving DecidableEq, Repr

namespace Options

def standard : Options :=
  { references := ["core"], sharing := .dedupe, timeout := 30000, extension := "haml" }

def names : List String := ["references", "unitSharing", "compileTimeoutMs", "templateExtension"]

end Options

/-- A policy as it is written: its word, or an object with the word as the only key and nothing under it. -/
def Json.Written.sharing? : Written → Option Sharing
  | .string (some word) => Sharing.ofKeyword? word
  | .object [(some word, .null)] => Sharing.ofKeyword? word
  | _ => none

def Json.fieldOr {α : Type} (read : Written → Option α) (standard : α) : Option Written → Option α
  | some written => read written
  | none => some standard

namespace Options

def ofWritten? (written : Written) : Option Options := do
  match ← written.fields? names with
  | [references, sharing, timeout, extension] =>
    let references ← Json.fieldOr Written.strings? standard.references references
    let sharing ← Json.fieldOr Written.sharing? standard.sharing sharing
    let timeout ← Json.fieldOr Written.count? standard.timeout timeout
    let extension ← Json.fieldOr Written.string? standard.extension extension
    return { references, sharing, timeout, extension }
  | _ => none

def ofText? (text : String) : Option Options := (Written.ofText? text).bind ofWritten?

def toValue (options : Options) : Value :=
  .ofMembers
    [("references", .array (options.references.map .string)),
     ("unitSharing", .string options.sharing.keyword),
     ("compileTimeoutMs", .ofInt options.timeout),
     ("templateExtension", .string options.extension)]

def describe (options : Options) : String :=
  "CompileOptions \x7b references: [" ++
    String.intercalate ", " (options.references.map Text.quoted) ++
    "], unit_sharing: " ++ options.sharing.describe ++
    ", compile_timeout_ms: " ++ toString options.timeout ++
    ", template_extension: " ++ Text.quoted options.extension ++ " \x7d"

end Options

end Stencil
