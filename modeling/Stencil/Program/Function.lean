/-! The functions that an expression can call.

Functions come in libraries. A program may call those of the libraries it refers to, and every function says
how many arguments it takes.
-/

set_option autoImplicit false

namespace Stencil.Program

inductive Function where
  | len
  | upper
  | lower
  | trim
  | join
  | contains
  | default
  | string
  deriving DecidableEq, Repr

namespace Function

def name : Function → String
  | .len => "len"
  | .upper => "upper"
  | .lower => "lower"
  | .trim => "trim"
  | .join => "join"
  | .contains => "contains"
  | .default => "default"
  | .string => "string"

def least : Function → Nat
  | .contains | .default => 2
  | _ => 1

def most : Function → Nat
  | .join | .contains | .default => 2
  | _ => 1

def accepts (f : Function) (count : Nat) : Bool := f.least ≤ count && count ≤ f.most

def arity (f : Function) : String :=
  if f.least = f.most then toString f.least else toString f.least ++ " to " ++ toString f.most

end Function

def coreLibrary : List Function :=
  [.len, .upper, .lower, .trim, .join, .contains, .default, .string]

def library? (name : String) : Option (List Function) :=
  if name = "core" then some coreLibrary else none

/-- The functions of all the libraries named, each once; names of no library add nothing. -/
def functionsOf (references : List String) : List Function :=
  (references.filterMap library?).flatten.eraseDups

def findFunction? (functions : List Function) (name : String) : Option Function :=
  functions.find? fun f => f.name = name

theorem name_of_findFunction? {functions : List Function} {name : String} {f : Function}
    (h : findFunction? functions name = some f) : f.name = name := by
  simpa using List.find?_some h

end Stencil.Program
