/-! JSON values: the models that templates are rendered with.

A number is an integer that fits 64 bits, signed or unsigned, or a finite double. The members of an object
are kept in the order of their keys, each key once.
-/

set_option autoImplicit false

namespace Stencil.Json

inductive Number where
  | int (value : Int)
  | float (value : Float)
  deriving Repr

inductive Value where
  | null
  | bool (value : Bool)
  | number (value : Number)
  | string (value : String)
  | array (items : List Value)
  | object (members : List (String × Value))
  deriving Repr, Inhabited

inductive Kind where
  | null
  | bool
  | number
  | string
  | array
  | object
  deriving DecidableEq, Repr

def Kind.name : Kind → String
  | .null => "null"
  | .bool => "bool"
  | .number => "number"
  | .string => "string"
  | .array => "array"
  | .object => "object"

def Value.kind : Value → Kind
  | .null => .null
  | .bool _ => .bool
  | .number _ => .number
  | .string _ => .string
  | .array _ => .array
  | .object _ => .object

/-- The integers that count as signed 64-bit ones. -/
def Number.asInt? : Number → Option Int
  | .int n => if -(Int.pow 2 63) ≤ n ∧ n < Int.pow 2 63 then some n else none
  | .float _ => none

def floatOfInt (n : Int) : Float :=
  let size := (UInt64.ofNat n.natAbs).toFloat
  if n < 0 then -size else size

def Number.toFloat : Number → Float
  | .int n => floatOfInt n
  | .float x => x

def Number.ofFloat? (x : Float) : Option Number := if x.isFinite then some (.float x) else none

/-- A double as a value; `null` stands for one that is no number. -/
def Value.ofFloat (x : Float) : Value :=
  match Number.ofFloat? x with
  | some n => .number n
  | none => .null

def Value.ofInt (n : Int) : Value := .number (.int n)

/-- The members with `key` bound to `value`, in place of an earlier binding. -/
def insertMember (key : String) (value : Value) : List (String × Value) → List (String × Value)
  | [] => [(key, value)]
  | (k, v) :: rest =>
    if key < k then (key, value) :: (k, v) :: rest
    else if key = k then (key, value) :: rest
    else (k, v) :: insertMember key value rest

/-- The object with the given members; of several with one key the last counts. -/
def Value.ofMembers (members : List (String × Value)) : Value :=
  .object (members.foldl (fun done m => insertMember m.1 m.2 done) [])

theorem lookup_insertMember_self (key : String) (value : Value) (members : List (String × Value)) :
    (insertMember key value members).lookup key = some value := by
  induction members with
  | nil => simp [insertMember]
  | cons m rest ih =>
    obtain ⟨k, v⟩ := m
    simp only [insertMember]
    split
    · simp
    · split
      · simp
      · rename_i _ different
        have unequal : (key == k) = false := by simpa using different
        simp [List.lookup_cons, unequal, ih]

def Value.member? (key : String) : Value → Option Value
  | .object members => members.lookup key
  | _ => none

/-- Numbers are alike when both are integers or both doubles, with equal values. -/
def Number.alike : Number → Number → Bool
  | .int a, .int b => a == b
  | .float a, .float b => a == b
  | _, _ => false

mutual

def Value.alike : Value → Value → Bool
  | .null, .null => true
  | .bool a, .bool b => a == b
  | .number a, .number b => a.alike b
  | .string a, .string b => a == b
  | .array a, .array b => allAlike a b
  | .object a, .object b => membersAlike a b
  | _, _ => false

def allAlike : List Value → List Value → Bool
  | [], [] => true
  | a :: as, b :: bs => a.alike b && allAlike as bs
  | _, _ => false

def membersAlike : List (String × Value) → List (String × Value) → Bool
  | [], [] => true
  | (k, a) :: as, (l, b) :: bs => k == l && a.alike b && membersAlike as bs
  | _, _ => false

end

end Stencil.Json
