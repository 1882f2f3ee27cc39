import Stencil.Store.Basic

/-! Documents that have been read before.

A document is remembered under the path it was read from, and found again by every path that agrees with it.
-/

set_option autoImplicit false

namespace Stencil

open Template (Document)

structure Memo where
  documents : List (Path × Document)
  deriving Repr

namespace Memo

def empty : Memo := { documents := [] }

def find? (memo : Memo) (path : Path) : Option Document :=
  (memo.documents.find? fun entry => entry.1.agrees path).map (·.2)

def insert (memo : Memo) (path : Path) (document : Document) : Memo :=
  { documents := memo.documents ++ [(path, document)] }

def size (memo : Memo) : Nat := memo.documents.length

@[simp] theorem find?_empty (path : Path) : empty.find? path = none := rfl

theorem find?_insert_of_agrees {memo : Memo} {path other : Path} {document : Document}
    (new : memo.find? other = none) (same : path.agrees other = true) :
    (memo.insert path document).find? other = some document := by
  simp only [find?, Option.map_eq_none_iff] at new
  simp [find?, insert, List.find?_append, new, same]

end Memo

end Stencil
