/-! Paths, as texts whose parts are separated by slashes.

A path is kept as it is written. Two paths lead to the same file when their components agree: repeated
slashes, a slash at the end and single dots that are not the first part make no difference, and two dots
are an ordinary component. A name's extension is what follows its last dot, unless the name starts there.
-/

set_option autoImplicit false

namespace Stencil

structure Path where
  text : String
  deriving DecidableEq, Repr, Inhabited

namespace Path

inductive Component where
  | root
  | here
  | up
  | name (name : String)
  deriving DecidableEq, Repr

/-- The leading part that is a component of its own, and the parts behind it. -/
inductive Lead where
  | none
  | root
  | here
  deriving DecidableEq, Repr

def Lead.text : Lead → List Char
  | .none => []
  | .root => ['/']
  | .here => ['.']

/-- A text cut at every slash; never empty. -/
def pieces (s : List Char) : List (List Char) := s.splitOn '/'

def split (p : Path) : Lead × List (List Char) :=
  match p.text.toList with
  | '/' :: body => (.root, pieces body)
  | ['.'] => (.here, [])
  | '.' :: '/' :: body => (.here, [] :: pieces body)
  | body => (.none, pieces body)

def isTrivial (piece : List Char) : Bool := piece = [] || piece = ['.']

def dropTrivial (parts : List (List Char)) : List (List Char) :=
  (parts.reverse.dropWhile isTrivial).reverse

def component (piece : List Char) : Component :=
  if piece = ['.', '.'] then .up else .name (String.ofList piece)

def leadComponents : Lead → List Component
  | .none => []
  | .root => [.root]
  | .here => [.here]

def components (p : Path) : List Component :=
  leadComponents p.split.1 ++ (p.split.2.filter fun piece => !isTrivial piece).map component

def agrees (p q : Path) : Bool := p.components = q.components

theorem agrees_iff {p q : Path} : p.agrees q = true ↔ p.components = q.components := by
  simp [agrees]

def isAbsolute (p : Path) : Bool := p.text.toList.head? = some '/'

def assemble (lead : Lead) (parts : List (List Char)) : Path :=
  ⟨String.ofList (lead.text ++ List.intercalate ['/'] parts)⟩

/-- The path without its last component, when that is not the root. -/
def parent? (p : Path) : Option Path :=
  match (dropTrivial p.split.2).reverse with
  | _ :: before => some (assemble p.split.1 (dropTrivial before.reverse))
  | [] => if p.split.1 = .here then some ⟨""⟩ else none

/-- The last component, when it is a name. -/
def fileName? (p : Path) : Option (List Char) :=
  match (dropTrivial p.split.2).reverse with
  | piece :: _ => if piece = ['.', '.'] then none else some piece
  | [] => none

/-- A name cut at its last dot, unless it starts there. -/
def splitExtension (name : List Char) : List Char × Option (List Char) :=
  let extension := (name.reverse.takeWhile (· ≠ '.')).reverse
  let stem := name.take (name.length - extension.length - 1)
  if stem.isEmpty then (name, none) else (stem, some extension)

def extension? (p : Path) : Option (List Char) := p.fileName?.bind fun name => (splitExtension name).2

/-- The path with another extension on its file name; a path without a file name stays as it is. What
follows the file name is dropped. -/
def withExtension (p : Path) (extension : String) : Path :=
  match (dropTrivial p.split.2).reverse with
  | piece :: before =>
    if piece = ['.', '.'] then p
    else
      let suffix := if extension = "" then [] else '.' :: extension.toList
      assemble p.split.1 (before.reverse ++ [(splitExtension piece).1 ++ suffix])
  | [] => p

/-- The path `q` seen from `p`; an absolute `q` replaces `p`. -/
def join (p q : Path) : Path :=
  if q.isAbsolute then q
  else
    match p.text.toList.getLast? with
    | none => q
    | some '/' => ⟨p.text ++ q.text⟩
    | some _ => ⟨p.text ++ "/" ++ q.text⟩

end Path

end Stencil
