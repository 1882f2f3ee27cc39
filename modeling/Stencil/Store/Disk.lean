import Stencil.Store.Basic

/-! A tree of folders and files.

A place in the tree is the list of names that lead to it from the root. A path is followed part by part: two
dots lead to the folder around a place, an empty part or a single dot stays where it is, and every part but
the last one has to lead to a folder, as has whatever stands in front of a slash at the end. Neither a path nor
a name in it may be too long.
-/

set_option autoImplicit false

namespace Stencil

/-- The names from the root to a file or folder. -/
abbrev Place := List String

structure Disk where
  /-- The files, each with its text if it holds one. -/
  files : List (Place × Option String)
  /-- Folders that need not hold anything. -/
  folders : List Place
  /-- The place where paths begin that do not begin at the root. -/
  home : Place
  deriving Repr

inductive DiskFault where
  | notFound
  | notFolder
  | isFolder
  | nameTooLong
  | zeroCharacter
  | noText
  deriving DecidableEq, Repr

def DiskFault.message : DiskFault → String
  | .notFound => "No such file or directory (os error 2)"
  | .notFolder => "Not a directory (os error 20)"
  | .isFolder => "Is a directory (os error 21)"
  | .nameTooLong => "File name too long (os error 36)"
  | .zeroCharacter => "file name contained an unexpected NUL byte"
  | .noText => "stream did not contain valid UTF-8"

def DiskFault.readError (fault : DiskFault) : ReadError :=
  { notFound := fault = .notFound, message := fault.message }

namespace Disk

def empty (home : Place) : Disk := { files := [], folders := [home], home }

/-- Where a component leads from a place, whether anything is there or not. -/
def next (place : Place) : Path.Component → Place
  | .root => []
  | .here => place
  | .up => place.dropLast
  | .name name => place ++ [name]

def trail (place : Place) : List Path.Component → List Place
  | [] => []
  | component :: rest => next place component :: trail (next place component) rest

def placeOf (disk : Disk) (path : Path) : Place := path.components.foldl next disk.home

/-- The disk with one more file, and with folders on the way to it. -/
def addFile (disk : Disk) (path : Path) (content : Option String) : Disk :=
  { disk with
    files := (disk.placeOf path, content) :: disk.files
    folders := (trail disk.home path.components).dropLast ++ disk.folders }

def addFolder (disk : Disk) (path : Path) : Disk :=
  { disk with folders := trail disk.home path.components ++ disk.folders }

def file? (disk : Disk) (place : Place) : Option (Option String) := disk.files.lookup place

/-- Whether a place is the root, or a folder, or leads to something further down. -/
def isFolder (disk : Disk) (place : Place) : Bool :=
  (disk.file? place).isNone &&
    (place = [] || disk.folders.any (place.isPrefixOf ·) || disk.files.any (place.isPrefixOf ·.1))

def nameLimit : Nat := 255

def pathLimit : Nat := 4095

def follow (disk : Disk) (place : Place) (part : List Char) : Except DiskFault Place :=
  if !disk.isFolder place then .error .notFolder
  else if part = ['.', '.'] then .ok place.dropLast
  else if Path.isTrivial part then .ok place
  else
    let name := String.ofList part
    let inside := place ++ [name]
    if nameLimit < name.utf8ByteSize then .error .nameTooLong
    else if (disk.file? inside).isSome || disk.isFolder inside then .ok inside
    else .error .notFound

def locate (disk : Disk) (path : Path) : Except DiskFault Place :=
  if path.text = "" then .error .notFound
  else if path.text.toList.contains (Char.ofNat 0) then .error .zeroCharacter
  else if pathLimit < path.text.utf8ByteSize then .error .nameTooLong
  else
    let start := if path.isAbsolute then [] else disk.home
    path.split.2.foldlM disk.follow start

def text (disk : Disk) (path : Path) : Except DiskFault String := do
  let place ← disk.locate path
  match disk.file? place with
  | some (some text) => .ok text
  | some none => .error .noText
  | none => .error .isFolder

def read (disk : Disk) (path : Path) : Except ReadError String := (disk.text path).mapError (·.readError)

def holds (disk : Disk) (path : Path) : Bool :=
  match disk.locate path with
  | .ok place => (disk.file? place).isSome
  | .error _ => false

def texts (disk : Disk) : List String := disk.files.filterMap (·.2)

theorem mem_of_lookup {α β : Type} [BEq α] {entries : List (α × β)} {key : α} {value : β}
    (h : entries.lookup key = some value) : ∃ k, (k, value) ∈ entries := by
  induction entries with
  | nil => cases h
  | cons entry rest ih =>
    obtain ⟨k, v⟩ := entry
    rw [List.lookup_cons] at h
    split at h
    · cases h
      exact ⟨k, List.mem_cons_self⟩
    · obtain ⟨other, found⟩ := ih h
      exact ⟨other, List.mem_cons_of_mem _ found⟩

theorem mem_texts {disk : Disk} {path : Path} {text : String} (h : disk.read path = .ok text) :
    text ∈ disk.texts := by
  unfold read Disk.text at h
  cases located : disk.locate path with
  | error fault =>
    rw [located] at h
    cases h
  | ok place =>
    simp only [located, bind, Except.bind] at h
    split at h
    · rename_i content found
      cases h
      obtain ⟨place, member⟩ := mem_of_lookup found
      exact List.mem_filterMap.2 ⟨_, member, rfl⟩
    · cases h
    · cases h

def store (disk : Disk) : Store := { holds := disk.holds, read := disk.read, texts := disk.texts, mem_texts }

end Disk

end Stencil
