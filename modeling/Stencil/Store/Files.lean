import Stencil.Store.Basic

/-! Files kept in memory.

Each file is found by any path that agrees with the one it was put under, and holds a text or fails to be
read.
-/

set_option autoImplicit false

namespace Stencil

structure Files where
  entries : List (Path × Except ReadError String)

namespace Files

def empty : Files := { entries := [] }

def find? (files : Files) (path : Path) : Option (Except ReadError String) :=
  (files.entries.find? fun entry => entry.1.agrees path).map (·.2)

/-- The files with one more, in place of one under an agreeing path. -/
def insert (files : Files) (path : Path) (file : Except ReadError String) : Files :=
  { entries := (path, file) :: files.entries.filter fun entry => !entry.1.agrees path }

def holds (files : Files) (path : Path) : Bool := (files.find? path).isSome

def read (files : Files) (path : Path) : Except ReadError String :=
  match files.find? path with
  | some file => file
  | none => .error { notFound := true, message := path.text ++ " not found" }

def texts (files : Files) : List String := files.entries.filterMap fun entry => entry.2.toOption

theorem mem_texts {files : Files} {path : Path} {text : String} (h : files.read path = .ok text) :
    text ∈ files.texts := by
  unfold read at h
  split at h
  · rename_i file found
    simp only [find?, Option.map_eq_some_iff] at found
    obtain ⟨entry, found, same⟩ := found
    refine List.mem_filterMap.2 ⟨entry, List.mem_of_find?_eq_some found, ?_⟩
    rw [same, h]
    rfl
  · cases h

def store (files : Files) : Store := { holds := files.holds, read := files.read, texts := files.texts, mem_texts }

theorem find?_insert_of_agrees {files : Files} {path other : Path} {file : Except ReadError String}
    (h : path.agrees other = true) : (files.insert path file).find? other = some file := by
  simp [find?, insert, h]

end Files

end Stencil
