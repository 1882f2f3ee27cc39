import Stencil.CompileError
import Stencil.Template.Reader

/-! Where template texts come from.

A store answers two questions about a path: whether a file is there, and what is in it. It holds finitely
many texts, whatever paths lead to them.
-/

set_option autoImplicit false

namespace Stencil

structure ReadError where
  notFound : Bool
  message : String
  deriving DecidableEq, Repr

structure Store where
  holds : Path → Bool
  read : Path → Except ReadError String
  /-- All the texts that reading can give. -/
  texts : List String
  mem_texts : ∀ {path : Path} {text : String}, read path = .ok text → text ∈ texts

inductive LoadError where
  | unreadable (error : ReadError)
  | malformed (error : Template.ParseError)
  deriving DecidableEq, Repr

namespace LoadError

def message : LoadError → String
  | .unreadable error => "IO error: " ++ error.message
  | .malformed error => "Parse error: " ++ error.message

def isNotFound : LoadError → Bool
  | .unreadable error => error.notFound
  | .malformed _ => false

def forView (path : Path) : LoadError → CompileError
  | .unreadable error =>
    if error.notFound then .partialNotFound path else .templateLoad path error.message
  | .malformed error => .template error

end LoadError

def Store.load (store : Store) (path : Path) : Except LoadError Template.Document :=
  match store.read path with
  | .error error => .error (.unreadable error)
  | .ok text => (Template.Document.ofText text).mapError .malformed

def Store.loadForView (store : Store) (path : Path) : Except CompileError Template.Document :=
  (store.load path).mapError (·.forView path)

theorem Store.exists_text_of_load {store : Store} {path : Path} {document : Template.Document}
    (h : store.load path = .ok document) :
    ∃ text ∈ store.texts, Template.Document.ofText text = .ok document := by
  unfold load at h
  split at h
  · cases h
  · rename_i text found
    refine ⟨text, store.mem_texts found, ?_⟩
    cases parsed : Template.Document.ofText text with
    | error fault =>
      rw [parsed] at h
      cases h
    | ok document =>
      rw [parsed] at h
      cases h
      rfl

end Stencil
