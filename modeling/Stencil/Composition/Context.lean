import Stencil.Composition.Memo

/-! The templates that make up a view.

A view has a main template and perhaps a layout around it. A template that a directive names is a partial: its
file lies below the folder of the main template, and its file name begins with an underscore.
-/

set_option autoImplicit false

namespace Stencil

open Template (Document)

structure Context where
  layout : Option Document
  main : Document
  /-- The folder that the names of partials start from. -/
  folder : Path
  extension : String
  deriving Repr

namespace Context

/-- The tree that everything starts with. -/
def root (context : Context) : Document := context.layout.getD context.main

def load (store : Store) (layout : Option Path) (main : Path) (extension : String) :
    Except CompileError Context := do
  let layout ← layout.mapM store.loadForView
  let document ← store.loadForView main
  return { layout, main := document, folder := main.parent?.getD ⟨""⟩, extension }

/-- What the file names of partials end with: one dot and the extension, if there is one. -/
def suffix (extension : String) : List Char :=
  match extension.toList.dropWhile (· = '.') with
  | [] => []
  | name => '.' :: name

def withSuffix (suffix name : List Char) : List Char :=
  if suffix.isSuffixOf name then name else name ++ suffix

def partialFile (context : Context) (name : List Char) : Path :=
  ⟨String.ofList ('_' :: withSuffix (suffix context.extension) name)⟩

def partialPath (context : Context) (name : String) : Path :=
  let relative : Path := ⟨name⟩
  let file := context.partialFile (relative.fileName?.getD [])
  let folder := match relative.parent? with
    | some parent => if parent.text = "" then context.folder else context.folder.join parent
    | none => context.folder
  folder.join file

def resolve (context : Context) (store : Store) (memo : Memo) (name : String) :
    Except CompileError (Path × Document × Memo) :=
  let path := context.partialPath name
  match memo.find? path with
  | some document => .ok (path, document, memo)
  | none =>
    if store.holds path then do
      let document ← store.loadForView path
      return (path, document, memo.insert path document)
    else .error (.partialNotFound path)

end Context

end Stencil
