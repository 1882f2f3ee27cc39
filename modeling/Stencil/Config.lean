import Stencil.Options
import Stencil.Store.Basic

/-! The configuration of a folder, and where it looks for templates. -/

set_option autoImplicit false

namespace Stencil

open Json (Written Value)

structure Config where
  views : String
  /-- The layout around every template that is not given another one. -/
  layout : Option String
  options : Options
  deriving DecidableEq, Repr

def Json.Written.optionalString? : Written → Option (Option String)
  | .null => some none
  | written => written.string?.map some

namespace Config

def standard : Config := { views := "views", layout := none, options := .standard }

def fileName : String := "nhaml.config.json"

def names : List String := ["viewsDir", "layout", "compilerOptions"]

def ofWritten? (written : Written) : Option Config := do
  match ← written.fields? names with
  | [views, layout, options] =>
    let views ← Json.fieldOr Written.string? standard.views views
    let layout ← Json.fieldOr Written.optionalString? standard.layout layout
    let options ← Json.fieldOr Options.ofWritten? standard.options options
    return { views, layout, options }
  | _ => none

def ofText? (text : String) : Option Config := (Written.ofText? text).bind ofWritten?

def toValue (config : Config) : Value :=
  let layout := match config.layout with
    | some name => [("layout", .string name)]
    | none => []
  .ofMembers
    ([("viewsDir", .string config.views), ("compilerOptions", config.options.toValue)] ++ layout)

def load? (store : Store) (folder : Path) : Option Config :=
  match store.read (folder.join ⟨fileName⟩) with
  | .ok text => ofText? text
  | .error error => if error.notFound then some standard else none

def viewsPath (config : Config) (folder : Path) : Path := folder.join ⟨config.views⟩

/-- A path with the extension of templates, if it has none. An extension with a slash in it cannot be put on a
path. -/
def complete? (config : Config) (path : Path) : Option Path :=
  let extension := config.options.extension
  if path.extension?.isSome || extension = "" then some path
  else if extension.toList.contains '/' then none
  else some (path.withExtension extension)

def candidates? (config : Config) (folder : Path) (name : String) : Option (Path × Path) := do
  let near ← config.complete? (folder.join ⟨name⟩)
  let far ← config.complete? ((config.viewsPath folder).join ⟨name⟩)
  return (near, far)

/-- The path that the name of a template stands for: the nearer one when a file is there, else the other. -/
def templatePath? (config : Config) (store : Store) (folder : Path) (name : String) : Option Path :=
  (config.candidates? folder name).map fun (near, far) => if store.holds near then near else far

def layoutName (config : Config) (asked : Option String) (without : Bool) : Option String :=
  if without then none else asked.or config.layout

def layoutPath? (config : Config) (store : Store) (folder : Path) (asked : Option String) (without : Bool) :
    Option (Option Path) :=
  (config.layoutName asked without).mapM (config.templatePath? store folder)

end Config

end Stencil
