import Stencil.Options
import Stencil.Renderer.Basic
import Stencil.Walk

/-! Compiling a view.

A compile walks the trees, asks the backend once for all units and puts their code into the ops. Documents
that the walk has read are remembered, whatever becomes of the compile.
-/

set_option autoImplicit false

namespace Stencil

def Walked.compile (walked : Walked) (backend : Backend) (references : List String) :
    Except CompileError Renderer := do
  let resolved ← walked.units.compile backend references
  Renderer.assemble walked.units.modelType walked.ops resolved

def compileView (context : Context) (store : Store) (backend : Backend) (options : Options)
    (modelType : String) (memo : Memo) : Except CompileError Renderer × Memo :=
  match walk context store memo modelType options.sharing with
  | .ok walked => (walked.compile backend options.references, walked.memo)
  | .error failure => (.error failure.error, failure.memo)

end Stencil
