import Stencil.Renderer.Run
import Stencil.View.Compile

/-! What the trees of a view say for a model.

A recital goes through a tree node by node and writes what each node stands for: fixed text as it is, a tag
with its attributes, the text of a piece of code, one branch of a choice, and another tree in place of a
directive. It knows nothing of units, ops and entry points. Where a piece of code fails, it halts.
-/

set_option autoImplicit false

namespace Stencil

open Json (Value)
open Template (Node Document)

/-- What pieces of code mean, the parameter of a piece of code being the model. -/
structure Meaning where
  text : (source : String) → Value → Except UnitError String
  holds : (source : String) → Value → Except UnitError Bool

def Meaning.entryPoint (m : Meaning) : (kind : ReturnKind) → (source : String) → EntryPoint
  | .text, source => .text (m.text source)
  | .boolean, source => .boolean (m.holds source)

structure Recital where
  text : String
  /-- The outcome of the choice right before the place, as long as no `else` has answered it. -/
  choice : Option Bool

namespace Recital

/-- How a recital ends before the end of its tree. -/
inductive Halt where
  /-- A piece of code fails, with the text before it. -/
  | failure (text : String) (kind : ReturnKind) (source : String) (error : UnitError)
  /-- The tree says nothing: no view of it can be compiled. -/
  | senseless

end Recital

abbrev Recited := Except Recital.Halt Recital

namespace Recital

def start : Recital := { text := "", choice := none }

/-- Writes a text. Only a text with something in it parts a choice from its `else`. -/
def write (r : Recital) (text : String) : Recital :=
  { text := r.text ++ text, choice := if text = "" then r.choice else none }

section
variable (m : Meaning) (model : Value)

def print (r : Recital) (source : String) : Recited :=
  match m.text source model with
  | .ok text => .ok { text := r.text ++ text, choice := none }
  | .error error => .error (.failure r.text .text source error)

def choose (r : Recital) (source : String) (body : Recital → Recited) : Recited :=
  match m.holds source model with
  | .ok true => (body { r with choice := none }).map fun r => { r with choice := some true }
  | .ok false => .ok { r with choice := some false }
  | .error error => .error (.failure r.text .boolean source error)

/-- Goes on with the body of an `else`, if the choice right before does not hold. -/
def otherwise (r : Recital) (body : Recital → Recited) : Recited :=
  match r.choice with
  | some true => .ok { r with choice := none }
  | some false => (body { r with choice := none }).map fun r => { r with choice := none }
  | none => .error .senseless

def ofExpressions : (spaced : Bool) → List (String × Nat) → Recital → Recited
  | _, [], r => .ok r
  | spaced, (source, _) :: rest, r => do
    let r ← (r.write (if spaced then " " else "")).print m model (Text.trimText source)
    ofExpressions true rest r

/-- An attribute with its name: the literal values in order, then the expressions. -/
def ofAttribute (a : Script.Attribute) (r : Recital) : Recited := do
  let r := r.write (" " ++ a.name ++ "=\"" ++ Script.escapeQuotes (String.intercalate " " a.literals))
  let r ← ofExpressions m model (!a.literals.isEmpty) a.expressions r
  return r.write "\""

def ofAttributes : List Script.Attribute → Recital → Recited
  | [], r => .ok r
  | a :: rest, r => do
    let r ← ofAttribute m model a r
    ofAttributes rest r

/-- The attributes of a tag, those of one name merged. -/
def ofAttributeList (nodes : List Node) (r : Recital) : Recited :=
  match Script.attributesOf nodes with
  | .ok found => ofAttributes m model (Script.merged found) r
  | .error _ => .error .senseless

def ofCode (content : String) (body : Recital → Recited) (r : Recital) : Recited :=
  let code := Text.trim content.toList
  if code = [] then .ok r
  else
    match Script.afterKeyword? "if" code with
    | some rest =>
      match Script.condition rest with
      | .ok found => r.choose m model (Text.trimText (String.ofList found)) body
      | .error _ => .error .senseless
    | none => if code = "else".toList then r.otherwise body else .error .senseless

def ofDirective (pull : Target → Recital → Recited) (content : String) (r : Recital) : Recited :=
  match Script.target? content with
  | some target => pull target r
  | none => .ok r

mutual

def ofNode (pull : Target → Recital → Recited) : Node → Recital → Recited
  | .tag head attributes children, r => do
    let r ← ofAttributeList m model attributes (r.write ("<" ++ head.qualifiedName))
    if children.isEmpty then return r.write (if head.selfClosing then ">" else "/>")
    else
      let r ← ofNodes pull children (r.write ">")
      return r.write ("</" ++ head.qualifiedName ++ ">")
  | .idShorthand children _, r => ofNodes pull children r
  | .classShorthand children _, r => ofNodes pull children r
  | .collection children _, r => ofNodes pull children r
  | .textLine children _, r => ofNodes pull children r
  | .htmlAttribute name children _, r => do
    let r ← ofNodes pull children (r.write (" " ++ name ++ "=\""))
    return r.write "\""
  | .text content _, r => .ok (r.write content)
  | .variable source _, r => r.print m model (Text.trimText source)
  | .eval source _, r => r.print m model (Text.trimText source)
  | .code content children _, r => ofCode m model content (fun r => ofNodes pull children r) r
  | .docType _, r => .ok (r.write Script.docType)
  | .directive content _, r => ofDirective pull content r

def ofNodes (pull : Target → Recital → Recited) : List Node → Recital → Recited
  | [], r => .ok r
  | node :: rest, r => do
    let r ← ofNode pull node r
    ofNodes pull rest r

end

variable (context : Context) (memo : Memo)

/-- The tree that comes in place of a directive; a partial is the document that is remembered for its path. -/
def tree? : Target → Option Document
  | .main => some context.main
  | .named name => memo.find? (context.partialPath name)

/-- The tree that a target leads to. No more than `depth` trees come inside each other. -/
def ofTarget : (depth : Nat) → Target → Recital → Recited
  | 0, _, _ => .error .senseless
  | depth + 1, target, r =>
    match tree? context memo target with
    | some document => ofNodes m model (ofTarget depth) document.children r
    | none => .error .senseless

def ofView (depth : Nat) : Recited := ofNodes m model (ofTarget m model context memo depth) context.root.children start

end

end Recital

/-- Whether a rendering is what a recital comes to: all of the text, or the text before the piece of code that
fails, with the failure of a unit of that piece of code. -/
def Rendering.Recites (rendering : Rendering) (units : List CodeUnit) : Recited → Prop
  | .ok r => rendering.text = r.text ∧ rendering.error = none
  | .error (.failure text kind source error) =>
    rendering.text = text ∧
      ∃ unit ∈ units, unit.kind = kind ∧ unit.source = source ∧
        rendering.error = some (.expression unit.name error)
  | .error .senseless => False

end Stencil
