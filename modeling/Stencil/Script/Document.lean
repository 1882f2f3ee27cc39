import Stencil.Script.Attributes
import Stencil.Script.Code

/-! The instructions of a whole tree. -/

set_option autoImplicit false

namespace Stencil.Script

open Template

def docType : String := "<!DOCTYPE html>"

def closeTag (head : TagHead) (hasContent : Bool) (content : List Instruction) : List Instruction :=
  if hasContent then .write ">" :: content ++ [.write ("</" ++ head.qualifiedName ++ ">")]
  else if head.selfClosing then [.write ">"]
  else [.write "/>"]

mutual

def ofNode : Node → List Instruction
  | .tag head attributes children =>
    .write ("<" ++ head.qualifiedName) ::
      (attributeScript attributes ++ closeTag head (!children.isEmpty) (ofNodes children))
  | .idShorthand children _ => ofNodes children
  | .classShorthand children _ => ofNodes children
  | .collection children _ => ofNodes children
  | .textLine children _ => ofNodes children
  | .htmlAttribute name children _ =>
    .write (" " ++ name ++ "=\"") :: (ofNodes children ++ [.write "\""])
  | .text content _ => [.write content]
  | .variable source line => [.print source line]
  | .eval source line => [.print source line]
  | .code content children line => codeScript content line (ofNodes children)
  | .docType _ => [.write docType]
  | .directive content _ => directiveScript content

def ofNodes : List Node → List Instruction
  | [] => []
  | node :: rest => ofNode node ++ ofNodes rest

end

def ofDocument (document : Document) : List Instruction := ofNodes document.children

end Stencil.Script
