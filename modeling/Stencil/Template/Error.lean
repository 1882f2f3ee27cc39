/-! What can be wrong with a template. -/

set_option autoImplicit false

namespace Stencil.Template

inductive LeafLine where
  | docType
  | evaluated
  | directive
  | text
  deriving DecidableEq, Repr

def LeafLine.name : LeafLine → String
  | .docType => "Doctype"
  | .evaluated => "Evaluated line"
  | .directive => "Partial"
  | .text => "Text"

/-- The attributes that have a sign of their own: a dot for the class, a hash for the id. -/
inductive Shorthand where
  | dot
  | hash
  deriving DecidableEq, Repr

def Shorthand.name : Shorthand → String
  | .dot => "class"
  | .hash => "id"

inductive TagFault where
  | mixedIndentation
  | inconsistentIndentation (expected found : Nat)
  | nestedContent (leaf : LeafLine) (line : Nat)
  | selfClosingNested
  | nameExpected
  | malformedNamespace (name : String)
  | emptyShorthand (kind : Shorthand)
  | selfClosingContent
  | unexpectedAfter (rest tag : String)
  | mismatchedBracket (bracket : Char)
  | unterminatedInCollection
  | unclosedCollection
  | malformedAttribute (text : String)
  | attributeWithoutValue (name : String)
  | unterminatedString (text : String)
  | strayInAttributes
  | unsupportedValue (name : String)
  deriving DecidableEq, Repr

def TagFault.message : TagFault → String
  | .mixedIndentation => "Indentation mixes tabs and spaces"
  | .inconsistentIndentation expected found =>
    "Inconsistent indentation: expected " ++ toString expected ++ " but found " ++ toString found
  | .nestedContent leaf line =>
    leaf.name ++ " on line " ++ toString line ++ " cannot have nested content"
  | .selfClosingNested => "Self-closing tag cannot have nested content"
  | .nameExpected => "Tag name expected after '%'"
  | .malformedNamespace name => "Malformed namespaced tag name \"" ++ name ++ "\""
  | .emptyShorthand kind => "Empty " ++ kind.name ++ " shorthand"
  | .selfClosingContent => "Self-closing tag cannot have content"
  | .unexpectedAfter rest tag => "Unexpected \"" ++ rest ++ "\" after tag " ++ tag
  | .mismatchedBracket bracket =>
    "Mismatched '" ++ bracket.toString ++ "' in attribute collection"
  | .unterminatedInCollection => "Unterminated string in attribute collection"
  | .unclosedCollection => "AttributeCollection tag must be closed by a matching bracket"
  | .malformedAttribute text => "Malformed HTML attribute \"" ++ text ++ "\""
  | .attributeWithoutValue name => "Attribute \"" ++ name ++ "\" has no value"
  | .unterminatedString text => "Unterminated string " ++ text
  | .strayInAttributes => "Only attributes may appear in an attribute list"
  | .unsupportedValue name => "Unsupported value for attribute \"" ++ name ++ "\""

inductive VariableFault where
  | emptyExpression
  | malformed (text : String)
  deriving DecidableEq, Repr

def VariableFault.message : VariableFault → String
  | .emptyExpression => "empty expression"
  | .malformed text => text

inductive ParseError where
  | tag (line : Nat) (fault : TagFault)
  | variable (line : Nat) (fault : VariableFault)
  deriving DecidableEq, Repr

def ParseError.line : ParseError → Nat
  | .tag line _ => line
  | .variable line _ => line

def ParseError.message : ParseError → String
  | .tag line fault => "Malformed tag on line " ++ toString line ++ " : " ++ fault.message
  | .variable line fault => "Malformed variable on line " ++ toString line ++ " : " ++ fault.message

end Stencil.Template
