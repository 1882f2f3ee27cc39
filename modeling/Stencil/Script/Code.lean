import Stencil.Script.Basic
import Stencil.Template.Scan

/-! Code lines and directives.

A code line is an `if` with a condition in brackets, or an `else`. A directive is `yield`, or `render` with a
name in single quotes; any other directive asks for nothing.
-/

set_option autoImplicit false

namespace Stencil.Script

open Template

def afterKeyword? (keyword : String) (text : List Char) : Option (List Char) :=
  if keyword.toList.isPrefixOf text then
    match text.drop keyword.length with
    | [] => some []
    | c :: rest => if Text.isBlank c || c = '(' || c = '\'' then some (c :: rest) else none
  else none

/-- Whether the round brackets of a text match, strings aside. -/
def isBalanced (text : List Char) : Bool :=
  match closeBracket '(' ')' (text ++ [')']) with
  | some (_, rest) => rest.isEmpty
  | none => false

def nonempty (text : List Char) : Except ConditionFault (List Char) :=
  let condition := Text.trim text
  if condition.isEmpty then .error .empty else .ok condition

/-- The condition behind `if`. One pair of brackets around all of it is taken off. -/
def condition (text : List Char) : Except ConditionFault (List Char) :=
  let text := Text.trim text
  match text with
  | '(' :: inner =>
    match closeBracket '(' ')' inner with
    | some (body, []) => nonempty body
    | some (_, rest) => if isBalanced rest then nonempty text else .error (.unbalanced (String.ofList text))
    | none => .error (.unbalanced (String.ofList text))
  | _ => .error .notParenthesized

def codeScript (content : String) (line : Nat) (body : List Instruction) : List Instruction :=
  let code := Text.trim content.toList
  if code = [] then []
  else
    match afterKeyword? "if" code with
    | some rest =>
      match condition rest with
      | .ok found => [.choose (String.ofList found) line body]
      | .error fault => [.fail (.malformedCode line fault)]
    | none =>
      if code = "else".toList then [.otherwise line body]
      else [.fail (.unsupportedCode line (String.ofList code))]

def quotedName? : List Char → Option String
  | '\'' :: rest =>
    if rest.contains '\'' then
      let name := Text.trim (rest.takeWhile (· ≠ '\''))
      if name.isEmpty then none else some (String.ofList name)
    else none
  | _ => none

def target? (directive : String) : Option Target :=
  let text := Text.trim directive.toList
  if text = "yield".toList then some .main
  else ((afterKeyword? "render" text).bind fun rest => quotedName? (Text.trim rest)).map .named

def directiveScript (directive : String) : List Instruction :=
  match target? directive with
  | some target => [.pull target]
  | none => []

end Stencil.Script
