import Stencil.Command
import Stencil.Store.Files

/-! The command line. -/

set_option autoImplicit false

namespace Stencil

def usage : String :=
  "usage: nhaml render TEMPLATE [--layout LAYOUT | --no-layout] [--model FILE]\n" ++
  "       nhaml check TEMPLATE [--layout LAYOUT | --no-layout]\n"

def Command.plain (action : Action) (template : String) : Command :=
  { action, template, layout := none, withoutLayout := false, model := none }

def Command.withOptions? (command : Command) : List String → Option Command
  | [] => some command
  | "--no-layout" :: rest => { command with withoutLayout := true }.withOptions? rest
  | option :: value :: rest =>
    if option = "--layout" ∨ option = "-l" then { command with layout := some value }.withOptions? rest
    else if command.action = .render ∧ (option = "--model" ∨ option = "-m") then
      { command with model := some ⟨value⟩ }.withOptions? rest
    else none
  | [_] => none

def Command.ofArguments? : List String → Option Command
  | "render" :: template :: options => (Command.plain .render template).withOptions? options
  | "check" :: template :: options => (Command.plain .check template).withOptions? options
  | _ => none

def Report.line (report : Report) : String :=
  match report.mark with
  | some mark => mark.placeText ++ ": " ++ report.title ++ " (" ++ mark.label ++ ")"
  | none => report.title

def Files.fetch (files : Files) (path : Path) : IO Files := do
  try
    let text ← IO.FS.readFile path.text
    return files.insert path (.ok text)
  catch
    | .noFileOrDirectory .. => return files
    | .inappropriateType .. => return files
    | error => return files.insert path (.error { notFound := false, message := toString error })

/-- Carries out a command, adding partials as it asks for them. -/
partial def Command.runWith (command : Command) (folder : Path) (files : Files) (tried : List Path) :
    IO Outcome := do
  let outcome := command.run files.store folder
  match outcome.failure with
  | some (.compile (.partialNotFound path)) =>
    if path ∈ tried then return outcome
    else command.runWith folder (← files.fetch path) (path :: tried)
  | _ => return outcome

def Command.execute (command : Command) : IO Outcome := do
  let folder : Path := ⟨(← IO.currentDir).toString⟩
  let files ← Files.empty.fetch (folder.join ⟨Config.fileName⟩)
  let config := (Config.load? files.store folder).getD .standard
  let files ← (command.paths config folder).foldlM Files.fetch files
  command.runWith folder files []

end Stencil

open Stencil in
def main (arguments : List String) : IO UInt32 := do
  match Command.ofArguments? arguments with
  | none =>
    IO.eprint usage
    return 2
  | some command =>
    let outcome ← command.execute
    IO.print outcome.output
    for report in outcome.reports do
      IO.eprintln report.line
    match outcome.failure with
    | none => return 0
    | some failure =>
      IO.eprintln ("Error: " ++ failure.message)
      return 1
