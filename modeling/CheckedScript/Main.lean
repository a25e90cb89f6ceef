import CheckedScript.CommandLine.Response

/-!
# The program

Reads the real files and the real input for the commands, and writes what they answer.
-/

namespace CheckedScript.CommandLine

def write (t : Transcript) : IO Unit := do
  let output ← IO.getStdout
  output.putStr t.output
  output.flush
  (← IO.getStderr).putStr t.report

def readFile (path : String) : IO (Except FileError String) := do
  try return .ok (← IO.FS.readFile path)
  catch e => match e with
    | .noFileOrDirectory .. => return .error .notFound
    | e => return .error (.system (toString e))

partial def readAll (input : IO.FS.Stream) (front : String) : IO String := do
  let line ← input.getLine
  if line.isEmpty then return front else readAll input (front ++ line)

/-- Takes in the lines of the input one at a time, so that each is answered before the next. -/
partial def interact (input : IO.FS.Stream) (prompts : Bool) (i : Interaction) : IO Unit := do
  if prompts then write ⟨i.prompt, ""⟩
  match Interaction.linesOf (← input.getLine) with
  | [] => return
  | line :: _ =>
    let file ← match i.wantedFile? line with
      | some path => readFile path
      | none => pure (.error .notFound)
    let (shown, i) := i.feed (fun _ => file) line
    write shown
    unless i.closed do interact input prompts i

def perform (command : Command) : IO UInt32 := do
  let input ← IO.getStdin
  match command with
  | .repl limits =>
    write Interaction.welcome
    interact input (← input.isTty) (.start limits)
    write Interaction.farewell
    return 0
  | command =>
    let wholeInput ← if command.file? = some "-" then readAll input "" else pure ""
    let file ← match command.file? with
      | some path => readFile path
      | none => pure (.error .notFound)
    let response := command.perform (fun _ => file) (fun _ => .still) wholeInput
    write response.transcript
    return response.exitCode.toUInt32

end CheckedScript.CommandLine

open CheckedScript CommandLine in
def main (arguments : List String) : IO UInt32 := do
  match Request.ofArguments arguments with
  | .ok (.perform command) => perform command
  | _ =>
    let response := respond (fun _ => .error .notFound) "" arguments
    write response.transcript
    return response.exitCode.toUInt32
