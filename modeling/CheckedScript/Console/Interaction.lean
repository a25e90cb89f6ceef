import CheckedScript.Console.Report
import CheckedScript.Repl.Basic
import CheckedScript.Repl.Complete

/-!
# Interaction at a console

Lines come in one at a time. They are gathered until their brackets and quotes are closed, then
evaluated together, and what came of it is shown. Input that is still open at the end is dropped.
-/

namespace CheckedScript

structure Interaction where
  repl : Repl
  /-- The lines gathered so far, empty if none is waiting for more. -/
  pending : String
  /-- Whether the user has asked to leave. -/
  closed : Bool

namespace Interaction

def start (limits : Limits) : Interaction := ⟨.start limits, "", false⟩

def languageVersion : String := "0.1.0"

def welcome : Transcript :=
  .line ("Bibi REPL v" ++ languageVersion) ++ .line "Type help() for commands, exit() to quit" ++ .line ""

def farewell : Transcript := .line "Goodbye!"

/-- The text that invites the next line. -/
def prompt (i : Interaction) : String := if i.pending.isEmpty then "bibi> " else "... "

/-- Shows what a line has led to. -/
def showResult : ReplResult → Transcript
  | .evaluated outcome origin _ =>
    let value := match outcome.lastValue with
      | some v => Transcript.line v.text
      | none => .empty
    .ofDiagnostics origin outcome.warnings ++ .lineUnlessEmpty outcome.output ++ value
  | .command message => .line message
  | .empty | .exit => .empty

def showError : ReplError → Transcript
  | .session e origin _ => .ofSessionError origin e
  | e => .reported ("Error: " ++ e.message)

/-- The input that the next line adds up to. -/
def gather (i : Interaction) (line : String) : String :=
  if i.pending.isEmpty then line else i.pending ++ "\n" ++ line

/-- Takes in one line. -/
def feed (read : FileReader) (i : Interaction) (line : String) (clock : Clock := .still) :
    Transcript × Interaction :=
  let input := i.gather line
  if isInputComplete input then
    match i.repl.evaluateLine read input clock with
    | (.ok .exit, repl) => (.empty, ⟨repl, "", true⟩)
    | (.ok result, repl) => (showResult result, ⟨repl, "", i.closed⟩)
    | (.error e, repl) => (showError e, ⟨repl.countError, "", i.closed⟩)
  else (.empty, { i with pending := input })

/-- Takes in lines until the user leaves or no line is left. Each line has a clock of its own. -/
def feedAll (read : FileReader) (clocks : Nat → Clock) (i : Interaction) : List String → Transcript
  | [] => .empty
  | line :: rest =>
    let (shown, i) := i.feed read line (clocks 0)
    if i.closed then shown else shown ++ feedAll read (fun n => clocks (n + 1)) i rest

/-- The file that taking in `line` would read. -/
def wantedFile? (i : Interaction) (line : String) : Option String :=
  let input := i.gather line
  if isInputComplete input then
    match ReplCommand.ofText? (Text.trim input.toList) with
    | some (.run argument) => (fileArgument "run" argument).toOption
    | some (.load argument) => (fileArgument "load" argument).toOption
    | _ => none
  else none

/-- A line without the carriage return that may stand before its line feed. -/
def withoutReturn (line : String) : String :=
  if line.endsWith "\r" then .ofList line.toList.dropLast else line

/-- The lines of a text. Only what follows the last line feed may lack one, and is then kept whole. -/
def linesOf (input : String) : List String :=
  let parts := input.splitOn "\n"
  let rest := parts.getLastD ""
  parts.dropLast.map withoutReturn ++ if rest.isEmpty then [] else [rest]

/-- A whole interaction whose lines are those of `input`. -/
def transcript (read : FileReader) (clocks : Nat → Clock) (limits : Limits) (input : String) :
    Transcript :=
  welcome ++ (start limits).feedAll read clocks (linesOf input) ++ farewell

end Interaction

end CheckedScript
