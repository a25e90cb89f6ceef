import CheckedScript.CommandLine.Command
import CheckedScript.Console.Interaction
import CheckedScript.Listing.Detailed

/-!
# Responses

What a command writes, and whether it succeeds. A source is read from a file, or from the input if
the file is named by a dash.
-/

namespace CheckedScript.CommandLine

/-- What a command has written, and the code it ends with. -/
structure Response where
  exitCode : Nat
  transcript : Transcript
deriving DecidableEq, Inhabited

namespace Response

def success (t : Transcript) : Response := ⟨0, t⟩

def failure (t : Transcript) : Response := ⟨1, t⟩

/-- The response to arguments that ask for nothing the program does. -/
def misuse (e : UsageError) : Response := ⟨2, .reported ("error: " ++ e.message)⟩

end Response

/-- A text and the name under which it is reported. -/
structure NamedSource where
  name : String
  text : String
deriving DecidableEq, Inhabited

/-- What follows the last point of a file's name, unless that point begins the name. -/
def extension? (path : String) : Option String :=
  let name := ((path.splitOn "/").getLastD "").toList.reverse
  match name.dropWhile (· != '.') with
  | [] | [_] => none
  | _ => some (.ofList (name.takeWhile (· != '.')).reverse)

/-- A word of caution about a file that is not named as the language's files are. -/
def cautionFor (path : String) : Transcript :=
  if extension? path = some "bibi" then .empty
  else .reported s!"Warning: expected a .bibi file, got: {path}"

/-- Reads a source and hands it on. -/
def withSource (read : FileReader) (input file : String) (respond : NamedSource → Response) :
    Response :=
  if file = "-" then respond ⟨"<stdin>", input⟩
  else
    match read file with
    | .ok text =>
      let response := respond ⟨file, text⟩
      { response with transcript := cautionFor file ++ response.transcript }
    | .error e => .failure (.reported s!"Could not read '{file}': {e.message}")

def runSource (limits : Limits) (clock : Clock) (showSymbols : Bool) (source : NamedSource) :
    Response :=
  let (outcome, session) := (Session.start limits).run source.text clock
  let symbols :=
    if showSymbols then Transcript.reported ("\nSymbol Table:\n" ++ session.store.describe) else .empty
  match outcome with
  | .ok r =>
    .success (.ofDiagnostics source.name r.warnings ++ .lineUnlessEmpty r.output ++ symbols)
  | .error e => .failure (.ofSessionError source.name e ++ symbols)

def checkSource (source : NamedSource) : Response :=
  match (Session.start .standard).check source.text with
  | .ok warnings =>
    .success (.ofDiagnostics source.name warnings ++
      .line s!"✅ {source.name}: {Diagnostics.summary warnings}")
  | .error e => .failure (.ofSessionError source.name e)

def parseSource (detailed : Bool) (source : NamedSource) : Response :=
  match Parsing.parseProgram source.text with
  | .ok program =>
    let text := if detailed then Listing.Detailed.programText else Listing.programText
    .success (.line (text program))
  | .error e => .failure (.ofSessionError source.name (.parse e))

/-- The file that a command reads first. -/
def Command.file? : Command → Option String
  | run file _ _ | check file | parse file _ => some file
  | repl _ => none

/-- Performs a command; `input` is the whole of what can be read besides files, and `clocks` are
those of the runs, one after the other. -/
def Command.perform (read : FileReader) (clocks : Nat → Clock) (input : String) :
    Command → Response
  | run file limits showSymbols =>
    withSource read input file (runSource limits (clocks 0) showSymbols)
  | check file => withSource read input file checkSource
  | parse file detailed => withSource read input file (parseSource detailed)
  | repl limits => .success (Interaction.transcript read clocks limits input)

def usage : String :=
  "Usage:\n" ++
  "  bibi run FILE [--max-iterations N] [--timeout SECS] [--debug]\n" ++
  "  bibi check FILE\n" ++
  "  bibi parse FILE [--spans]\n" ++
  "  bibi [repl] [--max-iterations N] [--timeout SECS] [--no-history]\n" ++
  "FILE may be '-', which stands for the standard input."

/-- Answers a command line. -/
def respond (read : FileReader) (input : String) (arguments : List String)
    (clocks : Nat → Clock := fun _ => .still) : Response :=
  match Request.ofArguments arguments with
  | .ok .version => .success (.line ("bibi " ++ Interaction.languageVersion))
  | .ok .help => .success (.line usage)
  | .ok (.perform command) => command.perform read clocks input
  | .error e => .misuse e

end CheckedScript.CommandLine
