import CheckedScript.Session
import CheckedScript.Source.Files
import CheckedScript.Text.Blank

/-!
# The interactive session

A line is a command, or else code that runs in a session which outlives the line. Commands inspect
the session, run files in it, or keep the text of a file for later.
-/

namespace CheckedScript

/-- What is counted over the lines of an interactive session. -/
structure ReplStats where
  runsCompleted : Nat
  errorsEncountered : Nat
  commandsExecuted : Nat
deriving DecidableEq, Inhabited

def ReplStats.text (s : ReplStats) : String :=
  s!"Session Statistics:\n  Runs completed: {s.runsCompleted}\n" ++
    s!"  Errors encountered: {s.errorsEncountered}\n  Commands executed: {s.commandsExecuted}"

/-- The text of a file that waits to be run. -/
structure LoadedSource where
  path : String
  text : String
deriving DecidableEq, Inhabited

structure Repl where
  session : Session
  stats : ReplStats
  loaded : Option LoadedSource

/-- What a line has led to. -/
inductive ReplResult where
  /-- Code ran to its end; `origin` names where it came from. -/
  | evaluated (outcome : RunOutcome) (origin text : String)
  | command (message : String)
  | empty
  | exit

inductive ReplError where
  | session (error : SessionError) (origin text : String)
  | unreadable (path : String) (error : FileError)
  | command (message : String)

def ReplError.message : ReplError → String
  | session error _ _ => error.message
  | unreadable path error => s!"Could not read '{path}': {error.message}"
  | command message => message

inductive ReplCommand where
  | exit
  | help
  | clear
  | symbols
  | stats
  | runLoaded
  | run (argument : List Char)
  | load (argument : List Char)
deriving DecidableEq, Inhabited

/-- The text between the parentheses of a call of `name` that makes up the whole text. -/
def callArgument? (name : String) (text : List Char) : Option (List Char) :=
  let opening := name.toList ++ ['(']
  if opening.isPrefixOf text then
    let rest := text.drop opening.length
    if rest.getLast? = some ')' then some rest.dropLast else none
  else none

/-- The command that a trimmed line gives, if it gives one. -/
def ReplCommand.ofText? (text : List Char) : Option ReplCommand :=
  match String.ofList text with
  | "exit()" => some .exit
  | "help()" => some .help
  | "clear()" => some .clear
  | "symbols()" => some .symbols
  | "stats()" => some .stats
  | "run_loaded()" => some .runLoaded
  | _ =>
    match callArgument? "run" text with
    | some argument => some (.run argument)
    | none => (callArgument? "load" text).map .load

def helpText : String :=
  "Bibi REPL Commands:\n" ++
  "  help()              Show this help message\n" ++
  "  symbols()           List every declared symbol with its type and value\n" ++
  "  clear()             Forget all declarations and reset the session\n" ++
  "  stats()             Show session statistics\n" ++
  "  run(\"file.bibi\")    Execute a file in this session\n" ++
  "  load(\"file.bibi\")   Read a file without executing it\n" ++
  "  run_loaded()        Execute the most recently loaded file\n" ++
  "  exit()              Exit the REPL\n" ++
  "\n" ++
  "Examples:\n" ++
  "  int x = 42;\n" ++
  "  func double(int n) int \x7b return n * 2; \x7d\n" ++
  "  print double(x);\n" ++
  "\n" ++
  "Multi-line input continues (with a ... prompt) until every brace is closed.\n" ++
  "Use Ctrl+C to cancel input, Ctrl+D to exit."

/-- The path in the argument of a command, which may stand between quotes. -/
def fileArgument (command : String) (argument : List Char) : Except ReplError String :=
  let isQuote (c : Char) : Bool := c == '"' || c == '\''
  let opened := (Text.trim argument).dropWhile isQuote
  let path := (opened.reverse.dropWhile isQuote).reverse
  if path.isEmpty then
    .error (.command ("Missing filename. Usage: " ++ command ++ "(\"file.bibi\")"))
  else .ok (.ofList path)

/-- The text of the file that a command names. -/
def readArgument (read : FileReader) (command : String) (argument : List Char) :
    Except ReplError LoadedSource := do
  let path ← fileArgument command argument
  match read path with
  | .ok text => return ⟨path, text⟩
  | .error e => throw (.unreadable path e)

namespace Repl

def start (limits : Limits) : Repl := ⟨.start limits, ⟨0, 0, 0⟩, none⟩

/-- The name under which typed code is reported. -/
def typedOrigin : String := "<repl>"

/-- Runs code in the session. -/
def execute (r : Repl) (origin text : String) (clock : Clock) :
    Except ReplError ReplResult × Repl :=
  match r.session.run text clock with
  | (.ok outcome, session) =>
    let stats := { r.stats with runsCompleted := r.stats.runsCompleted + 1 }
    (.ok (.evaluated outcome origin text), { r with session := session, stats := stats })
  | (.error e, session) => (.error (.session e origin text), { r with session := session })

def perform (read : FileReader) (r : Repl) (clock : Clock) :
    ReplCommand → Except ReplError ReplResult × Repl
  | .exit => (.ok .exit, r)
  | .help => (.ok (.command helpText), r)
  | .clear => (.ok (.command "Symbol table cleared."), { r with session := r.session.clear })
  | .symbols => (.ok (.command r.session.store.describe), r)
  | .stats => (.ok (.command r.stats.text), r)
  | .runLoaded =>
    match r.loaded with
    | some loaded => r.execute loaded.path loaded.text clock
    | none =>
      (.error (.command "No code has been loaded. Use load(\"file.bibi\") first."), r)
  | .run argument =>
    match readArgument read "run" argument with
    | .ok source => r.execute source.path source.text clock
    | .error e => (.error e, r)
  | .load argument =>
    match readArgument read "load" argument with
    | .ok source =>
      let message :=
        s!"Loaded file: {source.path}\nType 'run_loaded()' to execute the loaded code"
      (.ok (.command message), { r with loaded := some source })
    | .error e => (.error e, r)

def countCommand (r : Repl) : Repl :=
  { r with stats := { r.stats with commandsExecuted := r.stats.commandsExecuted + 1 } }

def countError (r : Repl) : Repl :=
  { r with stats := { r.stats with errorsEncountered := r.stats.errorsEncountered + 1 } }

/-- Evaluates a line: nothing for a blank or a comment, a command, or code. A command is counted
after it was performed. What runs goes by the given clock. -/
def evaluateLine (read : FileReader) (r : Repl) (line : String) (clock : Clock := .still) :
    Except ReplError ReplResult × Repl :=
  let text := Text.trim line.toList
  if text.isEmpty || ['/', '/'].isPrefixOf text then (.ok .empty, r)
  else
    match ReplCommand.ofText? text with
    | some command =>
      let (result, r) := r.perform read clock command
      (result, r.countCommand)
    | none => r.execute typedOrigin (.ofList text) clock

end Repl

end CheckedScript
