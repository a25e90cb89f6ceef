import CheckedScript.CommandLine.Arguments
import CheckedScript.Execution.Limits
import CheckedScript.Number.Word

/-!
# Commands

What the arguments of the program ask for. Without a command an interactive session is asked for.
-/

namespace CheckedScript.CommandLine

inductive Command where
  /-- Run a file, and show the symbols it leaves if they are asked for. -/
  | run (file : String) (limits : Limits) (showSymbols : Bool)
  | check (file : String)
  /-- Show the syntax tree of a file, in full detail if that is asked for. -/
  | parse (file : String) (detailed : Bool)
  | repl (limits : Limits)
deriving DecidableEq, Inhabited

inductive Request where
  | version
  | help
  | perform (command : Command)
deriving DecidableEq, Inhabited

/-- The options given to a command, and its file. -/
structure Settings where
  file : Option String
  counts : List (String × Nat)
  flags : List String
deriving DecidableEq, Inhabited

/-- The number that decimal digits write, after a plus sign or none; it must fit in 64 bits. -/
def readCount? (text : String) : Option Nat :=
  let digits := match text.toList with
    | '+' :: rest => rest
    | all => all
  if digits.isEmpty || !digits.all Char.isDigit then none
  else
    let value := decimalNat digits
    if value < UInt64.size then some value else none

namespace Settings

def empty : Settings := ⟨none, [], []⟩

/-- Takes in one argument. -/
def add (takesFile : Bool) (s : Settings) : Argument → Except UsageError Settings
  | .flag option =>
    if s.flags.contains option then .error (.repeatedOption option)
    else .ok { s with flags := option :: s.flags }
  | .setting option value =>
    if (s.counts.lookup option).isSome then .error (.repeatedOption option)
    else
      match readCount? value with
      | some n => .ok { s with counts := (option, n) :: s.counts }
      | none => .error (.invalidValue option value)
  | .operand text =>
    if !takesFile || s.file.isSome then .error (.unexpectedOperand text)
    else if text.isEmpty then .error (.invalidValue "FILE" text)
    else .ok { s with file := some text }
  | .invalid error => .error error

/-- Takes in arguments up to the end, or up to a request for help, which yields nothing. -/
def addAll (takesFile : Bool) (s : Settings) : List Argument → Except UsageError (Option Settings)
  | [] => .ok s
  | .flag "help" :: _ => .ok none
  | argument :: rest => do addAll takesFile (← s.add takesFile argument) rest

def requiredFile (s : Settings) : Except UsageError String :=
  match s.file with
  | some file => .ok file
  | none => .error .missingFile

/-- The standard limits, but for those that are set. -/
def limits (s : Settings) : Limits :=
  { Limits.standard with
    maxIterations := (s.counts.lookup "max-iterations").getD Limits.standard.maxIterations
    timeout := (s.counts.lookup "timeout").getD Limits.standard.timeoutSeconds }

end Settings

def helpOption : OptionSpec := ⟨"help", some 'h', false⟩

def limitOptions : List OptionSpec := [⟨"max-iterations", none, true⟩, ⟨"timeout", none, true⟩]

/-- Reads the arguments of a command and hands them on. -/
def withSettings (options : List OptionSpec) (takesFile : Bool) (arguments : List String)
    (command : Settings → Except UsageError Command) : Except UsageError Request := do
  match ← Settings.empty.addAll takesFile (readArguments (helpOption :: options) none arguments) with
  | some settings => return .perform (← command settings)
  | none => return .help

def commandNames : List String := ["run", "check", "parse", "repl", "help"]

/-- A request for help on nothing in particular or on one command. -/
def helpOn : List String → Except UsageError Request
  | [] => .ok .help
  | word :: rest =>
    if commandNames.contains word then
      match rest with
      | [] => .ok .help
      | next :: _ => .error (.unknownCommand next)
    else .error (.unknownCommand word)

/-- What a command line asks for. -/
def Request.ofArguments : List String → Except UsageError Request
  | [] | ["--"] => .ok (.perform (.repl .standard))
  | "--" :: word :: _ => .error (.unknownCommand word)
  | "run" :: rest =>
    withSettings (⟨"debug", some 'd', false⟩ :: limitOptions) true rest fun s => do
      return .run (← s.requiredFile) s.limits (s.flags.contains "debug")
  | "check" :: rest => withSettings [] true rest fun s => return .check (← s.requiredFile)
  | "parse" :: rest =>
    withSettings [⟨"spans", some 's', false⟩] true rest fun s => do
      return .parse (← s.requiredFile) (s.flags.contains "spans")
  | "repl" :: rest =>
    withSettings (⟨"no-history", none, false⟩ :: limitOptions) false rest fun s =>
      return .repl s.limits
  | "help" :: rest => helpOn rest
  | word :: _ =>
    if word == "--version" || word.startsWith "-V" then .ok .version
    else if word == "--help" || word.startsWith "-h" then .ok .help
    else if isOption word then .error (.unknownOption word)
    else .error (.unknownCommand word)

end CheckedScript.CommandLine
