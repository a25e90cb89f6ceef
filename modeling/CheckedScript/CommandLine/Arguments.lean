/-!
# Arguments

A command takes operands and options. A flag stands alone, a setting has a value, which follows it as
the next argument or after an equals sign. Flags may have a letter, and the letters of several flags
may share one dash. After a double dash every argument is an operand, and a lone dash always is one.
-/

namespace CheckedScript.CommandLine

/-- An option that a command accepts. -/
structure OptionSpec where
  name : String
  letter : Option Char
  takesValue : Bool
deriving DecidableEq, Inhabited

inductive UsageError where
  | unknownCommand (argument : String)
  | unknownOption (argument : String)
  | unexpectedOperand (argument : String)
  | unexpectedValue (option value : String)
  | missingValue (option : String)
  | missingFile
  | invalidValue (option value : String)
  | repeatedOption (option : String)
deriving DecidableEq, Inhabited

def UsageError.message : UsageError → String
  | unknownCommand argument => s!"there is no command '{argument}'"
  | unknownOption argument => s!"there is no option '{argument}'"
  | unexpectedOperand argument => s!"unexpected argument '{argument}'"
  | unexpectedValue option value => s!"'--{option}' takes no value, but got '{value}'"
  | missingValue option => s!"'--{option}' needs a value"
  | missingFile => "a file must be given"
  | invalidValue option value => s!"invalid value '{value}' for '{option}'"
  | repeatedOption option => s!"'--{option}' cannot be used more than once"

/-- What arguments on a command line stand for. -/
inductive Argument where
  | flag (option : String)
  | setting (option value : String)
  | operand (text : String)
  | invalid (error : UsageError)
deriving DecidableEq, Inhabited

/-- Whether a text is an option rather than an operand or a value. -/
def isOption (text : String) : Bool := text.startsWith "-" && text != "-"

/-- The flags whose letters follow a dash. -/
def readLetters (options : List OptionSpec) (letters : List Char) : List Argument :=
  letters.map fun letter =>
    match options.find? (·.letter == some letter) with
    | some option => .flag option.name
    | none => .invalid (.unknownOption (.ofList ['-', letter]))

/-- The name of an option and the value that follows an equals sign. -/
def splitOption (text : List Char) : String × Option String :=
  match text.dropWhile (· != '=') with
  | _ :: value => (.ofList (text.takeWhile (· != '=')), some (.ofList value))
  | [] => (.ofList text, none)

/-- Reads what stands on the line of a command that accepts `options`, up to the first long option
that cannot be read. `pending` is a setting whose value comes next. -/
def readArguments (options : List OptionSpec) : (pending : Option String) → List String →
    List Argument
  | none, [] => []
  | some name, [] => [.invalid (.missingValue name)]
  | some name, word :: rest =>
    if isOption word then [.invalid (.missingValue name)]
    else .setting name word :: readArguments options none rest
  | none, word :: rest =>
    match word.toList with
    | ['-'] => .operand word :: readArguments options none rest
    | ['-', '-'] => rest.map .operand
    | '-' :: '-' :: text =>
      let (name, value?) := splitOption text
      match options.find? (·.name == name), value? with
      | none, _ => [.invalid (.unknownOption word)]
      | some ⟨_, _, false⟩, none => .flag name :: readArguments options none rest
      | some ⟨_, _, false⟩, some value => [.invalid (.unexpectedValue name value)]
      | some ⟨_, _, true⟩, some value => .setting name value :: readArguments options none rest
      | some ⟨_, _, true⟩, none => readArguments options (some name) rest
    | '-' :: letters => readLetters options letters ++ readArguments options none rest
    | _ => .operand word :: readArguments options none rest

end CheckedScript.CommandLine
