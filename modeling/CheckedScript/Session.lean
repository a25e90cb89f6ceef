import CheckedScript.Check.Program
import CheckedScript.Execution.Program
import CheckedScript.Parsing.Program

/-!
# Sessions

A session keeps a store between runs, so that later sources see the declarations of earlier ones.
Each source is parsed and checked as a whole before any of it runs, and each run goes by a clock of
its own, which stands still where none is given.
-/

namespace CheckedScript

inductive SessionError where
  | parse (error : ParseError)
  | check (diagnostics : List Diagnostic)
  /-- A run that was stopped, with what it had printed before. -/
  | runtime (error : RuntimeError) (output : String)

def SessionError.message : SessionError → String
  | parse error => error.message
  | check diagnostics => "Type checking failed with " ++ Diagnostics.summary diagnostics
  | runtime error _ => error.text

/-- What a run that was not stopped has produced. -/
structure RunOutcome where
  output : String
  lastValue : Option Value
  warnings : List Diagnostic

structure Session where
  store : Store
  limits : Limits

namespace Session

/-- A store that holds nothing but the builtins. -/
def freshStore : Store := (Store.empty Store.defaultHistoryLimit).registerBuiltins

def start (limits : Limits) : Session := ⟨freshStore, limits⟩

/-- Runs a program that has passed its check. -/
def runChecked (limits : Limits) (program : Program) (warnings : List Diagnostic) (store : Store)
    (clock : Clock := .still) : Except SessionError RunOutcome × Store :=
  let r := Execution.run limits clock program store
  match r.result with
  | .ok last => (.ok ⟨r.output, last, warnings⟩, r.store)
  | .error e => (.error (.runtime e r.output), r.store)

/-- Parses, checks and runs a source. -/
def run (s : Session) (source : String) (clock : Clock := .still) :
    Except SessionError RunOutcome × Session :=
  match Parsing.parseProgram source with
  | .error e => (.error (.parse e), s)
  | .ok program =>
    let checked := checkProgram program s.store
    if checked.passed then
      let (outcome, store) := runChecked s.limits program checked.diagnostics checked.store clock
      (outcome, { s with store := store })
    else (.error (.check checked.diagnostics), { s with store := checked.store })

/-- Parses and checks a source and returns the warnings; the session stays as it is. -/
def check (s : Session) (source : String) : Except SessionError (List Diagnostic) :=
  match Parsing.parseProgram source with
  | .error e => .error (.parse e)
  | .ok program =>
    let checked := checkProgram program s.store
    if checked.passed then .ok checked.diagnostics else .error (.check checked.diagnostics)

/-- Forgets every declaration. -/
def clear (s : Session) : Session := { s with store := freshStore }

/-- The value of a variable that is visible at the top level. -/
def valueOf? (s : Session) (name : String) : Option Value :=
  match s.store.lookup? name with
  | some (.variable _ value) => some value
  | _ => none

end Session

end CheckedScript
