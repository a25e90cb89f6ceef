import CheckedScript.Execution.Limits
import CheckedScript.Source.Label
import CheckedScript.Store.Basic
import CheckedScript.Value.Fault

/-!
# The machine

A run works on a store and on the lines printed so far, and asks now and then whether its deadline
has passed. A computation ends with a result or unwinds with an error; an error that was raised
under the guard of a `try` is recoverable, any other one is fatal. A computation is bounded by fuel,
and running out of it is told apart from every error of the program.
-/

namespace CheckedScript

/-- A fault and the source text that raised it. -/
structure RuntimeError where
  fault : Fault
  span : Span
deriving DecidableEq, Inhabited

namespace RuntimeError

/-- The message without a place, as a recover block sees it. -/
def message (e : RuntimeError) : String := e.fault.message

def text (e : RuntimeError) : String :=
  s!"[Runtime Error] Line {e.span.line}:{e.span.column} - {e.message}"

def label (e : RuntimeError) : Label := .onSpan "raised here" e.span

end RuntimeError

/-- How a computation ends without a result. -/
inductive Unwind where
  | recoverable (error : RuntimeError)
  | fatal (error : RuntimeError)
  | outOfFuel
deriving DecidableEq, Inhabited

/-- How control leaves a statement. -/
inductive Signal where
  | normal
  | return (value : Value)
  | break
  | continue
deriving Inhabited

def Signal.name : Signal → String
  | .normal => "normal"
  | .return _ => "return"
  | .break => "break"
  | .continue => "continue"

structure Machine where
  store : Store
  output : Array String
  /-- The answers to come when the deadline is asked for. -/
  deadline : Deadline

/-- The printed lines as one text. -/
def Machine.outputText (m : Machine) : String := "\n".intercalate m.output.toList

/-- A computation on the machine, which keeps what it did also where it unwinds. -/
def Run (α : Type) : Type := Machine → Except Unwind α × Machine

namespace Run

variable {α β : Type}

def pure (a : α) : Run α := fun m => (.ok a, m)

def bind (x : Run α) (f : α → Run β) : Run β := fun m =>
  match x m with
  | (.ok a, m) => f a m
  | (.error u, m) => (.error u, m)

instance : Monad Run where
  pure := Run.pure
  bind := Run.bind

def unwind (u : Unwind) : Run α := fun m => (.error u, m)

def store : Run Store := fun m => (.ok m.store, m)

def setStore (s : Store) : Run Unit := fun m => (.ok (), { m with store := s })

def print (line : String) : Run Unit := fun m =>
  (.ok (), { m with output := m.output.push line })

/-- Asks whether the deadline has passed. -/
def deadlinePassed : Run Bool := fun m =>
  (.ok (m.deadline.passed 0), { m with deadline := m.deadline.later })

/-- Runs `body` in a scope of its own, which is closed however the body ends. -/
def inScope (name : String) (kind : ScopeKind) (body : Run α) : Run α := fun m =>
  match body { m with store := m.store.push name kind } with
  | (result, left) => (result, { left with store := left.store.truncate m.store.depth })

/-- Hands a recoverable error of `body` to `handler`. -/
def recover (body : Run α) (handler : RuntimeError → Run α) : Run α := fun m =>
  match body m with
  | (.error (.recoverable e), m) => handler e m
  | other => other

end Run

/-- What the execution of a statement depends on besides the machine. -/
structure Activation where
  limits : Limits
  /-- The number of calls that are active. -/
  callDepth : Nat
  /-- Whether a `try` takes the errors raised here. -/
  guarded : Bool
deriving DecidableEq, Inhabited

namespace Activation

/-- The activation of the statements of a program. -/
def topLevel (limits : Limits) : Activation := ⟨limits, 0, false⟩

def inCall (a : Activation) : Activation := { a with callDepth := a.callDepth + 1 }

def inGuard (a : Activation) : Activation := { a with guarded := true }

def inRecovery (a : Activation) : Activation := { a with guarded := false }

/-- Raises a fault. -/
def fail {α : Type} (a : Activation) (fault : Fault) (span : Span) : Run α :=
  .unwind <|
    if a.guarded && fault.isRecoverable then .recoverable ⟨fault, span⟩ else .fatal ⟨fault, span⟩

end Activation

end CheckedScript
