import CheckedScript.Ast.Size
import CheckedScript.Execution.Evaluate

/-!
# Running programs

The statements of a program run one after the other in the global scope. A run ends with the value
of the last expression statement that had one, or with the error that stopped it; the printed lines
and the store are kept in both cases. `run` takes fuel for as deep a nesting as the limits allow.
-/

namespace CheckedScript.Execution

/-- What a run leaves behind. -/
structure RunResult where
  result : Except RuntimeError (Option Value)
  output : String
  store : Store

/-- Executes the statements of a program; `last` is the value of the expression statements so far. -/
def runStatements (fuel : Nat) (a : Activation) :
    List Statement → (last : Option Value) → Run (Option Value)
  | [], last => pure last
  | .expression e _ :: rest, last => do
    let value ← evaluate fuel a e
    runStatements fuel a rest (if value.isNull then last else some value)
  | s :: rest, last => do
    match ← execute fuel a s with
    | .normal => runStatements fuel a rest last
    | signal => .unwind (.fatal ⟨.internal s!"'{signal.name}' escaped the program", s.span⟩)

/-- Runs a program with the given fuel; `none` if that does not suffice. -/
def runWith (fuel : Nat) (limits : Limits) (clock : Clock) (program : Program) (store : Store) :
    Option RunResult :=
  match runStatements fuel (.topLevel limits) program.statements none
      ⟨store, #[], limits.deadline clock⟩ with
  | (.ok last, m) => some ⟨.ok last, m.outputText, m.store⟩
  | (.error (.recoverable e), m) | (.error (.fatal e), m) =>
    some ⟨.error e, m.outputText, m.store.truncate store.depth⟩
  | (.error .outOfFuel, _) => none

/-- The sizes of the functions among some symbols. -/
def functionSizes (symbols : Bindings Symbol) : Nat :=
  (symbols.map fun
    | (_, .function f) => f.body.size
    | _ => 0).foldr (· + ·) 0

/-- The sizes of everything that a run of `program` in `store` can execute. -/
def codeSize (program : Program) (store : Store) : Nat :=
  Statement.listSize program.statements +
    (store.scopes.map fun scope => functionSizes scope.symbols).foldr (· + ·) 0

/-- As deep as the steps of a run can nest: a loop may go as deep as it has iterations, and a call as
deep as the code it reaches. -/
def sufficientFuel (limits : Limits) (program : Program) (store : Store) : Nat :=
  (limits.maxCallDepth + 1) * (codeSize program store + 2) * (limits.maxIterations + 4)

/-- Runs a program that has been checked against `store`. -/
def run (limits : Limits) (clock : Clock) (program : Program) (store : Store) : RunResult :=
  (runWith (sufficientFuel limits program store) limits clock program store).getD
    ⟨.error ⟨.internal "the run was cut off", program.span⟩, "", store⟩

end CheckedScript.Execution
