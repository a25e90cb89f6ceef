import CheckedScript.Proofs.Ast.FieldReads
import CheckedScript.Proofs.Check.MissingReturns
import CheckedScript.Proofs.Execution.Fuel

/-!
# Runs that read no field

A task performs nothing but its own syntax and the bodies of the functions in its store. So if none
of these reads a field, no task that it performs does (`Reaches.isSafe`).
-/

namespace CheckedScript

/-- A call of the function neither reads a field nor runs off the end without a value. -/
structure FunctionSymbol.IsSafe (f : FunctionSymbol) : Prop where
  complete : f.IsComplete
  unread : f.body.readsField = false

namespace Execution

/-- Whether the syntax that a task performs reads a field, the bodies of called functions apart. -/
def Task.readsField : Task → Bool
  | .evaluate e | .condition e => e.readsField
  | .evaluateAll es | .call _ es _ => Expression.anyReadsField es
  | .execute statement => statement.readsField
  | .executeAll statements | .program statements _ => Statement.anyReadsField statements
  | .branches tried otherwise => Branch.anyReadsField tried || otherwise.any Block.readsField
  | .loop test body _ _ => test.readsField || body.readsField

/-- The task reads no field, and all functions that it may call are safe. -/
structure Moment.IsSafe (x : Moment) : Prop where
  functions : x.machine.store.EveryFunction FunctionSymbol.IsSafe
  unread : x.task.readsField = false

theorem Enters.isSafe {x y : Moment} (entered : Enters x y) (safe : x.IsSafe) : y.IsSafe := by
  refine ⟨entered.everyFunction safe.functions, ?_⟩
  obtain ⟨functions, unread⟩ := safe
  cases entered with
  | @body fuel a m m₁ m₂ name arguments f values span found =>
    have body := (functions.of_lookup? found f rfl).unread
    rwa [Block.readsField_eq] at body
  | conditional =>
    rwa [Task.readsField, Statement.readsField_conditional] at unread
  | _ =>
    simp only [Task.readsField, Expression.readsField, Expression.anyReadsField,
      Statement.readsField, Statement.anyReadsField, Branch.anyReadsField, Block.readsField_eq,
      Option.any_some, Bool.or_eq_false_iff, Bool.false_or] at unread ⊢
    tauto

theorem Reaches.isSafe {x y : Moment} (reached : Reaches x y) (safe : x.IsSafe) : y.IsSafe := by
  induction reached with
  | refl => exact safe
  | step entered _ ih => exact ih (entered.isSafe safe)

end Execution

end CheckedScript
