import CheckedScript.Proofs.Ast.Spans
import CheckedScript.Proofs.Execution.Fuel
import CheckedScript.Proofs.Execution.Recovery

/-!
# Where errors point

An error points to a span of the task that raises it (`Raises.span_mem`), and a task performs nothing
but its own parts, unless it calls a function. So an error that stops a run points into the program,
or else into the body of a function that the run called (`span_mem_of_unwindsWith`).
-/

namespace CheckedScript

/-- The place that an error points to, unless it was the fuel that ran out. -/
def Unwind.span? : Unwind → Option Span
  | .recoverable error | .fatal error => some error.span
  | .outOfFuel => none

@[simp] theorem Activation.span?_unwinding (a : Activation) (fault : Fault) (span : Span) :
    (a.unwinding fault span).span? = some span := by
  unfold unwinding
  split <;> rfl

namespace Execution

/-- The spans of the syntax that a task performs, the bodies of called functions apart. -/
def Task.spans : Task → List Span
  | .evaluate e | .condition e => e.spans
  | .evaluateAll es => Expression.listSpans es
  | .call name arguments span => name.span :: span :: Expression.listSpans arguments
  | .execute statement => statement.spans
  | .executeAll statements | .program statements _ => Statement.listSpans statements
  | .branches tried otherwise => Branch.listSpans tried ++ Block.optionSpans otherwise
  | .loop test body span _ => span :: (test.spans ++ body.spans)

/-- The second moment is that of the body of a function that the first one finds in its store. -/
def EntersBody (x y : Moment) : Prop :=
  ∃ name f, x.machine.store.lookup? name = some (.function f) ∧
    y.task = .executeAll f.body.statements

theorem Enters.spans_subset {x y : Moment} (entered : Enters x y) :
    y.task.spans ⊆ x.task.spans ∨ EntersBody x y := by
  cases entered with
  | body found => exact .inr ⟨_, _, found, rfl⟩
  | conditional =>
    left
    simp only [Task.spans, Statement.spans_conditional]
    exact List.subset_cons_self ..
  | otherwise =>
    left
    simp only [Task.spans, Branch.listSpans, Block.optionSpans, List.nil_append]
    exact Block.listSpans_subset _
  | topStatement | afterTopStatement =>
    left
    simp [Task.spans, Statement.listSpans]
  | _ =>
    left
    intro s inside
    simp only [Task.spans, Expression.spans, Expression.listSpans, Expression.optionSpans,
      Statement.spans, Statement.listSpans, Branch.listSpans, Block.spans_eq, List.mem_cons,
      List.mem_append] at inside ⊢
    tauto

/-- What a task raises itself points to a span of the task. -/
theorem Raises.span_mem {x : Moment} {u : Unwind} (raised : Raises x u) :
    ∀ s ∈ u.span?, s ∈ x.task.spans := by
  have fixed {spans : List Span} {s : Span} (listed : s ∈ spans) : ∀ t ∈ some s, t ∈ spans := by
    rintro t ⟨⟩
    exact listed
  have points {spans : List Span} {s : Span} {a : Activation} {fault : Fault}
      (listed : s ∈ spans) : ∀ t ∈ (a.unwinding fault s).span?, t ∈ spans := by
    rw [Activation.span?_unwinding]
    exact fixed listed
  cases raised with
  | exhausted bounded => exact nofun
  | «variable» raised | message accessor raised =>
    rw [readVariable_apply] at raised
    split at raised <;> cases raised <;> exact points (by simp [Task.spans, Expression.spans])
  | element known raised =>
    rw [readElement_apply] at raised
    split at raised <;> (try split at raised) <;> cases raised <;>
      exact points (by simp [Task.spans, Expression.spans])
  | field raised =>
    rw [readField_apply] at raised
    split at raised <;> (try split at raised) <;> cases raised <;>
      exact points (by simp [Task.spans, Expression.spans])
  | callee raised =>
    rw [calledFunction_apply] at raised
    split at raised <;> cases raised <;> exact points (by simp [Task.spans])
  | parameters found known allowed raised =>
    obtain ⟨message, rfl⟩ := bindParameters_eq_error raised
    exact fixed (by simp [Task.spans])
  | declaration known raised =>
    obtain ⟨message, rfl⟩ := define_eq_error raised
    exact fixed (by simp [Task.spans, Statement.spans])
  | «instance» raised =>
    rw [instantiate_apply] at raised
    split at raised
    · obtain ⟨message, rfl⟩ := define_eq_error raised
      exact fixed (by simp [Task.spans, Statement.spans])
    · cases raised
      exact points (by simp [Task.spans, Statement.spans])
  | assignment known raised | fieldAssignment known raised =>
    rw [assign_apply] at raised
    split at raised <;> cases raised
    exact points (by simp [Task.spans, Statement.spans])
  | caught caught raised =>
    obtain ⟨message, rfl⟩ := define_eq_error raised
    exact fixed (by simp [Task.spans, Statement.spans, Block.spans_eq])
  | @position fuel a m m₁ array index =>
    exact points (by simp [Task.spans, Expression.spans, index.span_mem_spans])
  | @truth fuel a m m₁ e => exact points e.span_mem_spans
  | @stray fuel a m m₁ statement =>
    exact fixed (by simp [Task.spans, Statement.listSpans, statement.span_mem_spans])
  | unary | binary => exact points (by simp [Task.spans, Expression.spans])
  | refused | escaped | limit => exact points (by simp [Task.spans])

/-- What unwinds a task points into it, or into the body of a function on the way to the task that
raised it: the last one that was called there. -/
theorem span_mem_of_unwindsWith {P : FunctionSymbol → Prop} {x : Moment} {u : Unwind}
    (every : x.machine.store.EveryFunction P) (unwound : x.UnwindsWith u) :
    (∀ s ∈ u.span?, s ∈ x.task.spans) ∨
      ∃ f y, P f ∧ Reaches x y ∧ y.task = .executeAll f.body.statements ∧ y.UnwindsWith u ∧
        ∀ s ∈ u.span?, s ∈ f.body.spans := by
  induction rank : x.rank using Nat.strongRecOn generalizing x with
  | ind n ih =>
    rcases traced unwound with here | ⟨y, entered, below⟩
    · exact .inl here.span_mem
    · rcases ih y.rank (rank ▸ entered.rank_lt) (entered.everyFunction every) below rfl with
        inside | ⟨f, z, known, reached, body⟩
      · rcases entered.spans_subset with part | ⟨name, f, found, body⟩
        · exact .inl fun s here => part (inside s here)
        · refine .inr ⟨f, y, every.of_lookup? found f rfl, .step entered (.refl y), body, below,
            fun s here => f.body.listSpans_subset ?_⟩
          have within := inside s here
          rwa [body] at within
      · exact .inr ⟨f, z, known, .step entered reached, body⟩

end Execution

end CheckedScript
