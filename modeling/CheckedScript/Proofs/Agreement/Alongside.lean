import CheckedScript.Proofs.Check.Visit
import CheckedScript.Proofs.Execution.Recovery

/-!
# A run alongside its check

A run comes to a task by way of the tasks around it, and its check has come to the same task by way
of the same parts of the program. `Alongside` follows both, and with them the error that was caught
by the innermost recover block around the task in its function: a recover block that is entered
replaces it, and in a function that is called there is none to begin with.
-/

namespace CheckedScript

open Check Checking

/-- The check comes to one part as this task in this depth of recover blocks. -/
theorem Check.Walks.eq_of_task {p q q' : Point} (first : Walks p q) (second : Walks p q')
    (same : q'.task = q.task) (level : q'.context.recoverDepth = q.context.recoverDepth) :
    q' = q := by
  cases first with
  | guarded =>
    -- The blocks of a `try` can be the same, but they differ in the depth of recover blocks.
    cases second with
    | guarded => rfl
    | recovery => exact absurd level (Nat.succ_ne_self _)
  | recovery =>
    cases second with
    | guarded => exact absurd level (Nat.succ_ne_self _).symm
    | recovery => rfl
  | _ =>
    cases second <;>
      first
        | rfl
        | (cases same; rfl)
        | cases same

namespace Execution

/-- The call of the first moment performs the body of the function, and the second moment is that of
the statements of this body. -/
inductive Calls : Moment → FunctionSymbol → Moment → Prop
  | intro {fuel : Nat} {a : Activation} {m m₁ m₂ : Machine} {name : Identifier}
      {arguments : List Expression} {f : FunctionSymbol} {values : List Value} {span : Span}
      (found : m.store.lookup? name.name = some (.function f))
      (known : evaluateAll fuel a arguments m = (.ok values, m₁))
      (allowed : callFault? a f values = none)
      (bound : bindParameters a span f.parameters values (m₁.enter f.name .function) =
        (.ok (), m₂)) :
      Calls ⟨fuel + 1, a, .call name arguments span, m⟩ f
        ⟨fuel, a.inCall, .executeAll f.body.statements, m₂⟩

/-- Where the check stands at a task that is entered, and which error was caught around it. The check
of a part follows the check of the whole, while the body of a function was checked where the function
was declared: `bodies` says where that may be. -/
inductive Pursues (bodies : FunctionSymbol → Point → Prop) (x : Moment) (p : Point)
    (caught : Option RuntimeError) (y : Moment) : Point → Option RuntimeError → Prop
  | part {q : Point} (walks : Walks p q) (same : q.task = y.task)
      (level : q.context.recoverDepth = p.context.recoverDepth)
      (ordinary : ∀ error, ¬ Recovers x error y) : Pursues bodies x p caught y q caught
  | recovery {q : Point} {error : RuntimeError} (recovers : Recovers x error y) (walks : Walks p q)
      (same : q.task = y.task) (deeper : q.context.recoverDepth = p.context.recoverDepth + 1) :
      Pursues bodies x p caught y q (some error)
  | body {q : Point} {f : FunctionSymbol} (calls : Calls x f y) (checked : bodies f q) :
      Pursues bodies x p caught y q none

/-- A run from one moment on comes to another one, the check from one point on comes to the same
task, and this is the error that was caught by the innermost recover block around it. -/
inductive Alongside (bodies : FunctionSymbol → Point → Prop) (start : Moment) (begun : Point) :
    Moment → Point → Option RuntimeError → Prop
  | start : Alongside bodies start begun start begun none
  | step {x y : Moment} {p q : Point} {caught caught' : Option RuntimeError}
      (before : Alongside bodies start begun x p caught) (entered : Enters x y)
      (pursues : Pursues bodies x p caught y q caught') :
      Alongside bodies start begun y q caught'

theorem Alongside.reaches {bodies : FunctionSymbol → Point → Prop} {start x : Moment}
    {begun p : Point} {caught : Option RuntimeError}
    (alongside : Alongside bodies start begun x p caught) : Reaches start x := by
  induction alongside with
  | start => exact .refl _
  | step _ entered _ ih => exact ih.trans (.step entered (.refl _))

/-- What is called is a body and no other part of a call. -/
theorem Calls.task_ne {x y : Moment} {f : FunctionSymbol} (calls : Calls x f y) {p q : Point}
    (same : p.task = x.task) (walks : Walks p q) : q.task ≠ y.task := by
  cases calls with
  | intro =>
    cases walks <;> cases same
    rintro ⟨⟩

theorem Calls.not_recovers {x y : Moment} {f : FunctionSymbol} (calls : Calls x f y)
    (error : RuntimeError) (z : Moment) : ¬ Recovers x error z := by
  cases calls with
  | intro => rintro ⟨⟩

theorem Recovers.unguarded {x y : Moment} {error : RuntimeError} (recovers : Recovers x error y) :
    y.activation.guarded = false := by
  cases recovers
  rfl

/-- A `try` recovers from one error. -/
theorem Recovers.eq {x y z : Moment} {error other : RuntimeError} (first : Recovers x error y)
    (second : Recovers x other z) : other = error := by
  cases first with
  | intro caught =>
    cases second with
    | intro caught' =>
      cases caught.symm.trans caught'
      rfl

end Execution

end CheckedScript
