import CheckedScript.Proofs.Execution.Fuel

/-!
# The outcome of a task

More fuel changes nothing about a task that did not run out of it (`extendsTo_perform`), and some
fuel suffices for every task (`exists_sufficient`). So a run can be followed on more fuel than its
own, and what statements of a program do one after the other, they do in groups
(`runStatements_append`). Whole runs come to an end with one outcome, whatever their clocks show
(`runWith_settles`).
-/

namespace CheckedScript

namespace Run

variable {α β : Type}

/-- The second computation ends as the first one does, wherever that does not run out of fuel. -/
def ExtendsTo (x y : Run α) : Prop := ∀ m : Machine, (x m).1 ≠ .error .outOfFuel → y m = x m

namespace ExtendsTo

variable {x y : Run α} {f g : α → Run β}

theorem refl (x : Run α) : x.ExtendsTo x := fun _ _ => rfl

theorem exhausted (y : Run α) : (unwind .outOfFuel).ExtendsTo y := fun _ ended => absurd rfl ended

theorem bind (first : x.ExtendsTo y) (second : ∀ a, (f a).ExtendsTo (g a)) :
    (x >>= f).ExtendsTo (y >>= g) := by
  intro m
  change (Run.bind x f m).1 ≠ _ → Run.bind y g m = Run.bind x f m
  unfold Run.bind
  rcases known : x m with ⟨u | a, m₁⟩ <;> dsimp only <;> intro ended
  · rw [first m (by rw [known]; simpa using ended), known]
  · rw [first m (by rw [known]; exact nofun), known]
    exact second a m₁ ended

theorem inScope (body : x.ExtendsTo y) (name : String) (kind : ScopeKind) :
    (Run.inScope name kind x).ExtendsTo (Run.inScope name kind y) := by
  intro m ended
  have inside : y (m.enter name kind) = x (m.enter name kind) := body _ ended
  unfold Run.inScope
  unfold Machine.enter at inside
  rw [inside]

theorem recover {handler handler' : RuntimeError → Run α} (body : x.ExtendsTo y)
    (handled : ∀ error, (handler error).ExtendsTo (handler' error)) :
    (Run.recover x handler).ExtendsTo (Run.recover y handler') := by
  intro m
  unfold Run.recover
  rcases known : x m with ⟨(error | error | _) | a, m₁⟩ <;> dsimp only <;> intro ended
  case error.outOfFuel => exact absurd rfl ended
  case error.recoverable =>
    rw [body m (by rw [known]; exact nofun), known]
    exact handled error m₁ ended
  all_goals rw [body m (by rw [known]; exact nofun), known]

end ExtendsTo

end Run

namespace Execution

open Run

/-! ## More fuel -/

/-- More fuel changes nothing about what ends on this fuel. -/
structure ExtendsAt (fuel more : Nat) : Prop where
  evaluate : ∀ a e, (evaluate fuel a e).ExtendsTo (evaluate more a e)
  evaluateAll : ∀ a es, (evaluateAll fuel a es).ExtendsTo (evaluateAll more a es)
  call : ∀ a name arguments span,
    (call fuel a name arguments span).ExtendsTo (call more a name arguments span)
  condition : ∀ a e, (evaluateCondition fuel a e).ExtendsTo (evaluateCondition more a e)
  execute : ∀ a statement, (execute fuel a statement).ExtendsTo (execute more a statement)
  executeAll : ∀ a statements,
    (executeAll fuel a statements).ExtendsTo (executeAll more a statements)
  branches : ∀ a branches otherwise,
    (executeBranches fuel a branches otherwise).ExtendsTo (executeBranches more a branches otherwise)
  loop : ∀ a condition body span completed,
    (executeLoop fuel a condition body span completed).ExtendsTo
      (executeLoop more a condition body span completed)

section

variable {fuel more : Nat} (below : ExtendsAt fuel more) (a : Activation)

include below

theorem extendsTo_evaluate (e : Expression) :
    (evaluate (fuel + 1) a e).ExtendsTo (evaluate (more + 1) a e) := by
  unfold evaluate
  cases e with
  | parenthesized inner span => exact below.evaluate a inner
  | index array index span =>
    refine (below.evaluate a index).bind fun v => ?_
    cases v <;> exact .refl _
  | call name arguments span =>
    dsimp only
    split
    · exact .refl _
    · exact below.call a name arguments span
  | unary operator operand span => exact (below.evaluate a operand).bind fun v => .refl _
  | binary operator left right span =>
    refine (below.evaluate a left).bind fun v => ?_
    split
    · exact .refl _
    · exact (below.evaluate a right).bind fun w => .refl _
  | _ => exact .refl _

theorem extendsTo_evaluateAll (es : List Expression) :
    (evaluateAll (fuel + 1) a es).ExtendsTo (evaluateAll (more + 1) a es) := by
  unfold evaluateAll
  cases es with
  | nil => exact .refl _
  | cons e rest =>
    exact (below.evaluate a e).bind fun v => (below.evaluateAll a rest).bind fun vs => .refl _

theorem extendsTo_call (name : Identifier) (arguments : List Expression) (span : Span) :
    (call (fuel + 1) a name arguments span).ExtendsTo (call (more + 1) a name arguments span) := by
  unfold call
  refine (ExtendsTo.refl _).bind fun f => (below.evaluateAll a arguments).bind fun values => ?_
  cases callFault? a f values with
  | some fault => exact .refl _
  | none =>
    have body := (ExtendsTo.refl (bindParameters a span f.parameters values)).bind fun _ =>
      below.executeAll a.inCall f.body.statements
    exact (body.inScope f.name .function).bind fun signal => .refl _

theorem extendsTo_condition (e : Expression) :
    (evaluateCondition (fuel + 1) a e).ExtendsTo (evaluateCondition (more + 1) a e) := by
  unfold evaluateCondition
  exact (below.evaluate a e).bind fun v => .refl _

theorem extendsTo_execute (statement : Statement) :
    (execute (fuel + 1) a statement).ExtendsTo (execute (more + 1) a statement) := by
  cases statement with
  | «variable» type name initializer span =>
    rw [execute_variable, execute_variable]
    refine ExtendsTo.bind ?_ fun v => .refl _
    cases initializer with
    | none => exact .refl _
    | some e => exact below.evaluate a e
  | assignment name value span =>
    unfold execute
    exact (below.evaluate a value).bind fun v => .refl _
  | fieldAssignment record field value span =>
    unfold execute
    exact (below.evaluate a value).bind fun v => .refl _
  | block body span =>
    unfold execute
    exact (below.executeAll a body.statements).inScope "block" .block
  | conditional branches otherwise span =>
    unfold execute
    exact below.branches a branches otherwise
  | «while» condition body span =>
    unfold execute
    exact below.loop a condition body span 0
  | «return» value span =>
    unfold execute
    cases value with
    | none => exact .refl _
    | some e => exact (below.evaluate a e).bind fun v => .refl _
  | print e span =>
    unfold execute
    exact (below.evaluate a e).bind fun v => .refl _
  | attempt guarded recovery span =>
    unfold execute
    refine ExtendsTo.recover ((below.executeAll a.inGuard guarded.statements).inScope "try" .guarded)
      fun error => ExtendsTo.inScope ?_ "recover" .recovery
    exact (ExtendsTo.refl _).bind fun _ => below.executeAll a.inRecovery recovery.statements
  | expression e span =>
    rw [execute_expression, execute_expression]
    exact (below.evaluate a e).bind fun v => .refl _
  | _ =>
    unfold execute
    exact .refl _

theorem extendsTo_executeAll (statements : List Statement) :
    (executeAll (fuel + 1) a statements).ExtendsTo (executeAll (more + 1) a statements) := by
  unfold executeAll
  cases statements with
  | nil => exact .refl _
  | cons statement rest =>
    refine (below.execute a statement).bind fun signal => ?_
    cases signal with
    | normal => exact below.executeAll a rest
    | _ => exact .refl _

theorem extendsTo_branches (branches : List Branch) (otherwise : Option Block) :
    (executeBranches (fuel + 1) a branches otherwise).ExtendsTo
      (executeBranches (more + 1) a branches otherwise) := by
  unfold executeBranches
  cases branches with
  | nil =>
    cases otherwise with
    | none => exact .refl _
    | some otherwise => exact (below.executeAll a otherwise.statements).inScope "else" .branch
  | cons branch rest =>
    obtain ⟨condition, body, span⟩ := branch
    refine (below.condition a condition).bind fun taken => ?_
    cases taken with
    | true => exact (below.executeAll a body.statements).inScope "if" .branch
    | false => exact below.branches a rest otherwise

theorem extendsTo_loop (condition : Expression) (body : Block) (span : Span) (completed : Nat) :
    (executeLoop (fuel + 1) a condition body span completed).ExtendsTo
      (executeLoop (more + 1) a condition body span completed) := by
  unfold executeLoop
  refine (below.condition a condition).bind fun again => ?_
  cases again with
  | false => exact .refl _
  | true =>
    rw [if_pos rfl, if_pos rfl]
    refine (ExtendsTo.refl (exceededLimit? a.limits completed)).bind fun limit => ?_
    cases limit with
    | some limit => exact .refl _
    | none =>
      refine ((below.executeAll a body.statements).inScope "while" .loop).bind fun signal => ?_
      cases signal with
      | «break» | «return» => exact .refl _
      | normal | «continue» => exact below.loop a condition body span (completed + 1)

end

theorem extendsAt {fuel more : Nat} (enough : fuel ≤ more) : ExtendsAt fuel more := by
  induction fuel generalizing more with
  | zero =>
    exact ⟨fun _ _ => .exhausted _, fun _ _ => .exhausted _, fun _ _ _ _ => .exhausted _,
      fun _ _ => .exhausted _, fun _ _ => .exhausted _, fun _ _ => .exhausted _,
      fun _ _ _ => .exhausted _, fun _ _ _ _ _ => .exhausted _⟩
  | succ fuel ih =>
    obtain ⟨more, rfl⟩ : ∃ left, more = left + 1 := ⟨more - 1, by omega⟩
    have below := ih (Nat.le_of_succ_le_succ enough)
    exact ⟨extendsTo_evaluate below, extendsTo_evaluateAll below, extendsTo_call below,
      extendsTo_condition below, extendsTo_execute below, extendsTo_executeAll below,
      extendsTo_branches below, extendsTo_loop below⟩

theorem extendsTo_runStatements {fuel more : Nat} (enough : fuel ≤ more) (a : Activation)
    (statements : List Statement) (last : Option Value) :
    (runStatements fuel a statements last).ExtendsTo (runStatements more a statements last) := by
  induction statements, last using runStatements.induct with
  | case1 last => exact .refl _
  | case2 e span rest last ih =>
    rw [runStatements, runStatements]
    exact ((extendsAt enough).evaluate a e).bind ih
  | case3 first rest last other ih =>
    rw [runStatements.eq_3 _ _ _ _ _ other, runStatements.eq_3 _ _ _ _ _ other]
    refine ((extendsAt enough).execute a first).bind fun signal => ?_
    cases signal with
    | normal => exact ih
    | _ => exact .refl _

theorem extendsTo_perform {fuel more : Nat} (enough : fuel ≤ more) (a : Activation) (task : Task) :
    (task.perform fuel a).ExtendsTo (task.perform more a) := by
  have steps := extendsAt enough
  cases task with
  | evaluate e => exact steps.evaluate a e
  | evaluateAll es => exact steps.evaluateAll a es
  | call name arguments span => exact steps.call a name arguments span
  | condition e => exact steps.condition a e
  | execute statement => exact steps.execute a statement
  | executeAll statements => exact steps.executeAll a statements
  | branches tried otherwise => exact steps.branches a tried otherwise
  | loop test body span completed => exact steps.loop a test body span completed
  | program statements last => exact extendsTo_runStatements enough a statements last

/-! ## Enough fuel -/

/-- Some fuel suffices for a task, so that it is never cut off. -/
theorem exists_sufficient (a : Activation) (task : Task) (m : Machine) :
    ∃ enough, ∀ more, (task.perform (enough + more) a m).1 ≠ .error .outOfFuel := by
  -- Every function that a task can come upon is in the store that it starts with.
  have small := everyFunction_codeSize ⟨[], default⟩ m.store
  obtain ⟨enough, funded⟩ : ∃ enough,
      (Moment.mk enough a task m).Funded (codeSize ⟨[], default⟩ m.store) := by
    simp only [Moment.Funded]
    exact ⟨_, Nat.le_refl _⟩
  have ends := not_outOfFuel_of_funded small funded
  refine ⟨enough, fun more => ?_⟩
  rw [extendsTo_perform (Nat.le_add_right enough more) a task m ends]
  exact ends

/-! ## Statements one after the other -/

section

variable {fuel : Nat} {a : Activation} {statements : List Statement} {last : Option Value}
  {m left left' : Machine} {result result' : Except Unwind (Option Value)}

/-- Fuel that suffices for a computation does not change how it ends. -/
theorem runStatements_of_more {more : Nat} (enough : fuel ≤ more)
    (ended : runStatements fuel a statements last m = (result, left))
    (sufficed : result ≠ .error .outOfFuel) :
    runStatements more a statements last m = (result, left) :=
  (extendsTo_runStatements enough _ _ _ _ (by rwa [ended])).trans ended

theorem runStatements_unique {fuel' : Nat}
    (ended : runStatements fuel a statements last m = (result, left))
    (ended' : runStatements fuel' a statements last m = (result', left'))
    (sufficed : result ≠ .error .outOfFuel) (sufficed' : result' ≠ .error .outOfFuel) :
    (result, left) = (result', left') := by
  have here := runStatements_of_more (Nat.le_max_left fuel fuel') ended sufficed
  have there := runStatements_of_more (Nat.le_max_right fuel fuel') ended' sufficed'
  exact here.symm.trans there

theorem runStatements_append (first rest : List Statement) (last : Option Value) :
    runStatements fuel a (first ++ rest) last =
      runStatements fuel a first last >>= runStatements fuel a rest := by
  induction first, last using runStatements.induct with
  | case1 last => rfl
  | case2 e span first last ih =>
    rw [List.cons_append, runStatements, runStatements, bind_bind]
    exact congrArg (evaluate fuel a e >>= ·) (funext ih)
  | case3 statement first last other ih =>
    rw [List.cons_append, runStatements.eq_3 _ _ _ _ _ other, runStatements.eq_3 _ _ _ _ _ other,
      bind_bind]
    refine congrArg (execute fuel a statement >>= ·) (funext fun signal => ?_)
    cases signal with
    | normal => exact ih
    | _ => rfl

/-- The value that is there before counts only if no statement has one. -/
theorem runStatements_eq (statements : List Statement) (last : Option Value) :
    runStatements fuel a statements last = (do
      let found ← runStatements fuel a statements none
      return found.or last) := by
  induction statements generalizing last with
  | nil => rfl
  | cons statement rest ih =>
    by_cases expression : ∃ e span, statement = .expression e span
    · obtain ⟨e, span, rfl⟩ := expression
      rw [runStatements, runStatements, bind_bind]
      refine congrArg (evaluate fuel a e >>= ·) (funext fun v => ?_)
      rw [ih, ih (if v.isNull = true then none else some v), bind_bind]
      refine congrArg (runStatements fuel a rest none >>= ·) (funext fun found => ?_)
      rw [return_bind, Option.or_assoc]
      split <;> rfl
    · have other : ∀ e span, statement ≠ .expression e span :=
        fun e span same => expression ⟨e, span, same⟩
      rw [runStatements.eq_3 _ _ _ _ _ other, runStatements.eq_3 _ _ _ _ _ other, bind_bind]
      refine congrArg (execute fuel a statement >>= ·) (funext fun signal => ?_)
      cases signal with
      | normal => exact ih last
      | _ => rfl

end

/-! ## Whole runs -/

section

variable {limits : Limits} {clock : Clock} {program : Program} {store : Store}

/-- A run that ended does not notice more fuel. -/
theorem runWith_of_more {fuel more : Nat} {ended : RunResult} (enough : fuel ≤ more)
    (ends : runWith fuel limits clock program store = some ended) :
    runWith more limits clock program store = some ended := by
  have same := extendsTo_runStatements enough (.topLevel limits) program.statements none
    ⟨store, #[], limits.deadline clock⟩
  unfold runWith at ends ⊢
  rw [same, ends]
  intro exhausted
  rcases known : runStatements fuel (.topLevel limits) program.statements none
    ⟨store, #[], limits.deadline clock⟩ with ⟨result, left⟩
  rw [known] at exhausted ends
  cases exhausted
  cases ends

variable (limits clock program store)

/-- Every run comes to an end: from `sufficientFuel` on its result, output and store are the same,
and no fuel leads to others. -/
theorem runWith_settles :
    (∀ fuel, sufficientFuel limits program store ≤ fuel →
      runWith fuel limits clock program store = some (run limits clock program store)) ∧
    ∀ fuel ended, runWith fuel limits clock program store = some ended →
      ended = run limits clock program store := by
  obtain ⟨result, ends, same⟩ := run_eq limits clock program store
  rw [same]
  refine ⟨fun fuel enough => runWith_of_more enough ends, fun fuel ended ends' => ?_⟩
  -- The two runs are compared on the larger fuel.
  have here := runWith_of_more (Nat.le_max_left (sufficientFuel limits program store) fuel) ends
  have there := runWith_of_more (Nat.le_max_right (sufficientFuel limits program store) fuel) ends'
  exact Option.some.inj (there.symm.trans here)

end

end Execution

end CheckedScript
