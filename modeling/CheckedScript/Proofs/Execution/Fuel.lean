import CheckedScript.Proofs.Execution.Frame
import CheckedScript.Proofs.Execution.Origin
import CheckedScript.Proofs.Store.Every
import Mathlib.Algebra.Order.BigOperators.Group.List
import Mathlib.Algebra.Order.Group.Nat

/-!
# The fuel of a run suffices

A task needs fuel for its own syntax, for the iterations of its loops and for the calls that may
still be entered, each of which can run through all the code of a function. What a task leaves to a
task that it performs is what that one needs, so a run never gets to the end of its fuel.
-/

namespace CheckedScript

/-- A property of the functions that are bound in the active scopes. -/
def Store.EveryFunction (P : FunctionSymbol → Prop) (s : Store) : Prop :=
  s.Every fun symbol => ∀ f, symbol = .function f → P f

theorem Store.EveryFunction.of_sameOutline {P : FunctionSymbol → Prop} {s t : Store}
    (every : s.EveryFunction P) (same : s.SameOutline t) : t.EveryFunction P := by
  refine Every.of_sameOutline every same ?_
  rintro symbol _ declares old f rfl
  exact old f (Symbol.declaration_eq_function_iff.mp declares.symm)

theorem Symbol.IsData.no_function {symbol : Symbol} (data : symbol.IsData)
    {P : FunctionSymbol → Prop} : ∀ f, symbol = .function f → P f := by
  rintro f rfl
  exact data.elim

theorem Block.size_eq (body : Block) : body.size = Statement.listSize body.statements + 1 := by
  obtain ⟨statements, span⟩ := body
  rw [Block.size, Block.statements]

def Block.optionSize : Option Block → Nat
  | none => 0
  | some body => body.size

theorem Statement.size_conditional (branches : List Branch) (otherwise : Option Block)
    (span : Span) :
    (Statement.conditional branches otherwise span).size =
      Branch.listSize branches + Block.optionSize otherwise + 1 := by
  cases otherwise <;> rw [Statement.size] <;> rfl

theorem Expression.size_pos (e : Expression) : 0 < e.size := by
  cases e <;> simp [Expression.size]

theorem Statement.size_pos (statement : Statement) : 0 < statement.size := by
  cases statement with
  | conditional branches otherwise span =>
    rw [Statement.size_conditional]
    omega
  | _ => simp [Statement.size]

namespace Execution

open Run

/-! ## What a task finds in the store -/

theorem everyFunction_of_adds {α : Type} {P : String × Symbol → Prop} {x : Run α}
    (adds : x.Adds P) (data : ∀ b, P b → b.2.IsData) {Q : FunctionSymbol → Prop} {m m₁ : Machine}
    {result : Except Unwind α} (ended : x m = (result, m₁)) (every : m.store.EveryFunction Q) :
    m₁.store.EveryFunction Q := by
  obtain ⟨added, allowed, same⟩ := adds m
  rw [ended] at same
  exact Store.EveryFunction.of_sameOutline
    (Store.Every.extend every fun b inside => (data b (allowed b inside)).no_function) same

theorem everyFunction_of_keeps {α : Type} {x : Run α} (keeps : x.Keeps)
    {Q : FunctionSymbol → Prop} {m m₁ : Machine} {result : Except Unwind α}
    (ended : x m = (result, m₁)) (every : m.store.EveryFunction Q) : m₁.store.EveryFunction Q :=
  every.of_sameOutline (keeps.after ended)

/-- No task comes upon a function that the first one could not call. -/
theorem Enters.everyFunction {P : FunctionSymbol → Prop} {x y : Moment} (entered : Enters x y)
    (every : x.machine.store.EveryFunction P) : y.machine.store.EveryFunction P := by
  cases entered with
  | @right fuel a m m₁ operator left right v span known undecided =>
    exact everyFunction_of_keeps ((framesAt fuel).evaluate a left) known every
  | @nextArguments fuel a m m₁ e rest v known =>
    exact everyFunction_of_keeps ((framesAt fuel).evaluate a e) known every
  | @body fuel a m m₁ m₂ name arguments f values span found known allowed bound =>
    have before := everyFunction_of_keeps ((framesAt fuel).evaluateAll a arguments) known every
    exact everyFunction_of_adds (adds_bindParameters a span f.parameters values) (fun _ h => h)
      bound (Store.Every.push before f.name .function)
  | block => exact Store.Every.push every _ _
  | guarded => exact Store.Every.push every _ _
  | @recovery fuel a m m₁ m₂ guarded recovery error span caught bound =>
    have before := everyFunction_of_keeps
      (((framesAt fuel).executeAll a.inGuard guarded.statements).inScope "try" .guarded) caught every
    refine everyFunction_of_adds (adds_define a.inRecovery errorAccessor _ recovery.span) ?_ bound
      (Store.Every.push before "recover" .recovery)
    rintro b rfl
    trivial
  | @next fuel a m m₁ statement rest done =>
    exact everyFunction_of_adds ((framesAt fuel).execute a statement) (fun _ h => h.2) done every
  | otherwise => exact Store.Every.push every _ _
  | @branchBody fuel a m m₁ condition body rest otherwise span holds =>
    exact Store.Every.push
      (everyFunction_of_keeps ((framesAt fuel).condition a condition) holds every) _ _
  | @nextBranch fuel a m m₁ condition body rest otherwise span fails =>
    exact everyFunction_of_keeps ((framesAt fuel).condition a condition) fails every
  | @loopBody fuel a m m₁ m₂ condition body completed span holds allowed =>
    obtain ⟨-, -, rfl⟩ := exceededLimit?_eq_none_iff.mp allowed
    exact Store.Every.push
      (everyFunction_of_keeps ((framesAt fuel).condition a condition) holds every) _ _
  | @nextIteration fuel a m m₁ m₂ m₃ condition body completed signal span holds allowed done
      onward =>
    obtain ⟨-, -, rfl⟩ := exceededLimit?_eq_none_iff.mp allowed
    have before := everyFunction_of_keeps ((framesAt fuel).condition a condition) holds every
    exact everyFunction_of_keeps
      (((framesAt fuel).executeAll a body.statements).inScope "while" .loop) done before
  | @afterTopExpression fuel a m m₁ e rest last v span known =>
    exact everyFunction_of_keeps ((framesAt fuel).evaluate a e) known every
  | @afterTopStatement fuel a m m₁ statement rest last other done =>
    exact everyFunction_of_adds ((framesAt fuel).execute a statement) (fun _ h => h.2) done every
  | _ => exact every

/-! ## What a task needs -/

/-- The fuel that a task needs apart from its calls, if each node of its syntax takes `unit`. -/
def Task.need (unit maxIterations : Nat) : Task → Nat
  | .evaluate e => e.size * unit
  | .evaluateAll es => Expression.listSize es * unit
  | .call _ arguments _ => Expression.listSize arguments * unit + 1
  | .condition e => e.size * unit + 1
  | .execute statement => statement.size * unit
  | .executeAll statements | .program statements _ => Statement.listSize statements * unit
  | .branches tried otherwise => (Branch.listSize tried + Block.optionSize otherwise) * unit
  | .loop test body _ completed =>
    (test.size + body.size) * unit + (maxIterations - completed) + 2

/-- The moment has fuel for its task and for the calls that are left, each of which runs through at
most `code` nodes of syntax. -/
def Moment.Funded (code : Nat) (x : Moment) : Prop :=
  x.task.need (x.activation.limits.maxIterations + 4) x.activation.limits.maxIterations +
    (x.activation.limits.maxCallDepth - x.activation.callDepth) *
      ((code + 2) * (x.activation.limits.maxIterations + 4)) ≤ x.fuel

theorem callDepth_lt_of_allowed {a : Activation} {f : FunctionSymbol} {values : List Value}
    (allowed : callFault? a f values = none) : a.callDepth < a.limits.maxCallDepth := by
  unfold callFault? at allowed
  split at allowed
  · cases allowed
  · split at allowed
    · cases allowed
    · next below => exact Nat.lt_of_not_le below

theorem Enters.funded {code : Nat} {x y : Moment} (entered : Enters x y)
    (small : x.machine.store.EveryFunction fun f => f.body.size ≤ code) (funded : x.Funded code) :
    y.Funded code := by
  unfold Moment.Funded at funded ⊢
  cases entered with
  | @body fuel a m m₁ m₂ name arguments f values span found known allowed bound =>
    have deeper := callDepth_lt_of_allowed allowed
    have within : f.body.size ≤ code := Store.Every.of_lookup? small found f rfl
    rw [Block.size_eq] at within
    -- One of the calls that are left pays for the body.
    obtain ⟨left, calls⟩ : ∃ left, a.limits.maxCallDepth - a.callDepth = left + 1 :=
      ⟨_, (Nat.sub_add_cancel (Nat.sub_pos_of_lt deeper)).symm⟩
    have remaining : a.limits.maxCallDepth - (a.callDepth + 1) = left := by omega
    have budget := Nat.mul_le_mul_right (a.limits.maxIterations + 4) within
    simp only [Task.need, Activation.inCall, calls, remaining, Nat.add_mul] at funded budget ⊢
    omega
  | conditional =>
    simp only [Task.need, Statement.size_conditional, Nat.add_mul] at funded ⊢
    omega
  | @loopBody fuel a m m₁ m₂ condition body completed span holds allowed =>
    simp only [Task.need, Block.size_eq, Nat.add_mul] at funded ⊢
    omega
  | @nextIteration fuel a m m₁ m₂ m₃ condition body completed signal span holds allowed done
      onward =>
    -- The loop needs one unit less for each iteration that it has completed.
    obtain ⟨more, -, -⟩ := exceededLimit?_eq_none_iff.mp allowed
    simp only [Task.need] at funded ⊢
    omega
  | _ =>
    simp only [Task.need, Activation.inGuard, Activation.inRecovery, Expression.size,
      Expression.listSize, Expression.optionSize, Statement.size, Statement.listSize,
      Block.size_eq, Block.optionSize, Branch.listSize, Nat.add_mul] at funded ⊢
    omega

theorem Reaches.funded {code : Nat} {x y : Moment} (reached : Reaches x y)
    (small : x.machine.store.EveryFunction fun f => f.body.size ≤ code) (funded : x.Funded code) :
    y.Funded code := by
  induction reached with
  | refl => exact funded
  | step entered _ ih => exact ih (entered.everyFunction small) (entered.funded small funded)

theorem Task.need_pos (unit maxIterations : Nat) (task : Task) :
    0 < task.need (unit + 4) maxIterations := by
  cases task with
  | evaluate e => exact Nat.mul_pos (Expression.size_pos e) (by omega)
  | execute statement => exact Nat.mul_pos (Statement.size_pos statement) (by omega)
  | evaluateAll es => cases es <;> simp [Task.need, Expression.listSize]
  | executeAll statements => cases statements <;> simp [Task.need, Statement.listSize]
  | program statements last => cases statements <;> simp [Task.need, Statement.listSize]
  | branches tried otherwise =>
    refine Nat.mul_pos (Nat.add_pos_left ?_ _) (by omega)
    cases tried with
    | nil => simp [Branch.listSize]
    | cons branch rest =>
      obtain ⟨condition, body, span⟩ := branch
      simp [Branch.listSize]
  | call | condition | loop => simp [Task.need]

/-- A task that has what it needs does not run out of fuel. -/
theorem not_outOfFuel_of_funded {code : Nat} {x : Moment}
    (small : x.machine.store.EveryFunction fun f => f.body.size ≤ code) (funded : x.Funded code) :
    ¬ x.UnwindsWith .outOfFuel := by
  intro unwound
  obtain ⟨y, reached, raised, -⟩ := exists_raises unwound
  have funded' := reached.funded small funded
  -- Where fuel runs out there is none, but each task needs some.
  have empty := raised.exhausts.1
  have needed := Task.need_pos y.activation.limits.maxIterations y.activation.limits.maxIterations
    y.task
  unfold Moment.Funded at funded'
  omega

/-! ## Whole runs -/

theorem size_le_functionSizes {symbols : Bindings Symbol} {name : String} {f : FunctionSymbol}
    (bound : (name, .function f) ∈ symbols) : f.body.size ≤ functionSizes symbols :=
  List.le_sum_of_mem (List.mem_map.mpr ⟨_, bound, rfl⟩)

theorem everyFunction_codeSize (program : Program) (store : Store) :
    store.EveryFunction fun f => f.body.size ≤ codeSize program store := by
  rintro scope active ⟨name, _⟩ bound f rfl
  have inside : scope ∈ store.scopes := by simpa [Store.scopes] using active
  have counted : functionSizes scope.symbols ≤
      (store.scopes.map fun scope => functionSizes scope.symbols).sum :=
    List.le_sum_of_mem (List.mem_map.mpr ⟨scope, inside, rfl⟩)
  exact Nat.le_trans (size_le_functionSizes bound) (Nat.le_trans counted (Nat.le_add_left ..))

variable (limits : Limits) (clock : Clock) (program : Program) (store : Store)

theorem funded_start :
    (Moment.start (sufficientFuel limits program store) limits clock program store).Funded
      (codeSize program store) := by
  have whole : Statement.listSize program.statements ≤ codeSize program store + 2 :=
    Nat.le_add_right_of_le (Nat.le_add_right ..)
  have own := Nat.mul_le_mul_right (limits.maxIterations + 4) whole
  show Statement.listSize program.statements * (limits.maxIterations + 4) +
    limits.maxCallDepth * ((codeSize program store + 2) * (limits.maxIterations + 4)) ≤
      sufficientFuel limits program store
  calc _ ≤ (codeSize program store + 2) * (limits.maxIterations + 4) +
        limits.maxCallDepth * ((codeSize program store + 2) * (limits.maxIterations + 4)) :=
        Nat.add_le_add_right own _
    _ = sufficientFuel limits program store := by
        rw [sufficientFuel, Nat.mul_assoc, Nat.add_mul limits.maxCallDepth, Nat.one_mul,
          Nat.add_comm]

/-- The fuel of a run suffices, so that it ends as its statements end and is never cut off. -/
theorem run_eq :
    ∃ result,
      runWith (sufficientFuel limits program store) limits clock program store = some result ∧
        run limits clock program store = result := by
  have enough := not_outOfFuel_of_funded (everyFunction_codeSize program store)
    (funded_start limits clock program store)
  unfold run
  cases ended : runWith (sufficientFuel limits program store) limits clock program store with
  | some result => exact ⟨result, rfl, rfl⟩
  | none =>
    unfold runWith at ended
    split at ended
    · cases ended
    · cases ended
    · cases ended
    · next m exhausted =>
      have unwound : (Moment.start (sufficientFuel limits program store) limits clock program
          store).perform = (.error .outOfFuel, m) := exhausted
      exact absurd (Moment.unwindsWith_iff.mpr ⟨m, unwound⟩) enough

/-- How a run ends is how its first task ends; if that unwinds, the scopes that were opened are
closed. -/
theorem run_cases :
    (∃ last,
      (Moment.start (sufficientFuel limits program store) limits clock program store).perform.1 =
        .ok last ∧
      (run limits clock program store).result = .ok last ∧
      (run limits clock program store).store =
        (Moment.start (sufficientFuel limits program store) limits clock program
          store).perform.2.store) ∨
    ∃ error,
      (Moment.start (sufficientFuel limits program store) limits clock program store).EndsWith
        error ∧
      (run limits clock program store).result = .error error ∧
      (run limits clock program store).store =
        (Moment.start (sufficientFuel limits program store) limits clock program
          store).perform.2.store.truncate store.depth := by
  obtain ⟨result, ended, same⟩ := run_eq limits clock program store
  rw [same]
  unfold runWith at ended
  split at ended
  · next last m ends =>
    cases ended
    exact .inl ⟨last, congrArg Prod.fst ends, rfl, (congrArg (fun r => r.2.store) ends).symm⟩
  · next error m unwound =>
    cases ended
    exact .inr ⟨error, .inl (congrArg Prod.fst unwound), rfl,
      (congrArg (fun r => r.2.store.truncate store.depth) unwound).symm⟩
  · next error m unwound =>
    cases ended
    exact .inr ⟨error, .inr (congrArg Prod.fst unwound), rfl,
      (congrArg (fun r => r.2.store.truncate store.depth) unwound).symm⟩
  · cases ended

variable {limits clock program store}

theorem result_eq_ok_iff {last : Option Value} :
    (run limits clock program store).result = .ok last ↔
      (Moment.start (sufficientFuel limits program store) limits clock program store).perform.1 =
        .ok last := by
  rcases run_cases limits clock program store with
    ⟨last', ends, result, -⟩ | ⟨error, ends, result, -⟩
  · rw [result]
    refine ⟨fun same => ?_, fun same => ?_⟩
    · cases same
      exact ends
    · cases ends.symm.trans same
      rfl
  · rw [result]
    rcases ends with unwound | unwound <;> rw [Moment.UnwindsWith] at unwound <;> simp [unwound]

theorem result_eq_error_iff {error : RuntimeError} :
    (run limits clock program store).result = .error error ↔
      (Moment.start (sufficientFuel limits program store) limits clock program store).EndsWith
        error := by
  unfold Moment.EndsWith Moment.UnwindsWith
  rcases run_cases limits clock program store with
    ⟨last, ends, result, -⟩ | ⟨error', ends, result, -⟩
  · rw [result, ends]
    exact ⟨nofun, by rintro (impossible | impossible) <;> cases impossible⟩
  · rw [result]
    rcases ends with unwound | unwound <;> rw [Moment.UnwindsWith] at unwound <;> simp [unwound]

theorem global_run :
    (run limits clock program store).store.global =
      (Moment.start (sufficientFuel limits program store) limits clock program
        store).perform.2.store.global := by
  rcases run_cases limits clock program store with ⟨-, -, -, left⟩ | ⟨-, -, -, left⟩ <;> rw [left]
  exact Store.truncate_global ..

/-- A run prints what its first task prints. -/
theorem output_run :
    (run limits clock program store).output =
      (Moment.start (sufficientFuel limits program store) limits clock program
        store).perform.2.outputText := by
  obtain ⟨result, ended, same⟩ := run_eq limits clock program store
  rw [same]
  unfold runWith at ended
  split at ended
  case h_4 => cases ended
  all_goals
    next ends =>
      cases ended
      exact (congrArg (fun r => r.2.outputText) ends).symm

end Execution

end CheckedScript
