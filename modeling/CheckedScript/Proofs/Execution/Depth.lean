import CheckedScript.Proofs.Execution.Recovery
import CheckedScript.Proofs.Session.Discipline

/-!
# The depth of calls and the scopes of functions

The depth of calls is counted beside the store, and every call opens a scope for its function. A task
that is entered counts one more call if it has one more such scope, and otherwise as many as before;
however it ends, both are the old ones. So the counter is the number of functions that are active, in
every state of a run, and the limit of calls is met with exactly so many of them active.
-/

namespace CheckedScript

open Execution Run

/-- The number of functions that are active. -/
def Store.calls (s : Store) : Nat := (s.scopes.map Scope.kind).count .function

namespace Store

variable {s t : Store}

theorem calls_eq (s : Store) :
    s.calls = ((s.global :: s.locals).map Scope.kind).count .function := by
  simp [calls, scopes, List.count_cons]

theorem calls_push (s : Store) (name : String) (kind : ScopeKind) :
    (s.push name kind).calls = s.calls + if kind = .function then 1 else 0 := by
  simp only [calls_eq, push_global, push_locals, List.map_cons, List.count_cons, beq_iff_eq]
  omega

theorem calls_extend (s : Store) (added : Bindings Symbol) : (s.extend added).calls = s.calls := by
  obtain ⟨global, locals, nextId, history⟩ := s
  rw [calls_eq, calls_eq]
  cases locals <;> rfl

theorem calls_of_onlyGlobal (onlyGlobal : s.locals = []) (kind : s.global.kind = .global) :
    s.calls = 0 := by
  rw [calls_eq, onlyGlobal, List.map_singleton, kind]
  rfl

/-- The functions that are active are a part of the outline. -/
theorem SameOutline.calls (same : s.SameOutline t) : t.calls = s.calls := by
  have kinds (u : Store) : (u.global :: u.locals).map Scope.kind =
      ((u.global :: u.locals).map Scope.outline).map Prod.fst := by
    rw [List.map_map]
    rfl
  have outlines : (t.global :: t.locals).map Scope.outline =
      (s.global :: s.locals).map Scope.outline := by
    rw [List.map_cons, List.map_cons, same.global, same.locals]
  rw [calls_eq, calls_eq, kinds, kinds, outlines]

end Store

namespace Run

variable {α : Type} {P : String × Symbol → Prop} {x : Run α}

theorem Adds.calls (adds : x.Adds P) (m : Machine) : (x m).2.store.calls = m.store.calls := by
  obtain ⟨added, -, same⟩ := adds m
  rw [same.calls, Store.calls_extend]

theorem Adds.calls_after (adds : x.Adds P) {m m₁ : Machine} {result : Except Unwind α}
    (ended : x m = (result, m₁)) : m₁.store.calls = m.store.calls := by
  have kept := adds.calls m
  rwa [ended] at kept

theorem Keeps.calls_after (keeps : x.Keeps) {m m₁ : Machine} {result : Except Unwind α}
    (ended : x m = (result, m₁)) : m₁.store.calls = m.store.calls :=
  (keeps.after ended).calls

end Run

theorem Machine.calls_enter (m : Machine) (name : String) (kind : ScopeKind)
    (inside : kind ≠ .function) : (m.enter name kind).store.calls = m.store.calls := by
  unfold Machine.enter
  rw [Store.calls_push, if_neg inside, Nat.add_zero]

namespace Execution

/-! ## Entering a task -/

/-- The task is entered in the activation of the one before, or in a further call. -/
inductive Moment.Deepens (x y : Moment) : Prop
  | stays (depth : y.activation.callDepth = x.activation.callDepth)
      (calls : y.machine.store.calls = x.machine.store.calls)
  | call (depth : y.activation.callDepth = x.activation.callDepth + 1)
      (calls : y.machine.store.calls = x.machine.store.calls + 1)
      (allowed : x.activation.callDepth < x.activation.limits.maxCallDepth)

theorem Enters.deepens {x y : Moment} (entered : Enters x y) : x.Deepens y := by
  cases entered with
  | @right fuel a m m₁ operator left right v span known undecided =>
    exact .stays rfl (((framesAt fuel).evaluate a left).calls_after known)
  | @nextArguments fuel a m m₁ e rest v known =>
    exact .stays rfl (((framesAt fuel).evaluate a e).calls_after known)
  | @body fuel a m m₁ m₂ name arguments f values span found known allowed bound =>
    refine .call rfl ?_ (callDepth_lt_of_allowed allowed)
    have before := ((framesAt fuel).evaluateAll a arguments).calls_after known
    have opened : (m₁.enter f.name .function).store.calls = m₁.store.calls + 1 :=
      m₁.store.calls_push f.name .function
    rw [(adds_bindParameters a span f.parameters values).calls_after bound, opened, before]
  | block => exact .stays rfl (Machine.calls_enter _ _ _ (by decide))
  | guarded => exact .stays rfl (Machine.calls_enter _ _ _ (by decide))
  | @recovery fuel a m m₁ m₂ guarded recovery error span caught bound =>
    have before := (((framesAt fuel).executeAll a.inGuard guarded.statements).inScope "try"
      .guarded).calls_after caught
    refine .stays rfl ?_
    rw [(adds_define a.inRecovery errorAccessor _ recovery.span).calls_after bound,
      m₁.calls_enter "recover" .recovery (by decide), before]
  | @next fuel a m m₁ statement rest done =>
    exact .stays rfl (((framesAt fuel).execute a statement).calls_after done)
  | otherwise => exact .stays rfl (Machine.calls_enter _ _ _ (by decide))
  | @branchBody fuel a m m₁ condition body rest otherwise span holds =>
    refine .stays rfl ?_
    rw [m₁.calls_enter "if" .branch (by decide),
      ((framesAt fuel).condition a condition).calls_after holds]
  | @nextBranch fuel a m m₁ condition body rest otherwise span fails =>
    exact .stays rfl (((framesAt fuel).condition a condition).calls_after fails)
  | @loopBody fuel a m m₁ m₂ condition body completed span holds allowed =>
    have before := ((framesAt fuel).condition a condition).calls_after holds
    obtain ⟨-, -, rfl⟩ := exceededLimit?_eq_none_iff.mp allowed
    exact .stays rfl ((Machine.calls_enter _ "while" .loop (by decide)).trans before)
  | @nextIteration fuel a m m₁ m₂ m₃ condition body completed signal span holds allowed done
      onward =>
    have before := ((framesAt fuel).condition a condition).calls_after holds
    obtain ⟨-, -, rfl⟩ := exceededLimit?_eq_none_iff.mp allowed
    exact .stays rfl (((((framesAt fuel).executeAll a body.statements).inScope "while"
      .loop).calls_after done).trans before)
  | @afterTopExpression fuel a m m₁ e rest last v span known =>
    exact .stays rfl (((framesAt fuel).evaluate a e).calls_after known)
  | @afterTopStatement fuel a m m₁ statement rest last other done =>
    exact .stays rfl (((framesAt fuel).execute a statement).calls_after done)
  | _ => exact .stays rfl rfl

theorem Enters.limits_eq {x y : Moment} (entered : Enters x y) :
    y.activation.limits = x.activation.limits := by
  cases entered <;> rfl

/-- The calls are counted as there are functions active, and no more than are allowed. -/
structure Moment.Counted (limits : Limits) (x : Moment) : Prop where
  limited : x.activation.limits = limits
  depth : x.activation.callDepth = x.machine.store.calls
  bounded : x.activation.callDepth ≤ limits.maxCallDepth

theorem Enters.counted {limits : Limits} {x y : Moment} (entered : Enters x y)
    (counted : x.Counted limits) : y.Counted limits := by
  have same := entered.limits_eq.trans counted.limited
  have before := counted.depth
  cases entered.deepens with
  | stays depth calls => exact ⟨same, by omega, depth ▸ counted.bounded⟩
  | call depth calls allowed =>
    rw [counted.limited] at allowed
    exact ⟨same, by omega, by omega⟩

theorem Reaches.counted {limits : Limits} {x y : Moment} (reached : Reaches x y)
    (counted : x.Counted limits) : y.Counted limits := by
  induction reached with
  | refl => exact counted
  | step entered _ ih => exact ih (entered.counted counted)

/-- However a task ends, as many functions are active as before. -/
theorem Moment.calls_perform (x : Moment) :
    x.perform.2.store.calls = x.machine.store.calls := by
  obtain ⟨fuel, a, task, m⟩ := x
  have frames := framesAt fuel
  cases task with
  | evaluate e => exact (frames.evaluate a e m).calls
  | evaluateAll es => exact (frames.evaluateAll a es m).calls
  | call name arguments span => exact (frames.call a name arguments span m).calls
  | condition e => exact (frames.condition a e m).calls
  | execute statement => exact (frames.execute a statement).calls m
  | executeAll statements => exact (frames.executeAll a statements).calls m
  | branches tried otherwise => exact (frames.branches a tried otherwise m).calls
  | loop test body span completed => exact (frames.loop a test body span completed m).calls
  | program statements last => exact (adds_runStatements fuel a statements last).calls m

end Execution

/-! ## The register -/

namespace Stateful

/-- Executes the statements of a program; `last` is the value of the expression statements so far. -/
def runStatements (limits : Limits) (fuel : Nat) :
    List Statement → (last : Option Value) → Stateful (Option Value)
  | [], last => Pure.pure last
  | .expression e _ :: rest, last => do
    let value ← evaluate limits fuel e
    runStatements limits fuel rest (if value.isNull then last else some value)
  | s :: rest, last => do
    match ← execute limits fuel s with
    | .normal => runStatements limits fuel rest last
    | signal => .unwind (.fatal ⟨.internal s!"'{signal.name}' escaped the program", s.span⟩)

def perform (limits : Limits) (fuel : Nat) : (task : Task) → Stateful task.Result
  | .evaluate e => evaluate limits fuel e
  | .evaluateAll es => evaluateAll limits fuel es
  | .call name arguments span => call limits fuel name arguments span
  | .condition e => evaluateCondition limits fuel e
  | .execute statement => execute limits fuel statement
  | .executeAll statements => executeAll limits fuel statements
  | .branches tried otherwise => executeBranches limits fuel tried otherwise
  | .loop test body span completed => executeLoop limits fuel test body span completed
  | .program statements last => runStatements limits fuel statements last

variable {limits : Limits}

theorem implements_runStatements (fuel : Nat) (statements : List Statement)
    (last : Option Value) :
    Implements limits (runStatements limits fuel statements last) fun a =>
      Execution.runStatements fuel a statements last := by
  induction statements, last using runStatements.induct with
  | case1 last => exact .pure last
  | case2 e span rest last ih =>
    simp only [runStatements, Execution.runStatements]
    exact ((implementsAt limits fuel).evaluate e).bind ih
  | case3 first rest last other ih =>
    simp only [runStatements.eq_3 _ _ _ _ _ other, Execution.runStatements.eq_3 _ _ _ _ _ other]
    refine ((implementsAt limits fuel).execute first).bind fun signal => ?_
    cases signal with
    | normal => exact ih
    | _ => exact .unwind _

theorem implements_perform (fuel : Nat) (task : Task) :
    Implements limits (perform limits fuel task) fun a => task.perform fuel a := by
  have steps := implementsAt limits fuel
  cases task with
  | evaluate e => exact steps.evaluate e
  | evaluateAll es => exact steps.evaluateAll es
  | call name arguments span => exact steps.call name arguments span
  | condition e => exact steps.condition e
  | execute statement => exact steps.execute statement
  | executeAll statements => exact steps.executeAll statements
  | branches tried otherwise => exact steps.branches tried otherwise
  | loop test body span completed => exact steps.loop test body span completed
  | program statements last => exact implements_runStatements fuel statements last

end Stateful

/-- The registers that a task is performed with. -/
def Execution.Moment.processor (x : Moment) : Processor :=
  ⟨x.machine, x.activation.callDepth, x.activation.guarded⟩

namespace Execution

variable {limits : Limits}

/-- However a task ends, the register still counts the functions that are active. -/
theorem Moment.Counted.register {x : Moment} (counted : x.Counted limits) :
    let ended := Stateful.perform limits x.fuel x.task x.processor
    (ended.1, ended.2.machine) = x.perform ∧ ended.2.callDepth = x.processor.callDepth ∧
      ended.2.callDepth = ended.2.machine.store.calls := by
  have activation : x.processor.activation limits = x.activation := by
    rw [← counted.limited]
    rfl
  have kept := x.calls_perform
  dsimp only
  rw [Stateful.implements_perform x.fuel x.task x.processor]
  unfold Stateful.step
  rw [activation]
  exact ⟨rfl, rfl, counted.depth.trans kept.symm⟩

/-! ## Calls that are too deep -/

section

variable {left : Nat} {a : Activation} {name : Identifier} {arguments : List Expression}
  {span : Span} {m m₁ : Machine} {f : FunctionSymbol} {values : List Value}

theorem callFault?_of_arity (arity : values.length = f.parameters.length) :
    callFault? a f values =
      if a.limits.maxCallDepth ≤ a.callDepth then some (.stackOverflow a.limits.maxCallDepth)
      else none := by
  unfold callFault?
  rw [if_neg (not_not_intro arity)]

variable (found : m.store.lookup? name.name = some (.function f))
  (known : evaluateAll left a arguments m = (.ok values, m₁))

include found known

theorem call_of_known : call (left + 1) a name arguments span m = invoke left a f values span m₁ := by
  rw [call_eq, bind_apply, calledFunction_eq_ok_iff.mpr ⟨found, rfl⟩]
  dsimp only
  rw [bind_apply, known]

/-- A call with the right number of arguments overflows by itself only where the depth is used up. -/
theorem raises_stackOverflow_iff (arity : values.length = f.parameters.length) :
    (∃ u depth, Raises ⟨left + 1, a, .call name arguments span, m⟩ u ∧
      u.fault? = some (.stackOverflow depth)) ↔ a.limits.maxCallDepth ≤ a.callDepth := by
  have decided := callFault?_of_arity (a := a) arity
  constructor
  · rintro ⟨u, depth, raised, overflow⟩
    by_contra allowed
    rw [if_neg allowed] at decided
    cases raised with
    | callee raised =>
      rw [calledFunction_eq_ok_iff.mpr ⟨found, rfl⟩] at raised
      cases raised
    | refused found' known' forbidden =>
      cases found.symm.trans found'
      cases known.symm.trans known'
      cases decided.symm.trans forbidden
    | parameters found' known' allowed raised =>
      obtain ⟨message, rfl⟩ := bindParameters_eq_error raised
      cases overflow
    | escaped found' known' allowed bound done control =>
      rw [Activation.fault?_unwinding] at overflow
      cases overflow
  · intro exceeded
    rw [if_pos exceeded] at decided
    exact ⟨_, _, .refused found known decided, a.fault?_unwinding _ span⟩

end

/-- In a run that starts in the global scope the depth of calls is the number of functions that are
active, before and after every task, also where it is kept in a register; it never passes its limit.
A call of a function with the right number of arguments overflows if and only if as many functions
are active as the limit allows, and otherwise the function is executed. -/
theorem callDepth_counts_calls {program : Program} {store : Store} {fuel : Nat}
    (onlyGlobal : store.locals = []) (kind : store.global.kind = .global) :
    let start := Moment.start fuel limits clock program store
    (∀ x, Reaches start x →
      x.activation.callDepth = x.machine.store.calls ∧
      x.activation.callDepth = x.perform.2.store.calls ∧
      x.activation.callDepth ≤ limits.maxCallDepth ∧
      let ended := Stateful.perform limits x.fuel x.task x.processor
      (ended.1, ended.2.machine) = x.perform ∧ ended.2.callDepth = x.processor.callDepth ∧
        ended.2.callDepth = ended.2.machine.store.calls) ∧
    ∀ left a name arguments span m f values m₁,
      Reaches start ⟨left + 1, a, .call name arguments span, m⟩ →
      m.store.lookup? name.name = some (.function f) →
      evaluateAll left a arguments m = (.ok values, m₁) →
      values.length = f.parameters.length →
      m₁.store.calls = m.store.calls ∧
      ((∃ u depth, Raises ⟨left + 1, a, .call name arguments span, m⟩ u ∧
        u.fault? = some (.stackOverflow depth)) ↔ m.store.calls = limits.maxCallDepth) ∧
      call (left + 1) a name arguments span m =
        if m.store.calls = limits.maxCallDepth then
          (.error (a.unwinding (.stackOverflow limits.maxCallDepth) span), m₁)
        else (Run.inScope f.name .function (functionBody left a f values span) >>=
          callResult a f span) m₁ := by
  intro start
  have first : start.Counted limits :=
    ⟨rfl, (Store.calls_of_onlyGlobal onlyGlobal kind).symm, Nat.zero_le _⟩
  refine ⟨fun x reached => ?_, ?_⟩
  · have counted := reached.counted first
    exact ⟨counted.depth, counted.depth.trans x.calls_perform.symm, counted.bounded,
      counted.register⟩
  · intro left a name arguments span m f values m₁ reached found known arity
    have counted := reached.counted first
    have depth : a.callDepth = m.store.calls := counted.depth
    have bounded : a.callDepth ≤ limits.maxCallDepth := counted.bounded
    have limited : a.limits = limits := counted.limited
    have used : a.limits.maxCallDepth ≤ a.callDepth ↔ m.store.calls = limits.maxCallDepth := by
      rw [limited, ← depth]
      exact ⟨fun exceeded => Nat.le_antisymm bounded exceeded, fun same => same.ge⟩
    refine ⟨((framesAt left).evaluateAll a arguments).calls_after known,
      (raises_stackOverflow_iff found known arity).trans used, ?_⟩
    rw [call_of_known found known]
    unfold invoke
    rw [callFault?_of_arity arity]
    by_cases full : m.store.calls = limits.maxCallDepth
    · rw [if_pos full, if_pos (used.mpr full), limited]
      rfl
    · rw [if_neg full, if_neg (mt used.mp full)]

/-- A function that does nothing but call itself. -/
def endlessRecursion : FunctionSymbol :=
  ⟨"f", [], .void, .mk [.expression (.call ⟨"f", default⟩ [] default) default] default⟩

/-- After a `try` that has caught an overflow, the function may be called again, and again its own
call is the one that overflows. -/
theorem callDepth_counts_calls_endlessRecursion :
    let limits : Limits := ⟨10, 1, .ofSeconds 5⟩
    let callF : Statement := .expression (.call ⟨"f", default⟩ [] default) default
    let caught : Statement := .attempt (.mk [callF] default) (.mk [] default) default
    let store : Store := { Store.empty Store.defaultHistoryLimit with
      global := ⟨0, "global", .global, [("f", .function endlessRecursion)]⟩ }
    let start : Machine := ⟨store, #[], limits.deadline .still⟩
    let recovered := (execute 10 (.topLevel limits) caught start).2
    let m := recovered.enter "f" .function
    let a := (Activation.topLevel limits).inCall
    store.locals = [] ∧ store.global.kind = .global ∧
    Reaches (.start 10 limits .still ⟨[caught, callF], default⟩ store)
      ⟨5, a, .call ⟨"f", default⟩ [] default, m⟩ ∧
    m.store.lookup? "f" = some (.function endlessRecursion) ∧
    evaluateAll 4 a [] m = (.ok [], m) ∧ m.store.calls = limits.maxCallDepth ∧
    (∃ u depth, Raises ⟨5, a, .call ⟨"f", default⟩ [] default, m⟩ u ∧
      u.fault? = some (.stackOverflow depth)) ∧
    call 5 a ⟨"f", default⟩ [] default m = (.error (.fatal ⟨.stackOverflow 1, default⟩), m) := by
  intro limits callF caught store start recovered m a
  have onlyGlobal : store.locals = [] := rfl
  have kind : store.global.kind = .global := rfl
  obtain ⟨done, global, locals⟩ : execute 10 (.topLevel limits) caught start =
      (.ok .normal, recovered) ∧ recovered.store.global = store.global ∧
      recovered.store.locals = [] := ⟨rfl, rfl, rfl⟩
  -- Nothing else counts about the machine that the first statement leaves.
  clear_value recovered
  obtain ⟨⟨_, _, nextId, history⟩, output, deadline⟩ := recovered
  subst global locals
  have entered : Enters ⟨9, .topLevel limits, .call ⟨"f", default⟩ [] default, _⟩
      ⟨8, a, .executeAll endlessRecursion.body.statements, m⟩ := .body rfl rfl rfl rfl
  have reached : Reaches (.start 10 limits .still ⟨[caught, callF], default⟩ store)
      ⟨5, a, .call ⟨"f", default⟩ [] default, m⟩ :=
    .step (.afterTopStatement nofun done) <| .step .topExpression <| .step (.called rfl) <|
      .step entered <| .step .first <| .step .discarded <| .step (.called rfl) <| .refl _
  obtain ⟨-, decided⟩ := callDepth_counts_calls onlyGlobal kind
  obtain ⟨-, overflows, ended⟩ := decided _ _ _ _ _ _ _ _ _ reached rfl rfl rfl
  have full : m.store.calls = limits.maxCallDepth := rfl
  rw [if_pos full] at ended
  exact ⟨onlyGlobal, kind, reached, rfl, rfl, full, overflows.mpr full, ended⟩

end Execution

end CheckedScript
