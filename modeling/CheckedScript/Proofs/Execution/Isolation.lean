import CheckedScript.Proofs.Execution.Outcome
import CheckedScript.Proofs.Execution.Tandem

/-!
# The activation of a function

An expression can change nothing but the values of global variables and records. What a function
does is done in a scope of its own and in the global one: it neither reads nor writes a scope of its
caller, so a call does the same whatever stands there (`activation_isolated`).
-/

namespace CheckedScript

open Store

namespace Run

variable {α β : Type}

/-- However the computation ends, the local scopes are what they were, their values included. -/
def LeavesLocals (x : Run α) : Prop := ∀ m : Machine, (x m).2.store.locals = m.store.locals

theorem leavesLocals_of_machine_eq {x : Run α} (same : ∀ m, (x m).2 = m) : x.LeavesLocals :=
  fun m => by rw [same]

theorem leavesLocals_pure (a : α) : (pure a : Run α).LeavesLocals :=
  leavesLocals_of_machine_eq fun _ => rfl

theorem leavesLocals_fail (a : Activation) (fault : Fault) (span : Span) :
    (a.fail fault span : Run α).LeavesLocals :=
  leavesLocals_of_machine_eq fun _ => rfl

theorem LeavesLocals.bind {x : Run α} {f : α → Run β} (first : x.LeavesLocals)
    (second : ∀ a, (f a).LeavesLocals) : (x >>= f).LeavesLocals := by
  intro m
  have before := first m
  change (Run.bind x f m).2.store.locals = _
  unfold Run.bind
  rcases ended : x m with ⟨u | a, m₁⟩ <;> rw [ended] at before
  · exact before
  · exact (second a m₁).trans before

end Run

namespace Execution

open Run

theorem leavesLocals_readVariable (a : Activation) (name : Identifier) :
    (readVariable a name).LeavesLocals :=
  leavesLocals_of_machine_eq fun m => by rw [readVariable_apply]

theorem leavesLocals_readElement (a : Activation) (name : String) (index : Word) (span : Span) :
    (readElement a name index span).LeavesLocals :=
  leavesLocals_of_machine_eq fun m => by rw [readElement_apply]

theorem leavesLocals_readField (a : Activation) (record field : Identifier) :
    (readField a record field).LeavesLocals :=
  leavesLocals_of_machine_eq fun m => by rw [readField_apply]

theorem leavesLocals_calledFunction (a : Activation) (name : Identifier) :
    (calledFunction a name).LeavesLocals :=
  leavesLocals_of_machine_eq fun m => by rw [calledFunction_apply]

theorem leavesLocals_yield (a : Activation) (result : Except Fault Value) (span : Span) :
    (yield a result span).LeavesLocals := by
  cases result with
  | ok value => exact leavesLocals_pure value
  | error fault => exact leavesLocals_fail a fault span

theorem leavesLocals_callResult (a : Activation) (f : FunctionSymbol) (span : Span)
    (signal : Signal) : (callResult a f span signal).LeavesLocals := by
  cases signal with
  | «return» | normal => exact leavesLocals_pure _
  | «break» | «continue» => exact leavesLocals_fail a _ span

/-- The body of a function does the same on every two machines that it cannot tell apart. -/
theorem functionBody_inStep (fuel : Nat) (a : Activation) (f : FunctionSymbol)
    (values : List Value) (span : Span) {b : Background} {m m' : Machine}
    (entered : (m.enter f.name .function).Paired .equal b (m'.enter f.name .function)) :
    (functionBody fuel a f values span (m'.enter f.name .function)).1 =
        (functionBody fuel a f values span (m.enter f.name .function)).1 ∧
      (functionBody fuel a f values span (m.enter f.name .function)).2.Paired .equal b
        (functionBody fuel a f values span (m'.enter f.name .function)).2 :=
  (inStep_functionBody f values span entered fun m₂ _ =>
    goesInStep ⟨fuel, a.inCall, .executeAll f.body.statements, m₂⟩ (.inl trivial)).of_exact trivial

/-- The body of a function writes no scope of the caller: those are what two runs of it need not
have in common. -/
theorem leavesLocals_functionBody (fuel : Nat) (a : Activation) (f : FunctionSymbol)
    (values : List Value) (span : Span) :
    (Run.inScope f.name .function (functionBody fuel a f values span)).LeavesLocals := by
  intro m
  obtain ⟨hidden, paired⟩ := exists_paired_self m
  have after := (functionBody_inStep fuel a f values span (paired.activate f.name)).2
  obtain ⟨added, -, kept⟩ := adds_functionBody fuel a f values span (m.enter f.name .function)
  exact (after.store.deactivate kept kept).2.1

theorem leavesLocals_invoke (fuel : Nat) (a : Activation) (f : FunctionSymbol)
    (values : List Value) (span : Span) : (invoke fuel a f values span).LeavesLocals := by
  unfold invoke
  cases callFault? a f values with
  | some fault => exact leavesLocals_fail a fault span
  | none =>
    exact (leavesLocals_functionBody fuel a f values span).bind fun signal =>
      leavesLocals_callResult a f span signal

/-- The expressions that are evaluated on this fuel write no local scope. -/
structure LeavesLocalsAt (fuel : Nat) : Prop where
  evaluate : ∀ a e, (evaluate fuel a e).LeavesLocals
  evaluateAll : ∀ a es, (evaluateAll fuel a es).LeavesLocals
  call : ∀ a name arguments span, (call fuel a name arguments span).LeavesLocals

section

variable {fuel : Nat} (below : LeavesLocalsAt fuel) (a : Activation)

include below

theorem leavesLocals_evaluate (e : Expression) : (evaluate (fuel + 1) a e).LeavesLocals := by
  unfold evaluate
  cases e with
  | identifier name span => exact leavesLocals_readVariable a name
  | fieldAccess record field span => exact leavesLocals_readField a record field
  | parenthesized inner span => exact below.evaluate a inner
  | index array index span =>
    refine (below.evaluate a index).bind fun v => ?_
    cases v with
    | int w => exact leavesLocals_readElement a array.name w span
    | _ => exact leavesLocals_fail a _ index.span
  | call name arguments span =>
    dsimp only
    split
    · exact leavesLocals_readVariable a name
    · exact below.call a name arguments span
  | unary operator operand span =>
    exact (below.evaluate a operand).bind fun v => leavesLocals_yield a _ span
  | binary operator left right span =>
    refine (below.evaluate a left).bind fun v => ?_
    split
    · exact leavesLocals_pure v
    · exact (below.evaluate a right).bind fun w => leavesLocals_yield a _ span
  | _ => exact leavesLocals_pure _

theorem leavesLocals_evaluateAll (es : List Expression) :
    (evaluateAll (fuel + 1) a es).LeavesLocals := by
  unfold evaluateAll
  cases es with
  | nil => exact leavesLocals_pure []
  | cons e rest =>
    exact (below.evaluate a e).bind fun v =>
      (below.evaluateAll a rest).bind fun vs => leavesLocals_pure _

theorem leavesLocals_call (name : Identifier) (arguments : List Expression) (span : Span) :
    (call (fuel + 1) a name arguments span).LeavesLocals := by
  rw [call_eq]
  exact (leavesLocals_calledFunction a name).bind fun f =>
    (below.evaluateAll a arguments).bind fun values => leavesLocals_invoke fuel a f values span

end

theorem leavesLocalsAt (fuel : Nat) : LeavesLocalsAt fuel := by
  induction fuel with
  | zero =>
    have exhausted {α : Type} : (Run.unwind .outOfFuel : Run α).LeavesLocals :=
      leavesLocals_of_machine_eq fun _ => rfl
    exact ⟨fun _ _ => exhausted, fun _ _ => exhausted, fun _ _ _ _ => exhausted⟩
  | succ fuel below =>
    exact ⟨leavesLocals_evaluate below, leavesLocals_evaluateAll below, leavesLocals_call below⟩

/-- Whatever scopes the caller has, the function does the same. -/
theorem invoke_isolated (fuel : Nat) (a : Activation) (f : FunctionSymbol) (values : List Value)
    (span : Span) {m m' : Machine} (global : m'.store.global = m.store.global)
    (deadline : m'.deadline = m.deadline) :
    (invoke fuel a f values span m').1 = (invoke fuel a f values span m).1 ∧
      (invoke fuel a f values span m').2.store.global =
        (invoke fuel a f values span m).2.store.global ∧
      ∃ lines, (invoke fuel a f values span m).2.output = m.output ++ lines ∧
        (invoke fuel a f values span m').2.output = m'.output ++ lines := by
  unfold invoke
  cases callFault? a f values with
  | some fault => exact ⟨rfl, global, #[], by simp [Activation.fail, unwind],
      by simp [Activation.fail, unwind]⟩
  | none =>
    have entered : (m.enter f.name .function).Paired .equal
        ⟨m.store.locals, m'.store.locals, m.output, m'.output, m.deadline⟩
        (m'.enter f.name .function) :=
      ⟨⟨global, .activation ⟨rfl, rfl, rfl⟩ rfl⟩,
        ⟨#[], by simp [Machine.enter], by simp [Machine.enter]⟩, .refl m.deadline, deadline⟩
    obtain ⟨same, after⟩ := functionBody_inStep fuel a f values span entered
    simp only [bind_apply, inScope_apply]
    rw [same]
    generalize functionBody fuel a f values span (m.enter f.name .function) = left at after ⊢
    generalize functionBody fuel a f values span (m'.enter f.name .function) = left' at after ⊢
    have closed : (left'.2.store.truncate m'.store.depth).global =
        (left.2.store.truncate m.store.depth).global := by
      rw [truncate_global, truncate_global]
      exact after.store.global
    obtain ⟨result, left⟩ := left
    cases result with
    | error u => exact ⟨rfl, closed, after.output⟩
    | ok signal => cases signal <;> exact ⟨rfl, closed, after.output⟩

/-- The activation of a function is isolated from its caller. Some fuel suffices to evaluate an
expression, and however the evaluation ends, every local scope is what it was, and the global one has
at most other values in its variables and records. A call evaluates its arguments in the scopes of
the caller and then invokes the function, and that ends alike, prints the same lines and leaves the
same global scope whatever scopes the caller has. -/
theorem activation_isolated (a : Activation) :
    (∀ e m, (∃ enough, ∀ more, (evaluate (enough + more) a e m).1 ≠ .error .outOfFuel) ∧
      ∀ fuel, (evaluate fuel a e m).2.store.locals = m.store.locals ∧
        (evaluate fuel a e m).2.store.global.outline = m.store.global.outline) ∧
    (∀ fuel name arguments span, call (fuel + 1) a name arguments span = (do
      let f ← calledFunction a name
      let values ← evaluateAll fuel a arguments
      invoke fuel a f values span)) ∧
    ∀ fuel f values span (global : Scope) (locals locals' : List Scope) (nextId nextId' : Nat)
        (history history' : History) (output output' : Array String) (deadline : Deadline),
      let ended :=
        invoke fuel a f values span ⟨⟨global, locals, nextId, history⟩, output, deadline⟩
      let ended' :=
        invoke fuel a f values span ⟨⟨global, locals', nextId', history'⟩, output', deadline⟩
      ended'.1 = ended.1 ∧ ended'.2.store.global = ended.2.store.global ∧
        ∃ lines, ended.2.output = output ++ lines ∧ ended'.2.output = output' ++ lines := by
  refine ⟨fun e m => ⟨?_, fun fuel => ⟨?_, ?_⟩⟩, fun fuel => call_eq fuel a, ?_⟩
  · exact exists_sufficient a (.evaluate e) m
  · exact (leavesLocalsAt fuel).evaluate a e m
  · exact ((framesAt fuel).evaluate a e m).global
  · intro fuel f values span global locals locals' nextId nextId' history history' output output'
      deadline
    exact invoke_isolated fuel a f values span rfl rfl

end Execution

end CheckedScript
