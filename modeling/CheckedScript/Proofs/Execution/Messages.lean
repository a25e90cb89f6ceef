import CheckedScript.Proofs.Execution.Recovery
import CheckedScript.Proofs.Store.Messages

/-!
# Runs that leave messages as they are

A run writes to names in two ways: it declares them, which never hides a message, and it assigns to
them. So a task leaves the messages in all scopes as they are if the tasks that it performs do, and
if it does not assign to the error accessor itself.
-/

namespace CheckedScript

open Store

namespace Run

variable {α β : Type}

/-- However the computation ends on this machine, it leaves the messages as they are, if no scope
lacks the one that it is to hold. -/
def Spares (x : Run α) (m : Machine) : Prop :=
  m.store.Shielded → m.store.SameMessages (x m).2.store

variable {x : Run α} {m m₁ : Machine}

theorem Spares.after (spares : x.Spares m) (shielded : m.store.Shielded) {result : Except Unwind α}
    (ended : x m = (result, m₁)) : m.store.SameMessages m₁.store := by
  have same := spares shielded
  rwa [ended] at same

theorem spares_of_machine_eq (same : (x m).2 = m) : x.Spares m := fun _ => by rw [same]

theorem spares_pure (a : α) : (pure a : Run α).Spares m := spares_of_machine_eq rfl

theorem spares_fail {a : Activation} (fault : Fault) (span : Span) :
    (a.fail fault span : Run α).Spares m := spares_of_machine_eq rfl

theorem Spares.bind {f : α → Run β} (first : x.Spares m)
    (second : ∀ a m₁, x m = (.ok a, m₁) → (f a).Spares m₁) : (x >>= f).Spares m := by
  intro shielded
  have before := first shielded
  rw [bind_apply]
  rcases ended : x m with ⟨u | a, m₁⟩ <;> rw [ended] at before
  · exact before
  · exact before.trans (second a m₁ ended (before.shielded shielded))

theorem Spares.inScope {name : String} {kind : ScopeKind} (ordinary : kind.holdsMessage = false)
    (body : x.Spares (m.enter name kind)) : (Run.inScope name kind x).Spares m :=
  fun shielded => (body (shielded.push name ordinary)).close rfl rfl

end Run

namespace Execution

open Run

/-- The task of the moment leaves the messages as they are. -/
def Moment.Spares (x : Moment) : Prop := (x.task.perform x.fuel x.activation).Spares x.machine

section

variable {a : Activation} {m : Machine}

theorem spares_readVariable (name : Identifier) : (readVariable a name).Spares m :=
  spares_of_machine_eq (by rw [readVariable_apply])

theorem spares_readElement (name : String) (index : Word) (span : Span) :
    (readElement a name index span).Spares m :=
  spares_of_machine_eq (by rw [readElement_apply])

theorem spares_readField (record field : Identifier) : (readField a record field).Spares m :=
  spares_of_machine_eq (by rw [readField_apply])

theorem spares_calledFunction (name : Identifier) : (calledFunction a name).Spares m :=
  spares_of_machine_eq (by rw [calledFunction_apply])

theorem spares_yield (result : Except Fault Value) (span : Span) :
    (yield a result span).Spares m := by
  cases result with
  | ok value => exact spares_pure value
  | error fault => exact spares_fail fault span

theorem spares_callResult (f : FunctionSymbol) (span : Span) (signal : Signal) :
    (callResult a f span signal).Spares m := by
  cases signal with
  | «return» | normal => exact spares_pure _
  | «break» | «continue» => exact spares_fail _ span

theorem spares_exceededLimit? (limits : Limits) (completed : Nat) :
    (exceededLimit? limits completed).Spares m := by
  intro _
  obtain ⟨limit, deadline, asked⟩ := exists_exceededLimit?_eq_ok limits completed m
  rw [asked]

theorem spares_define (name : String) (symbol : Symbol) (span : Span) :
    (define a name symbol span).Spares m := by
  intro shielded
  rw [define_apply]
  cases defined : m.store.define name symbol with
  | ok store =>
    obtain ⟨-, rfl⟩ := Store.define_eq_ok_iff.mp defined
    exact shielded.extend _
  | error e => exact .refl _

theorem spares_instantiate (type name : Identifier) (span : Span) :
    (instantiate a type name span).Spares m := by
  intro shielded
  rw [instantiate_apply]
  split
  · exact spares_define name.name _ name.span shielded
  · exact .refl _

theorem spares_bindParameters (span : Span) (parameters : List FunctionParameter)
    (values : List Value) : (bindParameters a span parameters values).Spares m := by
  induction parameters generalizing values m with
  | nil => exact spares_pure ()
  | cons p parameters ih =>
    cases values with
    | nil => exact spares_pure ()
    | cons value values => exact (spares_define p.name _ span).bind fun _ _ _ => ih values

theorem spares_assign {name : String} {change : SymbolUpdate} {span : Span}
    (other : m.store.Shielded → ∀ store, m.store.update name change = .ok store →
      m.store.isErrorAccessor name = false) : (assign a name change span).Spares m := by
  intro shielded
  rw [assign_apply]
  cases updated : m.store.update name change with
  | ok store => exact sameMessages_update (other shielded store updated) updated
  | error e => exact .refl _

end

section

variable {fuel : Nat} {a : Activation} {m : Machine}

theorem spares_evaluate (e : Expression)
    (below : ∀ y, Enters ⟨fuel + 1, a, .evaluate e, m⟩ y → y.Spares) :
    (evaluate (fuel + 1) a e).Spares m := by
  unfold evaluate
  cases e with
  | identifier name span => exact spares_readVariable name
  | fieldAccess record field span => exact spares_readField record field
  | parenthesized inner span => exact below _ .inner
  | index array index span =>
    refine Spares.bind (below _ .position) fun v m₁ known => ?_
    cases v with
    | int w => exact spares_readElement array.name w span
    | _ => exact spares_fail _ index.span
  | call name arguments span =>
    dsimp only
    split
    · exact spares_readVariable name
    · next function => exact below _ (.called (Bool.eq_false_iff.mpr function))
  | unary operator operand span =>
    exact Spares.bind (below _ .operand) fun v m₁ known => spares_yield _ span
  | binary operator left right span =>
    refine Spares.bind (below _ .left) fun v m₁ known => ?_
    split
    · exact spares_pure v
    · next undecided =>
      rw [Bool.not_eq_true] at undecided
      exact Spares.bind (below _ (.right known undecided)) fun w m₂ known' => spares_yield _ span
  | _ => exact spares_pure _

theorem spares_evaluateAll (es : List Expression)
    (below : ∀ y, Enters ⟨fuel + 1, a, .evaluateAll es, m⟩ y → y.Spares) :
    (evaluateAll (fuel + 1) a es).Spares m := by
  unfold evaluateAll
  cases es with
  | nil => exact spares_pure []
  | cons e rest =>
    refine Spares.bind (below _ .firstArgument) fun v m₁ known => ?_
    exact Spares.bind (below _ (.nextArguments known)) fun vs m₂ known' => spares_pure _

theorem spares_call (name : Identifier) (arguments : List Expression) (span : Span)
    (below : ∀ y, Enters ⟨fuel + 1, a, .call name arguments span, m⟩ y → y.Spares) :
    (call (fuel + 1) a name arguments span).Spares m := by
  unfold call
  refine (spares_calledFunction name).bind fun f m₀ called => ?_
  obtain ⟨found, rfl⟩ := calledFunction_eq_ok_iff.mp called
  refine Spares.bind (below _ (.arguments found)) fun values m₁ known => ?_
  cases allowed : callFault? a f values with
  | some fault => exact spares_fail fault span
  | none =>
    have body : (do
        bindParameters a span f.parameters values
        executeAll fuel a.inCall f.body.statements).Spares (m₁.enter f.name .function) :=
      (spares_bindParameters span f.parameters values).bind fun _ m₂ bound =>
        below _ (.body found known allowed bound)
    exact (body.inScope rfl).bind fun signal m₃ ended => spares_callResult f span signal

theorem spares_condition (e : Expression)
    (below : ∀ y, Enters ⟨fuel + 1, a, .condition e, m⟩ y → y.Spares) :
    (evaluateCondition (fuel + 1) a e).Spares m := by
  unfold evaluateCondition
  refine Spares.bind (below _ .truth) fun v m₁ known => ?_
  cases v with
  | bool b => exact spares_pure b
  | _ => exact spares_fail _ e.span

theorem spares_attempt (guarded recovery : Block) (span : Span)
    (below : ∀ y, Enters ⟨fuel + 1, a, .execute (.attempt guarded recovery span), m⟩ y →
      y.Spares) :
    (execute (fuel + 1) a (.attempt guarded recovery span)).Spares m := by
  intro shielded
  have tried : (Run.inScope "try" .guarded (executeAll fuel a.inGuard guarded.statements)).Spares
      m := Spares.inScope rfl (below _ .guarded)
  rcases ended : Run.inScope "try" .guarded (executeAll fuel a.inGuard guarded.statements) m
    with ⟨(error | fatal | _) | signal, m₁⟩
  case error.recoverable =>
    have before := tried.after shielded ended
    have recovered := below _ (.recovery ended (define_errorAccessor ..))
      ((before.shielded shielded).recover "recover" (.str error.message))
    rw [execute_attempt_of_caught ended]
    -- The scope that is closed is the one that held the message of this error.
    exact before.trans (recovered.close rfl rfl)
  all_goals
    rw [execute_attempt_of_not_caught (by rw [ended]; exact nofun)]
    exact tried shielded

theorem spares_execute (statement : Statement)
    (other : ∀ name value span, statement = .assignment name value span →
      m.store.isErrorAccessor name.name = false)
    (below : ∀ y, Enters ⟨fuel + 1, a, .execute statement, m⟩ y → y.Spares) :
    (execute (fuel + 1) a statement).Spares m := by
  cases statement with
  | «variable» type name initializer span =>
    rw [execute_variable]
    have initial : (initialValue fuel a type initializer).Spares m := by
      cases initializer with
      | none => exact spares_pure _
      | some e => exact below _ .initializer
    exact initial.bind fun v m₁ known => (spares_define name.name _ name.span).bind fun _ _ _ =>
      spares_pure _
  | recordInstance type name span =>
    unfold execute
    exact (spares_instantiate type name span).bind fun _ _ _ => spares_pure _
  | assignment name value span =>
    unfold execute
    refine Spares.bind (below _ .assigned) fun v m₁ known => ?_
    refine (spares_assign fun _ _ _ => ?_).bind fun _ _ _ => spares_pure _
    rw [(((framesAt fuel).evaluate a value).after known).isErrorAccessor]
    exact other name value span rfl
  | fieldAssignment record field value span =>
    unfold execute
    refine Spares.bind (below _ .fieldAssigned) fun v m₁ known => ?_
    exact (spares_assign fun shielded _ => shielded.isErrorAccessor_of_field).bind fun _ _ _ =>
      spares_pure _
  | attempt guarded recovery span => exact spares_attempt guarded recovery span below
  | block body span =>
    unfold execute
    exact Spares.inScope rfl (below _ .block)
  | conditional branches otherwise span =>
    unfold execute
    exact below _ .conditional
  | «while» condition body span =>
    unfold execute
    exact below _ .while
  | «return» value span =>
    cases value with
    | none => exact spares_pure _
    | some e =>
      unfold execute
      exact Spares.bind (below _ .returned) fun v m₁ known => spares_pure _
  | print e span =>
    unfold execute
    refine Spares.bind (below _ .printed) fun v m₁ known => ?_
    exact Spares.bind (fun _ => .refl _) fun _ _ _ => spares_pure _
  | expression e span =>
    rw [execute_expression]
    exact Spares.bind (below _ .discarded) fun v m₁ known => spares_pure _
  | _ => exact spares_pure _

theorem spares_executeAll (statements : List Statement)
    (below : ∀ y, Enters ⟨fuel + 1, a, .executeAll statements, m⟩ y → y.Spares) :
    (executeAll (fuel + 1) a statements).Spares m := by
  unfold executeAll
  cases statements with
  | nil => exact spares_pure _
  | cons statement rest =>
    refine Spares.bind (below _ .first) fun signal m₁ done => ?_
    cases signal with
    | normal => exact below _ (.next done)
    | _ => exact spares_pure _

theorem spares_branches (branches : List Branch) (otherwise : Option Block)
    (below : ∀ y, Enters ⟨fuel + 1, a, .branches branches otherwise, m⟩ y → y.Spares) :
    (executeBranches (fuel + 1) a branches otherwise).Spares m := by
  unfold executeBranches
  cases branches with
  | nil =>
    cases otherwise with
    | none => exact spares_pure _
    | some otherwise => exact Spares.inScope rfl (below _ .otherwise)
  | cons branch rest =>
    obtain ⟨condition, body, span⟩ := branch
    refine Spares.bind (below _ .branchCondition) fun taken m₁ known => ?_
    cases taken with
    | true => exact Spares.inScope rfl (below _ (.branchBody known))
    | false => exact below _ (.nextBranch known)

theorem spares_loop (condition : Expression) (body : Block) (span : Span) (completed : Nat)
    (below : ∀ y, Enters ⟨fuel + 1, a, .loop condition body span completed, m⟩ y → y.Spares) :
    (executeLoop (fuel + 1) a condition body span completed).Spares m := by
  unfold executeLoop
  refine Spares.bind (below _ .loopCondition) fun again m₁ known => ?_
  cases again with
  | false => exact spares_pure _
  | true =>
    rw [if_pos rfl]
    refine (spares_exceededLimit? a.limits completed).bind fun limit m₂ allowed => ?_
    cases limit with
    | some limit => exact spares_fail _ span
    | none =>
      have inBody : (Run.inScope "while" .loop (executeAll fuel a body.statements)).Spares m₂ :=
        Spares.inScope rfl (below _ (.loopBody known allowed))
      refine inBody.bind fun signal m₃ done => ?_
      cases signal with
      | normal => exact below _ (.nextIteration known allowed done (.inl rfl))
      | «continue» => exact below _ (.nextIteration known allowed done (.inr rfl))
      | «break» | «return» => exact spares_pure _

theorem spares_program (statements : List Statement) (last : Option Value)
    (below : ∀ y, Enters ⟨fuel, a, .program statements last, m⟩ y → y.Spares) :
    (runStatements fuel a statements last).Spares m := by
  unfold runStatements
  split
  · exact spares_pure _
  · exact Spares.bind (below _ .topExpression) fun v m₁ known =>
      below _ (.afterTopExpression known)
  · next last statement rest other =>
    refine Spares.bind (below _ (.topStatement other)) fun signal m₁ done => ?_
    cases signal with
    | normal => exact below _ (.afterTopStatement other done)
    | _ => exact spares_of_machine_eq rfl

end

/-- A task leaves the messages as they are if what it performs does and it does not assign to the
error accessor itself. -/
theorem Moment.spares {x : Moment}
    (other : ∀ name value span, x.task = .execute (.assignment name value span) →
      x.machine.store.isErrorAccessor name.name = false)
    (below : ∀ y, Enters x y → y.Spares) : x.Spares := by
  obtain ⟨fuel, a, task, m⟩ := x
  cases fuel with
  | zero =>
    cases task with
    | program statements last => exact spares_program statements last below
    | _ => exact spares_of_machine_eq rfl
  | succ fuel =>
    cases task with
    | evaluate e => exact spares_evaluate e below
    | evaluateAll es => exact spares_evaluateAll es below
    | call name arguments span => exact spares_call name arguments span below
    | condition e => exact spares_condition e below
    | execute statement =>
      exact spares_execute statement (fun name value span same => other name value span (by rw [same]))
        below
    | executeAll statements => exact spares_executeAll statements below
    | branches branches otherwise => exact spares_branches branches otherwise below
    | loop condition body span completed => exact spares_loop condition body span completed below
    | program statements last => exact spares_program statements last below

end Execution

end CheckedScript
