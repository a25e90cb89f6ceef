import CheckedScript.Proofs.Check.Transaction
import CheckedScript.Proofs.Execution.Run
import CheckedScript.Proofs.Store.Outline

/-!
# What a run leaves of the scopes

However a computation ends, the scopes that were active are active again and declare what they
declared. Only the execution of a statement may have added to the innermost scope, and only the name
of the variable or of the record that the statement declares.
-/

namespace CheckedScript

namespace Run

variable {α β : Type} {P Q : String × Symbol → Prop}

/-- However the computation ends, it has at most added bindings of one sort to the innermost
scope. -/
def Adds (P : String × Symbol → Prop) (x : Run α) : Prop :=
  ∀ m : Machine, ∃ added : Bindings Symbol,
    (∀ binding ∈ added, P binding) ∧ (m.store.extend added).SameOutline (x m).2.store

/-- However the computation ends, the outline of the store is the same. -/
def Keeps (x : Run α) : Prop := ∀ m : Machine, m.store.SameOutline (x m).2.store

theorem Keeps.after {x : Run α} (keeps : x.Keeps) {m m₁ : Machine} {result : Except Unwind α}
    (ended : x m = (result, m₁)) : m.store.SameOutline m₁.store := by
  have same := keeps m
  rwa [ended] at same

theorem Keeps.adds {x : Run α} (keeps : x.Keeps) : x.Adds P :=
  fun m => ⟨[], nofun, by simpa using keeps m⟩

theorem Adds.keeps {x : Run α} (adds : x.Adds P) (nothing : ∀ binding, ¬ P binding) : x.Keeps := by
  intro m
  obtain ⟨added, allowed, same⟩ := adds m
  cases added with
  | nil => simpa using same
  | cons binding rest => exact absurd (allowed binding List.mem_cons_self) (nothing binding)

theorem Adds.mono {x : Run α} (adds : x.Adds P) (weaker : ∀ binding, P binding → Q binding) :
    x.Adds Q := by
  intro m
  obtain ⟨added, allowed, same⟩ := adds m
  exact ⟨added, fun binding inside => weaker binding (allowed binding inside), same⟩

theorem Adds.bind {x : Run α} {f : α → Run β} (first : x.Adds P) (second : ∀ a, (f a).Adds P) :
    (x >>= f).Adds P := by
  intro m
  obtain ⟨added, allowed, same⟩ := first m
  change ∃ added, (∀ binding ∈ added, P binding) ∧
    (m.store.extend added).SameOutline (Run.bind x f m).2.store
  unfold Run.bind
  rcases ended : x m with ⟨u | a, m₁⟩ <;> rw [ended] at same
  · exact ⟨added, allowed, same⟩
  · obtain ⟨more, allowed', same'⟩ := second a m₁
    refine ⟨added ++ more, ?_, ?_⟩
    · intro binding inside
      cases List.mem_append.mp inside with
      | inl early => exact allowed binding early
      | inr late => exact allowed' binding late
    · rw [← Store.extend_extend]
      exact (same.extend more).trans same'

theorem Keeps.bind {x : Run α} {f : α → Run β} (first : x.Keeps) (second : ∀ a, (f a).Keeps) :
    (x >>= f).Keeps := by
  -- To keep the outline is to add nothing.
  have adds : (x >>= f).Adds fun _ => False := first.adds.bind fun a => (second a).adds
  exact adds.keeps nofun

theorem keeps_pure (a : α) : (pure a : Run α).Keeps := fun m => .refl m.store

theorem keeps_unwind (u : Unwind) : (unwind u : Run α).Keeps := fun m => .refl m.store

theorem keeps_fail (a : Activation) (fault : Fault) (span : Span) :
    (a.fail fault span : Run α).Keeps := keeps_unwind _

theorem keeps_print (line : String) : (print line).Keeps := fun m => .refl m.store

/-- A scope that is opened for a computation takes everything away that was added to it. -/
theorem Adds.inScope {x : Run α} (adds : x.Adds P) (name : String) (kind : ScopeKind) :
    (Run.inScope name kind x).Keeps := by
  intro m
  obtain ⟨added, -, same⟩ := adds (m.enter name kind)
  exact same.close

theorem Keeps.recover {x : Run α} {handler : RuntimeError → Run α} (body : x.Keeps)
    (handled : ∀ error, (handler error).Keeps) : (Run.recover x handler).Keeps := by
  intro m
  have first := body m
  unfold Run.recover
  rcases ended : x m with ⟨(error | error | _) | a, m₁⟩ <;> rw [ended] at first
  · exact first.trans (handled error m₁)
  all_goals exact first

end Run

/-- What the execution of a statement may add to its scope. -/
def Statement.MayAdd (statement : Statement) (binding : String × Symbol) : Prop :=
  statement.runtimeName? = some binding.1 ∧ binding.2.IsData

namespace Execution

open Run

theorem keeps_readVariable (a : Activation) (name : Identifier) : (readVariable a name).Keeps := by
  intro m
  rw [readVariable_apply]

theorem keeps_readElement (a : Activation) (name : String) (index : Word) (span : Span) :
    (readElement a name index span).Keeps := by
  intro m
  rw [readElement_apply]

theorem keeps_readField (a : Activation) (record field : Identifier) :
    (readField a record field).Keeps := by
  intro m
  rw [readField_apply]

theorem keeps_calledFunction (a : Activation) (name : Identifier) :
    (calledFunction a name).Keeps := by
  intro m
  rw [calledFunction_apply]

theorem keeps_yield (a : Activation) (result : Except Fault Value) (span : Span) :
    (yield a result span).Keeps := by
  cases result with
  | ok value => exact keeps_pure value
  | error fault => exact keeps_fail a fault span

theorem keeps_callResult (a : Activation) (f : FunctionSymbol) (span : Span) (signal : Signal) :
    (callResult a f span signal).Keeps := by
  cases signal with
  | «return» | normal => exact keeps_pure _
  | «break» | «continue» => exact keeps_fail a _ span

theorem keeps_exceededLimit? (limits : Limits) (completed : Nat) :
    (exceededLimit? limits completed).Keeps := by
  intro m
  obtain ⟨limit, deadline, asked⟩ := exists_exceededLimit?_eq_ok limits completed m
  rw [asked]

theorem keeps_assign (a : Activation) (name : String) (change : SymbolUpdate) (span : Span) :
    (assign a name change span).Keeps := by
  intro m
  rw [assign_apply]
  cases updated : m.store.update name change with
  | ok store => exact Store.sameOutline_update updated
  | error e => exact .refl m.store

theorem adds_define (a : Activation) (name : String) (symbol : Symbol) (span : Span) :
    (define a name symbol span).Adds (· = (name, symbol)) := by
  intro m
  rw [define_apply]
  cases defined : m.store.define name symbol with
  | ok store =>
    obtain ⟨-, rfl⟩ := Store.define_eq_ok_iff.mp defined
    exact ⟨[(name, symbol)], by simp, .refl _⟩
  | error e => exact ⟨[], nofun, by simpa using Store.SameOutline.refl m.store⟩

theorem adds_instantiate (a : Activation) (type name : Identifier) (span : Span) :
    (instantiate a type name span).Adds fun b => b.1 = name.name ∧ b.2.IsData := by
  intro m
  rw [instantiate_apply]
  split
  · next r found =>
    refine ((adds_define a name.name _ name.span).mono ?_) m
    rintro binding rfl
    exact ⟨rfl, trivial⟩
  · exact ⟨[], nofun, by simpa using Store.SameOutline.refl m.store⟩

theorem adds_bindParameters (a : Activation) (span : Span) (parameters : List FunctionParameter)
    (values : List Value) : (bindParameters a span parameters values).Adds fun b => b.2.IsData := by
  induction parameters generalizing values with
  | nil => exact (keeps_pure ()).adds
  | cons p parameters ih =>
    cases values with
    | nil => exact (keeps_pure ()).adds
    | cons value values =>
      refine Adds.bind ((adds_define a p.name _ span).mono ?_) fun _ => ih values
      rintro binding rfl
      trivial

/-- The frames of everything that runs on this fuel. -/
structure FramesAt (fuel : Nat) : Prop where
  evaluate : ∀ a e, (evaluate fuel a e).Keeps
  evaluateAll : ∀ a es, (evaluateAll fuel a es).Keeps
  call : ∀ a name arguments span, (call fuel a name arguments span).Keeps
  condition : ∀ a e, (evaluateCondition fuel a e).Keeps
  execute : ∀ a statement, (execute fuel a statement).Adds statement.MayAdd
  executeAll : ∀ a statements, (executeAll fuel a statements).Adds fun b => b.2.IsData
  branches : ∀ a branches otherwise, (executeBranches fuel a branches otherwise).Keeps
  loop : ∀ a condition body span completed, (executeLoop fuel a condition body span completed).Keeps

section

variable {fuel : Nat} (below : FramesAt fuel) (a : Activation)

include below

theorem frame_evaluate (e : Expression) : (evaluate (fuel + 1) a e).Keeps := by
  unfold evaluate
  cases e with
  | identifier name span => exact keeps_readVariable a name
  | fieldAccess record field span => exact keeps_readField a record field
  | parenthesized inner span => exact below.evaluate a inner
  | index array index span =>
    refine (below.evaluate a index).bind fun v => ?_
    cases v with
    | int w => exact keeps_readElement a array.name w span
    | _ => exact keeps_fail a _ index.span
  | call name arguments span =>
    dsimp only
    split
    · exact keeps_readVariable a name
    · exact below.call a name arguments span
  | unary operator operand span =>
    exact (below.evaluate a operand).bind fun v => keeps_yield a _ span
  | binary operator left right span =>
    refine (below.evaluate a left).bind fun v => ?_
    split
    · exact keeps_pure v
    · exact (below.evaluate a right).bind fun w => keeps_yield a _ span
  | _ => exact keeps_pure _

theorem frame_initialValue (type : TypeName) (initializer : Option Expression) :
    (initialValue fuel a type initializer).Keeps := by
  cases initializer with
  | none => exact keeps_pure _
  | some e => exact below.evaluate a e

theorem frame_evaluateAll (es : List Expression) : (evaluateAll (fuel + 1) a es).Keeps := by
  unfold evaluateAll
  cases es with
  | nil => exact keeps_pure []
  | cons e rest =>
    exact (below.evaluate a e).bind fun v => (below.evaluateAll a rest).bind fun vs => keeps_pure _

theorem frame_call (name : Identifier) (arguments : List Expression) (span : Span) :
    (call (fuel + 1) a name arguments span).Keeps := by
  unfold call
  refine (keeps_calledFunction a name).bind fun f => ?_
  refine (below.evaluateAll a arguments).bind fun values => ?_
  cases callFault? a f values with
  | some fault => exact keeps_fail a fault span
  | none =>
    have body := (adds_bindParameters a span f.parameters values).bind fun _ =>
      below.executeAll a.inCall f.body.statements
    exact (body.inScope f.name .function).bind fun signal => keeps_callResult a f span signal

theorem frame_condition (e : Expression) : (evaluateCondition (fuel + 1) a e).Keeps := by
  unfold evaluateCondition
  refine (below.evaluate a e).bind fun v => ?_
  cases v with
  | bool b => exact keeps_pure b
  | _ => exact keeps_fail a _ e.span

theorem frame_recovery (error : RuntimeError) (recovery : Block) :
    (Run.inScope "recover" .recovery do
      define a.inRecovery errorAccessor (.variable .str (.str error.message)) recovery.span
      executeAll fuel a.inRecovery recovery.statements).Keeps := by
  refine Adds.inScope (P := fun b => b.2.IsData) ?_ "recover" .recovery
  refine ((adds_define a.inRecovery errorAccessor _ recovery.span).mono ?_).bind fun _ =>
    below.executeAll a.inRecovery recovery.statements
  rintro binding rfl
  trivial

theorem frame_execute (statement : Statement) :
    (execute (fuel + 1) a statement).Adds statement.MayAdd := by
  cases statement with
  | «variable» type name initializer span =>
    rw [execute_variable]
    refine (frame_initialValue below a type initializer).adds.bind fun v => ?_
    refine ((adds_define a name.name _ name.span).mono ?_).bind fun _ => (keeps_pure _).adds
    rintro binding rfl
    exact ⟨rfl, trivial⟩
  | recordInstance type name span =>
    unfold execute
    refine ((adds_instantiate a type name span).mono ?_).bind fun _ => (keeps_pure _).adds
    rintro binding ⟨named, data⟩
    exact ⟨congrArg some named.symm, data⟩
  | assignment name value span =>
    unfold execute
    exact ((below.evaluate a value).bind fun v =>
      (keeps_assign a name.name _ span).bind fun _ => keeps_pure _).adds
  | fieldAssignment record field value span =>
    unfold execute
    exact ((below.evaluate a value).bind fun v =>
      (keeps_assign a record.name _ span).bind fun _ => keeps_pure _).adds
  | block body span =>
    unfold execute
    exact ((below.executeAll a body.statements).inScope "block" .block).adds
  | conditional branches otherwise span =>
    unfold execute
    exact (below.branches a branches otherwise).adds
  | «while» condition body span =>
    unfold execute
    exact (below.loop a condition body span 0).adds
  | «return» value span =>
    cases value with
    | none => exact (keeps_pure _).adds
    | some e =>
      unfold execute
      exact ((below.evaluate a e).bind fun v => keeps_pure _).adds
  | print e span =>
    unfold execute
    exact ((below.evaluate a e).bind fun v => (keeps_print v.text).bind fun _ => keeps_pure _).adds
  | attempt guarded recovery span =>
    unfold execute
    have tried := (below.executeAll a.inGuard guarded.statements).inScope "try" .guarded
    exact (tried.recover fun error => frame_recovery below a error recovery).adds
  | expression e span =>
    rw [execute_expression]
    exact ((below.evaluate a e).bind fun v => keeps_pure _).adds
  | _ => exact (keeps_pure _).adds

theorem frame_executeAll (statements : List Statement) :
    (executeAll (fuel + 1) a statements).Adds fun b => b.2.IsData := by
  unfold executeAll
  cases statements with
  | nil => exact (keeps_pure _).adds
  | cons statement rest =>
    refine ((below.execute a statement).mono fun b may => may.2).bind fun signal => ?_
    cases signal with
    | normal => exact below.executeAll a rest
    | _ => exact (keeps_pure _).adds

theorem frame_branches (branches : List Branch) (otherwise : Option Block) :
    (executeBranches (fuel + 1) a branches otherwise).Keeps := by
  unfold executeBranches
  cases branches with
  | nil =>
    cases otherwise with
    | none => exact keeps_pure _
    | some otherwise => exact (below.executeAll a otherwise.statements).inScope "else" .branch
  | cons branch rest =>
    obtain ⟨condition, body, span⟩ := branch
    refine (below.condition a condition).bind fun taken => ?_
    cases taken with
    | true => exact (below.executeAll a body.statements).inScope "if" .branch
    | false => exact below.branches a rest otherwise

theorem frame_loop (condition : Expression) (body : Block) (span : Span) (completed : Nat) :
    (executeLoop (fuel + 1) a condition body span completed).Keeps := by
  unfold executeLoop
  refine (below.condition a condition).bind fun again => ?_
  cases again with
  | false => exact keeps_pure _
  | true =>
    rw [if_pos rfl]
    refine (keeps_exceededLimit? a.limits completed).bind fun limit => ?_
    cases limit with
    | some limit => exact keeps_fail a _ span
    | none =>
      refine ((below.executeAll a body.statements).inScope "while" .loop).bind fun signal => ?_
      cases signal with
      | «break» | «return» => exact keeps_pure _
      | normal | «continue» => exact below.loop a condition body span (completed + 1)

end

theorem framesAt (fuel : Nat) : FramesAt fuel := by
  induction fuel with
  | zero =>
    exact ⟨fun _ _ => keeps_unwind _, fun _ _ => keeps_unwind _, fun _ _ _ _ => keeps_unwind _,
      fun _ _ => keeps_unwind _, fun _ _ => (keeps_unwind _).adds,
      fun _ _ => (keeps_unwind _).adds, fun _ _ _ => keeps_unwind _,
      fun _ _ _ _ _ => keeps_unwind _⟩
  | succ fuel below =>
    exact ⟨frame_evaluate below, frame_evaluateAll below, frame_call below, frame_condition below,
      frame_execute below, frame_executeAll below, frame_branches below, frame_loop below⟩

/-- One iteration of a loop, from its condition to the end of its body, with the clock read in
between. -/
theorem sameOutline_of_iteration {fuel : Nat} {a : Activation} {condition : Expression}
    {body : Block} {again : Bool} {deadline : Deadline} {ended : Except Unwind Signal}
    {m m₁ m₂ : Machine} (known : evaluateCondition fuel a condition m = (.ok again, m₁))
    (done : Run.inScope "while" .loop (executeAll fuel a body.statements)
      { m₁ with deadline := deadline } = (ended, m₂)) :
    m.store.SameOutline m₂.store := by
  have kept := ((framesAt fuel).condition a condition).after known
  have looped := (((framesAt fuel).executeAll a body.statements).inScope "while" .loop).after done
  exact kept.trans looped

end Execution

end CheckedScript
