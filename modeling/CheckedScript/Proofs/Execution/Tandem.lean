import CheckedScript.Proofs.Execution.Frame
import CheckedScript.Proofs.Execution.Origin
import CheckedScript.Proofs.Store.Pairing

/-!
# Two runs in step

The same task is performed on two machines whose stores are paired. Both runs then do the same: they
end alike, print the same lines and leave paired stores (`goesInStep`). If the first store lacks
names of the second one, this holds as long as the first run does not come upon a name that is not
bound, not even under the guard of a `try`.
-/

namespace CheckedScript

open Store

/-- What neither of two runs can see: the scopes below the activation of the function that they are
in, the lines that were printed before, and how much of the deadline they began with is left. -/
structure Background where
  hidden : List Scope
  hidden' : List Scope
  printed : Array String
  printed' : Array String
  deadline : Deadline

/-- The stores are paired, and the machines have printed the same since the runs began and have the
same of the deadline before them. -/
structure Machine.Paired (C : Coupling) (b : Background) (m m' : Machine) : Prop where
  store : m.store.Paired C b.hidden b.hidden' m'.store
  output : ∃ lines, m.output = b.printed ++ lines ∧ m'.output = b.printed' ++ lines
  deadline : b.deadline.LeadsTo m.deadline ∧ m'.deadline = m.deadline

/-- The faults of a name that is not bound. -/
def Fault.IsAbsence : Fault → Prop
  | .undefinedVariable _ | .undefinedFunction _ | .internal _ => True
  | _ => False

/-- Two runs have ended alike, or the first one has missed a name that the second one may bind. -/
inductive InStep (C : Coupling) (b : Background) {α : Type} :
    Except Unwind α × Machine → Except Unwind α × Machine → Prop
  | same {result : Except Unwind α} {m m' : Machine} (paired : m.Paired C b m') :
      InStep C b (result, m) (result, m')
  | apart {u : Unwind} {fault : Fault} {m : Machine} {ended' : Except Unwind α × Machine}
      (vague : ¬ C.exact) (raised : u.fault? = some fault) (absence : fault.IsAbsence) :
      InStep C b (.error u, m) ended'

theorem Run.Adds.locals_ne_nil {α : Type} {P : String × Symbol → Prop} {x : Run α}
    (adds : x.Adds P) {m m₁ : Machine} {result : Except Unwind α} (ended : x m = (result, m₁))
    (nested : m.store.locals ≠ []) : m₁.store.locals ≠ [] := by
  obtain ⟨added, -, kept⟩ := adds m
  rw [ended] at kept
  exact fun none => nested (extend_locals_eq_nil_iff.mp (kept.locals_eq_nil_iff.mp none))

namespace Machine.Paired

variable {C : Coupling} {b : Background} {m m' : Machine}

theorem with_store (paired : m.Paired C b m') {s s' : Store}
    (stores : s.Paired C b.hidden b.hidden' s') :
    ({ m with store := s } : Machine).Paired C b { m' with store := s' } :=
  ⟨stores, paired.output, paired.deadline⟩

theorem enter (paired : m.Paired C b m') (name : String) {kind : ScopeKind}
    (ordinary : kind ≠ .function) : (m.enter name kind).Paired C b (m'.enter name kind) :=
  paired.with_store (paired.store.push name ordinary)

/-- The background of the body of a function that is called here. -/
theorem activate (paired : m.Paired C b m') (name : String) :
    (m.enter name .function).Paired C
      { b with hidden := m.store.locals, hidden' := m'.store.locals } (m'.enter name .function) :=
  ⟨paired.store.activate name, paired.output, paired.deadline⟩

theorem print (paired : m.Paired C b m') (line : String) :
    ({ m with output := m.output.push line } : Machine).Paired C b
      { m' with output := m'.output.push line } := by
  obtain ⟨lines, printed, printed'⟩ := paired.output
  exact ⟨paired.store, ⟨lines.push line, by simp [printed], by simp [printed']⟩, paired.deadline⟩

theorem later (paired : m.Paired C b m') :
    ({ m with deadline := m.deadline.later } : Machine).Paired C b
      { m' with deadline := m'.deadline.later } :=
  ⟨paired.store, paired.output, paired.deadline.1.later, congrArg Deadline.later paired.deadline.2⟩

end Machine.Paired

namespace InStep

open Run

variable {C : Coupling} {b : Background} {α β : Type} {m m' : Machine} {x : Run α}

theorem of_exact {ended ended' : Except Unwind α × Machine} (step : InStep C b ended ended')
    (exact : C.exact) : ended'.1 = ended.1 ∧ ended.2.Paired C b ended'.2 := by
  cases step with
  | same paired => exact ⟨rfl, paired⟩
  | apart vague => exact absurd exact vague

theorem bind {f : α → Run β} (first : InStep C b (x m) (x m'))
    (second : ∀ a m₁ m₁', x m = (.ok a, m₁) → m₁.Paired C b m₁' →
      InStep C b (f a m₁) (f a m₁')) : InStep C b ((x >>= f) m) ((x >>= f) m') := by
  change InStep C b (Run.bind x f m) (Run.bind x f m')
  unfold Run.bind
  generalize ended : x m = left at first second ⊢
  generalize x m' = left' at first ⊢
  cases first with
  | @same result m₁ m₁' paired =>
    cases result with
    | ok a => exact second a m₁ m₁' rfl paired
    | error u => exact .same paired
  | apart vague raised absence => exact .apart vague raised absence

theorem block {P : String × Symbol → Prop} {name : String} {kind : ScopeKind}
    (ordinary : kind ≠ .function) (adds : x.Adds P)
    (inside : InStep C b (x (m.enter name kind)) (x (m'.enter name kind))) :
    InStep C b (inScope name kind x m) (inScope name kind x m') := by
  obtain ⟨added, -, kept⟩ := adds (m.enter name kind)
  obtain ⟨added', -, kept'⟩ := adds (m'.enter name kind)
  rw [inScope_apply, inScope_apply]
  generalize x (m.enter name kind) = left at inside kept ⊢
  generalize x (m'.enter name kind) = left' at inside kept' ⊢
  cases inside with
  | same paired => exact .same (paired.with_store (paired.store.close ordinary kept kept'))
  | apart vague raised absence => exact .apart vague raised absence

theorem activation {P : String × Symbol → Prop} {name : String} (paired : m.Paired C b m')
    (adds : x.Adds P)
    (inside : InStep C { b with hidden := m.store.locals, hidden' := m'.store.locals }
      (x (m.enter name .function)) (x (m'.enter name .function))) :
    InStep C b (inScope name .function x m) (inScope name .function x m') := by
  obtain ⟨added, -, kept⟩ := adds (m.enter name .function)
  obtain ⟨added', -, kept'⟩ := adds (m'.enter name .function)
  rw [inScope_apply, inScope_apply]
  generalize x (m.enter name .function) = left at inside kept ⊢
  generalize x (m'.enter name .function) = left' at inside kept' ⊢
  cases inside with
  | same after =>
    obtain ⟨global, locals, locals'⟩ := after.store.deactivate kept kept'
    refine .same ⟨⟨global, ?_⟩, after.output, after.deadline⟩
    rw [locals, locals']
    exact paired.store.locals
  | apart vague raised absence => exact .apart vague raised absence

/-- A handler may be handed the absence of a name, which then must not be for the first run alone. -/
theorem recover {handler : RuntimeError → Run α} (tried : InStep C b (x m) (x m'))
    (handled : ∀ error m₁ m₁', x m = (.error (.recoverable error), m₁) → m₁.Paired C b m₁' →
      InStep C b (handler error m₁) (handler error m₁'))
    (faithful : C.exact ∨ ∀ error, (x m).1 = .error (.recoverable error) →
      ¬ error.fault.IsAbsence) :
    InStep C b (Run.recover x handler m) (Run.recover x handler m') := by
  unfold Run.recover
  generalize ended : x m = left at tried handled faithful ⊢
  generalize x m' = left' at tried ⊢
  cases tried with
  | @same result m₁ m₁' paired =>
    rcases result with (error | error | _) | a
    case error.recoverable => exact handled error m₁ m₁' rfl paired
    all_goals exact .same paired
  | @apart u fault m₁ ended' vague raised absence =>
    cases u with
    | recoverable error =>
      cases raised
      exact absurd absence (faithful.resolve_left vague error rfl)
    | fatal error => exact .apart vague raised absence
    | outOfFuel => exact .apart vague raised absence

/-! ## Primitives -/

section

variable {a : Activation} (paired : m.Paired C b m')

include paired

open Execution

theorem readVariable (name : Identifier) :
    InStep C b (readVariable a name m) (readVariable a name m') := by
  rw [readVariable_apply, readVariable_apply]
  rcases paired.store.lookup?_cases name.name with same | ⟨vague, missing⟩
  · rw [same]
    exact .same paired
  · rw [missing]
    exact .apart vague (a.fault?_unwinding _ _) trivial

theorem readElement (name : String) (index : Word) (span : Span) :
    InStep C b (readElement a name index span m) (readElement a name index span m') := by
  rw [readElement_apply, readElement_apply]
  rcases paired.store.lookup?_cases name with same | ⟨vague, missing⟩
  · rw [same]
    exact .same paired
  · rw [missing]
    exact .apart vague (a.fault?_unwinding _ _) trivial

theorem readField (record field : Identifier) :
    InStep C b (readField a record field m) (readField a record field m') := by
  rw [readField_apply, readField_apply]
  rcases paired.store.lookup?_cases record.name with same | ⟨vague, missing⟩
  · rw [same]
    exact .same paired
  · rw [missing]
    exact .apart vague (a.fault?_unwinding _ _) trivial

theorem calledFunction (name : Identifier) :
    InStep C b (calledFunction a name m) (calledFunction a name m') := by
  rw [calledFunction_apply, calledFunction_apply]
  rcases paired.store.lookup?_cases name.name with same | ⟨vague, missing⟩
  · rw [same]
    exact .same paired
  · rw [missing]
    exact .apart vague (a.fault?_unwinding _ _) trivial

theorem yield (result : Except Fault Value) (span : Span) :
    InStep C b (yield a result span m) (yield a result span m') := by
  cases result <;> exact .same paired

theorem exceededLimit? (limits : Limits) (completed : Nat) :
    InStep C b (exceededLimit? limits completed m) (exceededLimit? limits completed m') := by
  have asked := paired.later
  rw [exceededLimit?_apply, exceededLimit?_apply]
  rw [paired.deadline.2] at asked ⊢
  split
  · exact .same paired
  · exact .same asked

theorem callResult (f : FunctionSymbol) (span : Span) (signal : Signal) :
    InStep C b (callResult a f span signal m) (callResult a f span signal m') := by
  cases signal <;> exact .same paired

theorem assign (name : String) (change : SymbolUpdate) (span : Span) :
    InStep C b (assign a name change span m) (assign a name change span m') := by
  rw [assign_apply, assign_apply]
  cases updated : m.store.update name change with
  | ok store =>
    obtain ⟨store', updated', stores⟩ := paired.store.update_ok updated
    rw [updated']
    exact .same (paired.with_store stores)
  | error e =>
    rcases paired.store.update_error updated with updated' | ⟨vague, rfl⟩
    · rw [updated']
      exact .same paired
    · exact .apart vague (a.fault?_unwinding _ _) trivial

theorem define {name : String} (admitted : m.store.locals = [] → C.Admits name) (symbol : Symbol)
    (span : Span) : InStep C b (define a name symbol span m) (define a name symbol span m') := by
  rw [define_apply, define_apply]
  rcases paired.store.define admitted symbol with ⟨defined, defined', stores⟩ | ⟨e, taken, taken'⟩
  · rw [defined, defined']
    exact .same (paired.with_store stores)
  · rw [taken, taken']
    exact .same paired

theorem instantiate {name : Identifier} (admitted : m.store.locals = [] → C.Admits name.name)
    (type : Identifier) (span : Span) :
    InStep C b (instantiate a type name span m) (instantiate a type name span m') := by
  rw [instantiate_apply, instantiate_apply]
  rcases paired.store.lookup?_cases type.name with same | ⟨vague, missing⟩
  · rw [same]
    split
    · exact .define paired admitted _ name.span
    · exact .same paired
  · rw [missing]
    exact .apart vague (a.fault?_unwinding _ _) trivial

omit paired in
theorem bindParameters (span : Span) (parameters : List FunctionParameter) (values : List Value)
    (paired : m.Paired C b m') (nested : m.store.locals ≠ []) :
    InStep C b (bindParameters a span parameters values m)
      (bindParameters a span parameters values m') := by
  induction parameters generalizing values m m' with
  | nil => exact .same paired
  | cons p parameters ih =>
    cases values with
    | nil => exact .same paired
    | cons value values =>
      refine (InStep.define paired (absurd · nested) _ span).bind fun _ m₁ m₁' defined onward => ?_
      exact ih values onward
        ((adds_define a p.name (.variable p.type value) span).locals_ne_nil defined nested)

end

end InStep

namespace Execution

open Run

/-- The names that a task may bind in the scope that it is performed in. -/
def Task.binds : Task → List String
  | .execute statement => statement.runtimeName?.toList
  | .executeAll statements | .program statements _ => statements.filterMap (·.runtimeName?)
  | _ => []

namespace Moment

/-- Wherever the task comes to, it does not come upon a name that is not bound. -/
def FindsAll (x : Moment) : Prop :=
  ∀ y error, Reaches x y → y.EndsWith error → ¬ error.fault.IsAbsence

/-- On every machine that is paired with its own, the task does the same. -/
def GoesInStep (C : Coupling) (x : Moment) : Prop :=
  ∀ b m', x.machine.Paired C b m' →
    (x.machine.store.locals = [] → ∀ name ∈ x.task.binds, C.Admits name) →
    InStep C b x.perform (x.task.perform x.fuel x.activation m')

section

variable {C : Coupling} {x : Moment} (inStep : x.GoesInStep C) {b : Background} {m' : Machine}
  (paired : x.machine.Paired C b m')

include inStep paired

theorem GoesInStep.silent (silent : x.task.binds = []) :
    InStep C b x.perform (x.task.perform x.fuel x.activation m') :=
  inStep b m' paired fun _ => silent ▸ List.forall_mem_nil _

theorem GoesInStep.nested (nested : x.machine.store.locals ≠ []) :
    InStep C b x.perform (x.task.perform x.fuel x.activation m') :=
  inStep b m' paired (absurd · nested)

end

end Moment

section

variable {C : Coupling} {fuel : Nat} {a : Activation} {m : Machine}

theorem inStep_evaluate (e : Expression)
    (below : ∀ y, Enters ⟨fuel + 1, a, .evaluate e, m⟩ y → y.GoesInStep C) :
    Moment.GoesInStep C ⟨fuel + 1, a, .evaluate e, m⟩ := by
  intro b m' paired _
  show InStep C b (evaluate (fuel + 1) a e m) (evaluate (fuel + 1) a e m')
  unfold evaluate
  cases e with
  | identifier name span => exact .readVariable paired name
  | fieldAccess record field span => exact .readField paired record field
  | parenthesized inner span => exact (below _ .inner).silent paired rfl
  | index array index span =>
    refine ((below _ .position).silent paired rfl).bind fun v m₁ m₁' known onward => ?_
    cases v with
    | int w => exact .readElement onward array.name w span
    | _ => exact .same onward
  | call name arguments span =>
    dsimp only
    split
    · exact .readVariable paired name
    · next function =>
      exact (below _ (.called (Bool.eq_false_iff.mpr function))).silent paired rfl
  | unary operator operand span =>
    exact ((below _ .operand).silent paired rfl).bind fun v m₁ m₁' known onward =>
      .yield onward _ span
  | binary operator left right span =>
    refine ((below _ .left).silent paired rfl).bind fun v m₁ m₁' known onward => ?_
    split
    · exact .same onward
    · next undecided =>
      rw [Bool.not_eq_true] at undecided
      exact ((below _ (.right known undecided)).silent onward rfl).bind
        fun w m₂ m₂' known' further => .yield further _ span
  | _ => exact .same paired

theorem inStep_evaluateAll (es : List Expression)
    (below : ∀ y, Enters ⟨fuel + 1, a, .evaluateAll es, m⟩ y → y.GoesInStep C) :
    Moment.GoesInStep C ⟨fuel + 1, a, .evaluateAll es, m⟩ := by
  intro b m' paired _
  show InStep C b (evaluateAll (fuel + 1) a es m) (evaluateAll (fuel + 1) a es m')
  unfold evaluateAll
  cases es with
  | nil => exact .same paired
  | cons e rest =>
    refine ((below _ .firstArgument).silent paired rfl).bind fun v m₁ m₁' known onward => ?_
    exact ((below _ (.nextArguments known)).silent onward rfl).bind
      fun vs m₂ m₂' known' further => .same further

theorem inStep_condition (e : Expression)
    (below : ∀ y, Enters ⟨fuel + 1, a, .condition e, m⟩ y → y.GoesInStep C) :
    Moment.GoesInStep C ⟨fuel + 1, a, .condition e, m⟩ := by
  intro b m' paired _
  show InStep C b (evaluateCondition (fuel + 1) a e m) (evaluateCondition (fuel + 1) a e m')
  unfold evaluateCondition
  refine ((below _ .truth).silent paired rfl).bind fun v m₁ m₁' known onward => ?_
  cases v <;> exact .same onward

/-- What a function does in the scope that is opened for it. -/
def functionBody (fuel : Nat) (a : Activation) (f : FunctionSymbol) (values : List Value)
    (span : Span) : Run Signal := do
  bindParameters a span f.parameters values
  executeAll fuel a.inCall f.body.statements

/-- What a call does once its function is known and its arguments have values. -/
def invoke (fuel : Nat) (a : Activation) (f : FunctionSymbol) (values : List Value) (span : Span) :
    Run Value :=
  match callFault? a f values with
  | some fault => a.fail fault span
  | none => do
    let signal ← Run.inScope f.name .function (functionBody fuel a f values span)
    callResult a f span signal

theorem call_eq (fuel : Nat) (a : Activation) (name : Identifier) (arguments : List Expression)
    (span : Span) :
    call (fuel + 1) a name arguments span = (do
      let f ← calledFunction a name
      let values ← evaluateAll fuel a arguments
      invoke fuel a f values span) := by
  rw [call]
  rfl

theorem adds_functionBody (fuel : Nat) (a : Activation) (f : FunctionSymbol) (values : List Value)
    (span : Span) : (functionBody fuel a f values span).Adds fun b => b.2.IsData :=
  (adds_bindParameters a span f.parameters values).bind fun _ =>
    (framesAt fuel).executeAll a.inCall f.body.statements

theorem inStep_functionBody {b : Background} {m' : Machine} (f : FunctionSymbol)
    (values : List Value) (span : Span)
    (entered : (m.enter f.name .function).Paired C b (m'.enter f.name .function))
    (body : ∀ m₂, bindParameters a span f.parameters values (m.enter f.name .function) =
        (.ok (), m₂) →
      Moment.GoesInStep C ⟨fuel, a.inCall, .executeAll f.body.statements, m₂⟩) :
    InStep C b (functionBody fuel a f values span (m.enter f.name .function))
      (functionBody fuel a f values span (m'.enter f.name .function)) := by
  unfold functionBody
  refine (InStep.bindParameters span f.parameters values entered (List.cons_ne_nil _ _)).bind
    fun _ m₂ m₂' bound further => ?_
  have nested := (adds_bindParameters a span f.parameters values).locals_ne_nil bound
    (List.cons_ne_nil _ _)
  exact (body m₂ bound).nested further nested

theorem inStep_invoke {b : Background} {m' : Machine} (f : FunctionSymbol) (values : List Value)
    (span : Span) (paired : m.Paired C b m')
    (body : ∀ m₂, callFault? a f values = none →
      bindParameters a span f.parameters values (m.enter f.name .function) = (.ok (), m₂) →
      Moment.GoesInStep C ⟨fuel, a.inCall, .executeAll f.body.statements, m₂⟩) :
    InStep C b (invoke fuel a f values span m) (invoke fuel a f values span m') := by
  unfold invoke
  cases allowed : callFault? a f values with
  | some fault => exact .same paired
  | none =>
    exact (InStep.activation paired (adds_functionBody fuel a f values span)
      (inStep_functionBody f values span (paired.activate f.name) fun m₂ => body m₂ allowed)).bind
      fun signal m₃ m₃' known onward => .callResult onward f span signal

theorem inStep_call (name : Identifier) (arguments : List Expression) (span : Span)
    (below : ∀ y, Enters ⟨fuel + 1, a, .call name arguments span, m⟩ y → y.GoesInStep C) :
    Moment.GoesInStep C ⟨fuel + 1, a, .call name arguments span, m⟩ := by
  intro b m' paired _
  show InStep C b (call (fuel + 1) a name arguments span m) (call (fuel + 1) a name arguments span m')
  rw [call_eq]
  refine (InStep.calledFunction paired name).bind fun f m₀ m₀' called onward => ?_
  obtain ⟨found, rfl⟩ := calledFunction_eq_ok_iff.mp called
  refine ((below _ (.arguments found)).silent onward rfl).bind
    fun values m₁ m₁' known further => ?_
  exact inStep_invoke f values span further fun m₂ allowed bound =>
    below _ (.body found known allowed bound)

theorem inStep_branches (branches : List Branch) (otherwise : Option Block)
    (below : ∀ y, Enters ⟨fuel + 1, a, .branches branches otherwise, m⟩ y → y.GoesInStep C) :
    Moment.GoesInStep C ⟨fuel + 1, a, .branches branches otherwise, m⟩ := by
  intro b m' paired _
  show InStep C b (executeBranches (fuel + 1) a branches otherwise m)
    (executeBranches (fuel + 1) a branches otherwise m')
  unfold executeBranches
  cases branches with
  | nil =>
    cases otherwise with
    | none => exact .same paired
    | some otherwise =>
      exact .block (by decide) ((framesAt fuel).executeAll a otherwise.statements)
        ((below _ .otherwise).nested (paired.enter "else" (by decide)) (List.cons_ne_nil _ _))
  | cons branch rest =>
    obtain ⟨condition, body, span⟩ := branch
    refine ((below _ .branchCondition).silent paired rfl).bind
      fun taken m₁ m₁' known onward => ?_
    cases taken with
    | true =>
      exact .block (by decide) ((framesAt fuel).executeAll a body.statements)
        ((below _ (.branchBody known)).nested (onward.enter "if" (by decide))
          (List.cons_ne_nil _ _))
    | false => exact (below _ (.nextBranch known)).silent onward rfl

theorem inStep_loop (condition : Expression) (body : Block) (span : Span) (completed : Nat)
    (below : ∀ y, Enters ⟨fuel + 1, a, .loop condition body span completed, m⟩ y →
      y.GoesInStep C) :
    Moment.GoesInStep C ⟨fuel + 1, a, .loop condition body span completed, m⟩ := by
  intro b m' paired _
  show InStep C b (executeLoop (fuel + 1) a condition body span completed m)
    (executeLoop (fuel + 1) a condition body span completed m')
  unfold executeLoop
  refine ((below _ .loopCondition).silent paired rfl).bind
    fun again m₁ m₁' holds onward => ?_
  cases again with
  | false => exact .same onward
  | true =>
    rw [if_pos rfl]
    refine (InStep.exceededLimit? onward a.limits completed).bind
      fun limit m₂ m₂' allowed further => ?_
    cases limit with
    | some limit => exact .same further
    | none =>
      have ordinary : ScopeKind.loop ≠ .function := by decide
      refine (InStep.block ordinary ((framesAt fuel).executeAll a body.statements)
        ((below _ (.loopBody holds allowed)).nested (further.enter "while" ordinary)
          (List.cons_ne_nil _ _))).bind
        fun signal m₃ m₃' done ahead => ?_
      cases signal with
      | «break» | «return» => exact .same ahead
      | normal =>
        exact (below _ (.nextIteration holds allowed done (.inl rfl))).silent ahead rfl
      | «continue» =>
        exact (below _ (.nextIteration holds allowed done (.inr rfl))).silent ahead rfl

theorem admits_cons {statement : Statement} {rest : List Statement}
    (admitted : m.store.locals = [] →
      ∀ name ∈ (statement :: rest).filterMap (·.runtimeName?), C.Admits name) :
    (m.store.locals = [] → ∀ name ∈ statement.runtimeName?.toList, C.Admits name) ∧
      (m.store.locals = [] → ∀ name ∈ rest.filterMap (·.runtimeName?), C.Admits name) := by
  refine ⟨fun top name own => admitted top name ?_, fun top name later => admitted top name ?_⟩
  · exact List.mem_filterMap.mpr ⟨statement, List.mem_cons_self, Option.mem_toList.mp own⟩
  · obtain ⟨other, inside, runtime⟩ := List.mem_filterMap.mp later
    exact List.mem_filterMap.mpr ⟨other, List.mem_cons_of_mem _ inside, runtime⟩

theorem inStep_executeAll (statements : List Statement)
    (below : ∀ y, Enters ⟨fuel + 1, a, .executeAll statements, m⟩ y → y.GoesInStep C) :
    Moment.GoesInStep C ⟨fuel + 1, a, .executeAll statements, m⟩ := by
  intro b m' paired admitted
  show InStep C b (executeAll (fuel + 1) a statements m) (executeAll (fuel + 1) a statements m')
  unfold executeAll
  cases statements with
  | nil => exact .same paired
  | cons statement rest =>
    have admitted' := admits_cons admitted
    refine (below _ .first b m' paired admitted'.1).bind fun signal m₁ m₁' done onward => ?_
    cases signal with
    | normal =>
      refine below _ (.next done) b m₁' onward fun top => admitted'.2 ?_
      by_contra nested
      exact ((framesAt fuel).execute a statement).locals_ne_nil done nested top
    | _ => exact .same onward

/-- Only an error that a recover block takes can hide that a name was not bound. -/
theorem inStep_attempt (guarded recovery : Block) (span : Span)
    (faithful : C.exact ∨
      Moment.FindsAll ⟨fuel + 1, a, .execute (.attempt guarded recovery span), m⟩)
    (below : ∀ y, Enters ⟨fuel + 1, a, .execute (.attempt guarded recovery span), m⟩ y →
      y.GoesInStep C) :
    Moment.GoesInStep C ⟨fuel + 1, a, .execute (.attempt guarded recovery span), m⟩ := by
  intro b m' paired _
  show InStep C b (execute (fuel + 1) a (.attempt guarded recovery span) m)
    (execute (fuel + 1) a (.attempt guarded recovery span) m')
  unfold execute
  have ordinary : ScopeKind.guarded ≠ .function := by decide
  have ordinary' : ScopeKind.recovery ≠ .function := by decide
  refine InStep.recover (InStep.block ordinary
    ((framesAt fuel).executeAll a.inGuard guarded.statements)
    ((below _ .guarded).nested (paired.enter "try" ordinary) (List.cons_ne_nil _ _))) ?_ ?_
  · intro error m₁ m₁' caught onward
    refine InStep.block (P := fun b => b.2.IsData) ordinary' ?_ ?_
    · exact ((adds_define a.inRecovery errorAccessor _ recovery.span).mono
        (by rintro _ rfl; trivial)).bind
        fun _ => (framesAt fuel).executeAll a.inRecovery recovery.statements
    · refine (InStep.define (onward.enter "recover" ordinary')
        (absurd · (List.cons_ne_nil _ _)) _ recovery.span).bind
        fun _ m₂ m₂' bound further => ?_
      have nested := (adds_define a.inRecovery errorAccessor _ recovery.span).locals_ne_nil bound
        (List.cons_ne_nil _ _)
      exact (below _ (.recovery caught bound)).nested further nested
  · refine faithful.imp_right fun findsAll error caught => ?_
    refine findsAll _ error (.step .guarded (.refl _)) (.inl ?_)
    exact caught

theorem inStep_execute (statement : Statement)
    (faithful : C.exact ∨ Moment.FindsAll ⟨fuel + 1, a, .execute statement, m⟩)
    (below : ∀ y, Enters ⟨fuel + 1, a, .execute statement, m⟩ y → y.GoesInStep C) :
    Moment.GoesInStep C ⟨fuel + 1, a, .execute statement, m⟩ := by
  intro b m' paired admitted
  show InStep C b (execute (fuel + 1) a statement m) (execute (fuel + 1) a statement m')
  cases statement with
  | «variable» type name initializer span =>
    rw [execute_variable]
    have value : InStep C b (initialValue fuel a type initializer m)
        (initialValue fuel a type initializer m') := by
      cases initializer with
      | none => exact .same paired
      | some e => exact (below _ .initializer).silent paired rfl
    refine value.bind fun v m₁ m₁' known onward => ?_
    refine (InStep.define onward (fun top => admitted ?_ _ (List.mem_singleton_self _)) _
      name.span).bind fun _ m₂ m₂' _ further => .same further
    exact (((frame_initialValue (framesAt fuel) a type initializer).after known).locals_eq_nil_iff).mp
      top
  | recordInstance type name span =>
    unfold execute
    exact (InStep.instantiate paired (fun top => admitted top _ (List.mem_singleton_self _)) type
      span).bind fun _ m₁ m₁' _ onward => .same onward
  | assignment name value span =>
    unfold execute
    exact ((below _ .assigned).silent paired rfl).bind fun v m₁ m₁' _ onward =>
      (InStep.assign onward name.name _ span).bind fun _ m₂ m₂' _ further => .same further
  | fieldAssignment record field value span =>
    unfold execute
    exact ((below _ .fieldAssigned).silent paired rfl).bind fun v m₁ m₁' _ onward =>
      (InStep.assign onward record.name _ span).bind fun _ m₂ m₂' _ further => .same further
  | block body span =>
    unfold execute
    exact .block (by decide) ((framesAt fuel).executeAll a body.statements)
      ((below _ .block).nested (paired.enter "block" (by decide)) (List.cons_ne_nil _ _))
  | conditional branches otherwise span =>
    unfold execute
    exact (below _ .conditional).silent paired rfl
  | «while» condition body span =>
    unfold execute
    exact (below _ .while).silent paired rfl
  | «return» value span =>
    unfold execute
    cases value with
    | none => exact .same paired
    | some e =>
      exact ((below _ .returned).silent paired rfl).bind fun v m₁ m₁' _ onward =>
        .same onward
  | print e span =>
    unfold execute
    exact ((below _ .printed).silent paired rfl).bind fun v m₁ m₁' _ onward =>
      .same (onward.print v.text)
  | attempt guarded recovery span =>
    exact inStep_attempt guarded recovery span faithful below b m' paired admitted
  | expression e span =>
    rw [execute_expression]
    exact ((below _ .discarded).silent paired rfl).bind fun v m₁ m₁' _ onward =>
      .same onward
  | _ =>
    unfold execute
    exact .same paired

theorem inStep_program (statements : List Statement) (last : Option Value)
    (below : ∀ y, Enters ⟨fuel, a, .program statements last, m⟩ y → y.GoesInStep C) :
    Moment.GoesInStep C ⟨fuel, a, .program statements last, m⟩ := by
  intro b m' paired admitted
  show InStep C b (runStatements fuel a statements last m) (runStatements fuel a statements last m')
  cases statements with
  | nil => exact .same paired
  | cons statement rest =>
    have admitted' := admits_cons admitted
    by_cases expression : ∃ e span, statement = .expression e span
    · obtain ⟨e, span, rfl⟩ := expression
      rw [runStatements]
      refine ((below _ .topExpression).silent paired rfl).bind
        fun v m₁ m₁' known onward => ?_
      refine below _ (.afterTopExpression known) b m₁' onward fun top => admitted'.2 ?_
      exact (((framesAt fuel).evaluate a e).after known).locals_eq_nil_iff.mp top
    · have other : ∀ e span, statement ≠ .expression e span :=
        fun e span same => expression ⟨e, span, same⟩
      rw [runStatements.eq_3 _ _ _ _ _ other]
      refine (below _ (.topStatement other) b m' paired admitted'.1).bind
        fun signal m₁ m₁' done onward => ?_
      cases signal with
      | normal =>
        refine below _ (.afterTopStatement other done) b m₁' onward fun top => admitted'.2 ?_
        by_contra nested
        exact ((framesAt fuel).execute a statement).locals_ne_nil done nested top
      | _ => exact .same onward

end

/-- Two runs on machines that are paired do the same, as far as the first one finds every name that
it comes upon. -/
theorem goesInStep {C : Coupling} (x : Moment) (faithful : C.exact ∨ x.FindsAll) :
    x.GoesInStep C := by
  induction rank : x.rank using Nat.strongRecOn generalizing x with
  | ind n ih =>
    have below : ∀ y, Enters x y → y.GoesInStep C := fun y entered =>
      ih y.rank (rank ▸ entered.rank_lt) y
        (faithful.imp_right fun findsAll z error reached => findsAll z error (.step entered reached))
        rfl
    obtain ⟨fuel, a, task, m⟩ := x
    cases fuel with
    | zero =>
      cases task with
      | program statements last => exact inStep_program statements last below
      | _ => exact fun b m' paired _ => .same paired
    | succ fuel =>
      cases task with
      | evaluate e => exact inStep_evaluate e below
      | evaluateAll es => exact inStep_evaluateAll es below
      | call name arguments span => exact inStep_call name arguments span below
      | condition e => exact inStep_condition e below
      | execute statement => exact inStep_execute statement faithful below
      | executeAll statements => exact inStep_executeAll statements below
      | branches tried otherwise => exact inStep_branches tried otherwise below
      | loop test body span completed => exact inStep_loop test body span completed below
      | program statements last => exact inStep_program statements last below

/-- A run that finds every name ends as the other one does. -/
theorem Moment.FindsAll.inStep {C : Coupling} {x : Moment} (findsAll : x.FindsAll) {b : Background}
    {m' : Machine} (paired : x.machine.Paired C b m')
    (admitted : x.machine.store.locals = [] → ∀ name ∈ x.task.binds, C.Admits name) :
    (x.task.perform x.fuel x.activation m').1 = x.perform.1 ∧
      x.perform.2.Paired C b (x.task.perform x.fuel x.activation m').2 := by
  have step := goesInStep x (.inr findsAll) b m' paired admitted
  generalize ended : x.perform = left at step ⊢
  generalize x.task.perform x.fuel x.activation m' = left' at step ⊢
  cases step with
  | same after => exact ⟨rfl, after⟩
  | @apart u fault m₁ ended' vague raised absence =>
    have unwound : x.UnwindsWith u := Moment.unwindsWith_iff.mpr ⟨m₁, ended⟩
    cases u with
    | recoverable error =>
      cases raised
      exact absurd absence (findsAll x error (.refl x) (.inl unwound))
    | fatal error =>
      cases raised
      exact absurd absence (findsAll x error (.refl x) (.inr unwound))
    | outOfFuel => cases raised

/-! ## One run -/

/-- A machine is paired with itself, and so tells what every task leaves alone. -/
theorem exists_paired_self (m : Machine) :
    ∃ hidden, m.Paired .equal ⟨hidden, hidden, m.output, m.output, m.deadline⟩ m := by
  obtain ⟨hidden, facing⟩ := Facing.exists_refl m.store.locals
  exact ⟨hidden, ⟨rfl, facing⟩, ⟨#[], by simp, by simp⟩, .refl m.deadline, rfl⟩

/-- However a task ends, it has printed further lines at most. -/
theorem exists_output_eq_append (x : Moment) :
    ∃ lines, x.perform.2.output = x.machine.output ++ lines := by
  obtain ⟨hidden, paired⟩ := exists_paired_self x.machine
  have step := goesInStep (C := .equal) x (.inl trivial) _ _ paired fun _ _ _ => trivial
  obtain ⟨lines, printed, -⟩ := (step.of_exact trivial).2.output
  exact ⟨lines, printed⟩

/-- However a task ends, its deadline has at most come closer. -/
theorem leadsTo_perform (x : Moment) : x.machine.deadline.LeadsTo x.perform.2.deadline := by
  obtain ⟨hidden, paired⟩ := exists_paired_self x.machine
  have step := goesInStep (C := .equal) x (.inl trivial) _ _ paired fun _ _ _ => trivial
  exact (step.of_exact trivial).2.deadline.1

end Execution

end CheckedScript
