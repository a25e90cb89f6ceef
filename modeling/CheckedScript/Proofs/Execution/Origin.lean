import CheckedScript.Proofs.Execution.Task

/-!
# Where errors come from

Every error is raised by a task of its own and then passed on unchanged by the tasks around it, up
to the recover block that takes it. `Raises` lists the places where a task raises something itself,
and `exists_raises` finds the place where an error was raised.
-/

namespace CheckedScript

namespace Execution

open Run

/-- The task itself raises this, once the tasks it depends on have ended. -/
inductive Raises : Moment → Unwind → Prop
  | exhausted {a : Activation} {task : Task} {m : Machine}
      (bounded : ∀ statements last, task ≠ .program statements last) :
      Raises ⟨0, a, task, m⟩ .outOfFuel
  | variable {fuel : Nat} {a : Activation} {m m₁ : Machine} {name : Identifier} {span : Span}
      {u : Unwind} (raised : readVariable a name m = (.error u, m₁)) :
      Raises ⟨fuel + 1, a, .evaluate (.identifier name span), m⟩ u
  | message {fuel : Nat} {a : Activation} {m m₁ : Machine} {name : Identifier}
      {arguments : List Expression} {span : Span} {u : Unwind}
      (accessor : (name.name == errorAccessor && arguments.isEmpty) = true)
      (raised : readVariable a name m = (.error u, m₁)) :
      Raises ⟨fuel + 1, a, .evaluate (.call name arguments span), m⟩ u
  | position {fuel : Nat} {a : Activation} {m m₁ : Machine} {array : Identifier}
      {index : Expression} {v : Value} {span : Span}
      (known : evaluate fuel a index m = (.ok v, m₁)) (wrong : ∀ w, v ≠ .int w) :
      Raises ⟨fuel + 1, a, .evaluate (.index array index span), m⟩
        (a.unwinding (.invalidIndex v.kindName) index.span)
  | element {fuel : Nat} {a : Activation} {m m₁ m₂ : Machine} {array : Identifier}
      {index : Expression} {w : Word} {span : Span} {u : Unwind}
      (known : evaluate fuel a index m = (.ok (.int w), m₁))
      (raised : readElement a array.name w span m₁ = (.error u, m₂)) :
      Raises ⟨fuel + 1, a, .evaluate (.index array index span), m⟩ u
  | field {fuel : Nat} {a : Activation} {m m₁ : Machine} {record field : Identifier} {span : Span}
      {u : Unwind} (raised : readField a record field m = (.error u, m₁)) :
      Raises ⟨fuel + 1, a, .evaluate (.fieldAccess record field span), m⟩ u
  | unary {fuel : Nat} {a : Activation} {m m₁ : Machine} {operator : UnaryOperator}
      {operand : Expression} {v : Value} {fault : Fault} {span : Span}
      (known : evaluate fuel a operand m = (.ok v, m₁))
      (refused : Value.applyUnary operator v = .error fault) :
      Raises ⟨fuel + 1, a, .evaluate (.unary operator operand span), m⟩ (a.unwinding fault span)
  | binary {fuel : Nat} {a : Activation} {m m₁ m₂ : Machine} {operator : BinaryOperator}
      {left right : Expression} {v w : Value} {fault : Fault} {span : Span}
      (known : evaluate fuel a left m = (.ok v, m₁)) (undecided : decides operator v = false)
      (known' : evaluate fuel a right m₁ = (.ok w, m₂))
      (refused : Value.applyBinary operator v w = .error fault) :
      Raises ⟨fuel + 1, a, .evaluate (.binary operator left right span), m⟩
        (a.unwinding fault span)
  | callee {fuel : Nat} {a : Activation} {m m₁ : Machine} {name : Identifier}
      {arguments : List Expression} {span : Span} {u : Unwind}
      (raised : calledFunction a name m = (.error u, m₁)) :
      Raises ⟨fuel + 1, a, .call name arguments span, m⟩ u
  | refused {fuel : Nat} {a : Activation} {m m₁ : Machine} {name : Identifier}
      {arguments : List Expression} {f : FunctionSymbol} {values : List Value} {fault : Fault}
      {span : Span} (found : m.store.lookup? name.name = some (.function f))
      (known : evaluateAll fuel a arguments m = (.ok values, m₁))
      (forbidden : callFault? a f values = some fault) :
      Raises ⟨fuel + 1, a, .call name arguments span, m⟩ (a.unwinding fault span)
  | parameters {fuel : Nat} {a : Activation} {m m₁ m₂ : Machine} {name : Identifier}
      {arguments : List Expression} {f : FunctionSymbol} {values : List Value} {span : Span}
      {u : Unwind} (found : m.store.lookup? name.name = some (.function f))
      (known : evaluateAll fuel a arguments m = (.ok values, m₁))
      (allowed : callFault? a f values = none)
      (raised : bindParameters a span f.parameters values (m₁.enter f.name .function) =
        (.error u, m₂)) :
      Raises ⟨fuel + 1, a, .call name arguments span, m⟩ u
  | escaped {fuel : Nat} {a : Activation} {m m₁ m₂ m₃ : Machine} {name : Identifier}
      {arguments : List Expression} {f : FunctionSymbol} {values : List Value} {signal : Signal}
      {span : Span} (found : m.store.lookup? name.name = some (.function f))
      (known : evaluateAll fuel a arguments m = (.ok values, m₁))
      (allowed : callFault? a f values = none)
      (bound : bindParameters a span f.parameters values (m₁.enter f.name .function) =
        (.ok (), m₂))
      (done : executeAll fuel a.inCall f.body.statements m₂ = (.ok signal, m₃))
      (control : signal = .break ∨ signal = .continue) :
      Raises ⟨fuel + 1, a, .call name arguments span, m⟩
        (a.unwinding (.controlFlowEscaped signal.name f.name) span)
  | truth {fuel : Nat} {a : Activation} {m m₁ : Machine} {e : Expression} {v : Value}
      (known : evaluate fuel a e m = (.ok v, m₁)) (wrong : ∀ b, v ≠ .bool b) :
      Raises ⟨fuel + 1, a, .condition e, m⟩ (a.unwinding (.typeMismatch "bool" v.kindName) e.span)
  | declaration {fuel : Nat} {a : Activation} {m m₁ m₂ : Machine} {type : TypeName}
      {name : Identifier} {initializer : Option Expression} {v : Value} {span : Span} {u : Unwind}
      (known : initialValue fuel a type initializer m = (.ok v, m₁))
      (raised : define a name.name (.variable (.ofTypeName type) v) name.span m₁ =
        (.error u, m₂)) :
      Raises ⟨fuel + 1, a, .execute (.variable type name initializer span), m⟩ u
  | instance {fuel : Nat} {a : Activation} {m m₁ : Machine} {type name : Identifier} {span : Span}
      {u : Unwind} (raised : instantiate a type name span m = (.error u, m₁)) :
      Raises ⟨fuel + 1, a, .execute (.recordInstance type name span), m⟩ u
  | assignment {fuel : Nat} {a : Activation} {m m₁ m₂ : Machine} {name : Identifier}
      {value : Expression} {v : Value} {span : Span} {u : Unwind}
      (known : evaluate fuel a value m = (.ok v, m₁))
      (raised : assign a name.name (.value v) span m₁ = (.error u, m₂)) :
      Raises ⟨fuel + 1, a, .execute (.assignment name value span), m⟩ u
  | fieldAssignment {fuel : Nat} {a : Activation} {m m₁ m₂ : Machine} {record field : Identifier}
      {value : Expression} {v : Value} {span : Span} {u : Unwind}
      (known : evaluate fuel a value m = (.ok v, m₁))
      (raised : assign a record.name (.field field.name v) span m₁ = (.error u, m₂)) :
      Raises ⟨fuel + 1, a, .execute (.fieldAssignment record field value span), m⟩ u
  | caught {fuel : Nat} {a : Activation} {m m₁ m₂ : Machine} {guarded recovery : Block}
      {error : RuntimeError} {span : Span} {u : Unwind}
      (caught : Run.inScope "try" .guarded (executeAll fuel a.inGuard guarded.statements) m =
        (.error (.recoverable error), m₁))
      (raised : define a.inRecovery errorAccessor (.variable .str (.str error.message))
        recovery.span (m₁.enter "recover" .recovery) = (.error u, m₂)) :
      Raises ⟨fuel + 1, a, .execute (.attempt guarded recovery span), m⟩ u
  | limit {fuel : Nat} {a : Activation} {m m₁ m₂ : Machine} {condition : Expression}
      {body : Block} {completed : Nat} {limit : LoopLimit} {span : Span}
      (holds : evaluateCondition fuel a condition m = (.ok true, m₁))
      (exceeded : exceededLimit? a.limits completed m₁ = (.ok (some limit), m₂)) :
      Raises ⟨fuel + 1, a, .loop condition body span completed, m⟩
        (a.unwinding (.loopLimitExceeded limit) span)
  | stray {fuel : Nat} {a : Activation} {m m₁ : Machine} {statement : Statement}
      {rest : List Statement} {last : Option Value} {signal : Signal}
      (other : ∀ e span, statement ≠ .expression e span)
      (done : execute fuel a statement m = (.ok signal, m₁)) (control : signal ≠ .normal) :
      Raises ⟨fuel, a, .program (statement :: rest) last, m⟩
        (.fatal ⟨.internal s!"'{signal.name}' escaped the program", statement.span⟩)

/-- What unwinds the task is raised by it, or unwinds a task that it performs directly. -/
def Traced (x : Moment) (u : Unwind) : Prop := Raises x u ∨ ∃ y, Enters x y ∧ y.UnwindsWith u

theorem Enters.traced {x y : Moment} {u : Unwind} {m' : Machine} (entered : Enters x y)
    (unwound : y.perform = (.error u, m')) : Traced x u :=
  .inr ⟨y, entered, by unfold Moment.UnwindsWith; rw [unwound]⟩

theorem yield_eq_error {a : Activation} {result : Except Fault Value} {span : Span}
    {m m' : Machine} {u : Unwind} (unwound : yield a result span m = (.error u, m')) :
    ∃ fault, result = .error fault ∧ u = a.unwinding fault span := by
  cases result with
  | ok value => cases unwound
  | error fault =>
    cases unwound
    exact ⟨fault, rfl, rfl⟩

theorem traced_evaluate {fuel : Nat} {a : Activation} {e : Expression} {m m' : Machine}
    {u : Unwind} (unwound : evaluate (fuel + 1) a e m = (.error u, m')) :
    Traced ⟨fuel + 1, a, .evaluate e, m⟩ u := by
  unfold evaluate at unwound
  cases e with
  | identifier name span => exact .inl (.variable unwound)
  | fieldAccess record field span => exact .inl (.field unwound)
  | parenthesized inner span => exact Enters.inner.traced unwound
  | index array index span =>
    rcases bind_eq_error_iff.mp unwound with early | ⟨v, m₁, known, late⟩
    · exact Enters.position.traced early
    · cases v with
      | int w => exact .inl (.element known late)
      | _ =>
        cases late
        exact .inl (.position known nofun)
  | call name arguments span =>
    dsimp only at unwound
    split at unwound
    · next accessor => exact .inl (.message accessor unwound)
    · next function => exact (Enters.called (Bool.eq_false_iff.mpr function)).traced unwound
  | unary operator operand span =>
    rcases bind_eq_error_iff.mp unwound with early | ⟨v, m₁, known, late⟩
    · exact Enters.operand.traced early
    · obtain ⟨fault, refused, rfl⟩ := yield_eq_error late
      exact .inl (.unary known refused)
  | binary operator left right span =>
    rcases bind_eq_error_iff.mp unwound with early | ⟨v, m₁, known, late⟩
    · exact Enters.left.traced early
    · split at late
      · cases late
      · next undecided =>
        rw [Bool.not_eq_true] at undecided
        rcases bind_eq_error_iff.mp late with early | ⟨w, m₂, known', later⟩
        · exact (Enters.right known undecided).traced early
        · obtain ⟨fault, refused, rfl⟩ := yield_eq_error later
          exact .inl (.binary known undecided known' refused)
  | _ => cases unwound

theorem traced_evaluateAll {fuel : Nat} {a : Activation} {es : List Expression} {m m' : Machine}
    {u : Unwind} (unwound : evaluateAll (fuel + 1) a es m = (.error u, m')) :
    Traced ⟨fuel + 1, a, .evaluateAll es, m⟩ u := by
  unfold evaluateAll at unwound
  cases es with
  | nil => cases unwound
  | cons e rest =>
    rcases bind_eq_error_iff.mp unwound with early | ⟨v, m₁, known, late⟩
    · exact Enters.firstArgument.traced early
    · rcases bind_eq_error_iff.mp late with early | ⟨vs, m₂, -, later⟩
      · exact (Enters.nextArguments known).traced early
      · cases later

theorem traced_call {fuel : Nat} {a : Activation} {name : Identifier}
    {arguments : List Expression} {span : Span} {m m' : Machine} {u : Unwind}
    (unwound : call (fuel + 1) a name arguments span m = (.error u, m')) :
    Traced ⟨fuel + 1, a, .call name arguments span, m⟩ u := by
  unfold call at unwound
  rcases bind_eq_error_iff.mp unwound with early | ⟨f, m₀, called, late⟩
  · exact .inl (.callee early)
  · obtain ⟨found, rfl⟩ := calledFunction_eq_ok_iff.mp called
    rcases bind_eq_error_iff.mp late with early | ⟨values, m₁, known, later⟩
    · exact (Enters.arguments found).traced early
    · cases allowed : callFault? a f values with
      | some fault =>
        rw [allowed] at later
        cases later
        exact .inl (.refused found known allowed)
      | none =>
        rw [allowed] at later
        rcases bind_eq_error_iff.mp later with inside | ⟨signal, m₃, ended, escaped⟩
        · obtain ⟨left, unwound, -⟩ := inScope_eq_error_iff.mp inside
          rcases bind_eq_error_iff.mp unwound with early | ⟨_, m₂, bound, inBody⟩
          · exact .inl (.parameters found known allowed early)
          · exact (Enters.body found known allowed bound).traced inBody
        · obtain ⟨left, done, -⟩ := inScope_eq_ok_iff.mp ended
          obtain ⟨_, m₂, bound, done⟩ := bind_eq_ok_iff.mp done
          cases signal with
          | normal | «return» => cases escaped
          -- A call takes up nothing but a return.
          | «break» =>
            cases escaped
            exact .inl (.escaped found known allowed bound done (.inl rfl))
          | «continue» =>
            cases escaped
            exact .inl (.escaped found known allowed bound done (.inr rfl))

theorem traced_condition {fuel : Nat} {a : Activation} {e : Expression} {m m' : Machine}
    {u : Unwind} (unwound : evaluateCondition (fuel + 1) a e m = (.error u, m')) :
    Traced ⟨fuel + 1, a, .condition e, m⟩ u := by
  unfold evaluateCondition at unwound
  rcases bind_eq_error_iff.mp unwound with early | ⟨v, m₁, known, late⟩
  · exact Enters.truth.traced early
  · cases v with
    | bool b => cases late
    | _ =>
      cases late
      exact .inl (.truth known nofun)

theorem traced_execute {fuel : Nat} {a : Activation} {statement : Statement} {m m' : Machine}
    {u : Unwind} (unwound : execute (fuel + 1) a statement m = (.error u, m')) :
    Traced ⟨fuel + 1, a, .execute statement, m⟩ u := by
  cases statement with
  | «variable» type name initializer span =>
    rw [execute_variable] at unwound
    rcases bind_eq_error_iff.mp unwound with early | ⟨v, m₁, known, late⟩
    · cases initializer with
      | none => cases early
      | some e => exact Enters.initializer.traced early
    · rcases bind_eq_error_iff.mp late with early | ⟨_, m₂, -, later⟩
      · exact .inl (.declaration known early)
      · cases later
  | assignment name value span =>
    unfold execute at unwound
    rcases bind_eq_error_iff.mp unwound with early | ⟨v, m₁, known, late⟩
    · exact Enters.assigned.traced early
    · rcases bind_eq_error_iff.mp late with early | ⟨_, m₂, -, later⟩
      · exact .inl (.assignment known early)
      · cases later
  | fieldAssignment record field value span =>
    unfold execute at unwound
    rcases bind_eq_error_iff.mp unwound with early | ⟨v, m₁, known, late⟩
    · exact Enters.fieldAssigned.traced early
    · rcases bind_eq_error_iff.mp late with early | ⟨_, m₂, -, later⟩
      · exact .inl (.fieldAssignment known early)
      · cases later
  | block body span =>
    unfold execute at unwound
    obtain ⟨left, inBlock, -⟩ := inScope_eq_error_iff.mp unwound
    exact Enters.block.traced inBlock
  | conditional branches otherwise span =>
    unfold execute at unwound
    exact Enters.conditional.traced unwound
  | «while» condition body span =>
    unfold execute at unwound
    exact Enters.while.traced unwound
  | «return» value span =>
    cases value with
    | none => cases unwound
    | some e =>
      unfold execute at unwound
      rcases bind_eq_error_iff.mp unwound with early | ⟨v, m₁, -, late⟩
      · exact Enters.returned.traced early
      · cases late
  | print e span =>
    unfold execute at unwound
    rcases bind_eq_error_iff.mp unwound with early | ⟨v, m₁, -, late⟩
    · exact Enters.printed.traced early
    · cases late
  | attempt guarded recovery span =>
    unfold execute at unwound
    rcases recover_cases unwound with early | ⟨error, m₁, caught, late⟩
    · obtain ⟨left, inGuarded, -⟩ := inScope_eq_error_iff.mp early
      exact Enters.guarded.traced inGuarded
    · obtain ⟨left, inRecovery, -⟩ := inScope_eq_error_iff.mp late
      rcases bind_eq_error_iff.mp inRecovery with early | ⟨_, m₂, bound, later⟩
      · exact .inl (.caught caught early)
      · exact (Enters.recovery caught bound).traced later
  | recordInstance type name span =>
    unfold execute at unwound
    rcases bind_eq_error_iff.mp unwound with early | ⟨_, m₁, -, late⟩
    · exact .inl (.instance early)
    · cases late
  | expression e span =>
    rw [execute_expression] at unwound
    rcases bind_eq_error_iff.mp unwound with early | ⟨_, m₁, -, late⟩
    · exact Enters.discarded.traced early
    · cases late
  | _ => cases unwound

theorem traced_executeAll {fuel : Nat} {a : Activation} {statements : List Statement}
    {m m' : Machine} {u : Unwind}
    (unwound : executeAll (fuel + 1) a statements m = (.error u, m')) :
    Traced ⟨fuel + 1, a, .executeAll statements, m⟩ u := by
  unfold executeAll at unwound
  cases statements with
  | nil => cases unwound
  | cons statement rest =>
    rcases bind_eq_error_iff.mp unwound with early | ⟨signal, m₁, done, late⟩
    · exact Enters.first.traced early
    · cases signal with
      | normal => exact (Enters.next done).traced late
      | _ => cases late

theorem traced_branches {fuel : Nat} {a : Activation} {branches : List Branch}
    {otherwise : Option Block} {m m' : Machine} {u : Unwind}
    (unwound : executeBranches (fuel + 1) a branches otherwise m = (.error u, m')) :
    Traced ⟨fuel + 1, a, .branches branches otherwise, m⟩ u := by
  unfold executeBranches at unwound
  cases branches with
  | nil =>
    cases otherwise with
    | none => cases unwound
    | some otherwise =>
      obtain ⟨left, inBlock, -⟩ := inScope_eq_error_iff.mp unwound
      exact Enters.otherwise.traced inBlock
  | cons branch rest =>
    obtain ⟨condition, body, span⟩ := branch
    rcases bind_eq_error_iff.mp unwound with early | ⟨taken, m₁, known, late⟩
    · exact Enters.branchCondition.traced early
    · cases taken with
      | true =>
        obtain ⟨left, inBody, -⟩ := inScope_eq_error_iff.mp late
        exact (Enters.branchBody known).traced inBody
      | false => exact (Enters.nextBranch known).traced late

theorem traced_loop {fuel : Nat} {a : Activation} {condition : Expression} {body : Block}
    {span : Span} {completed : Nat} {m m' : Machine} {u : Unwind}
    (unwound : executeLoop (fuel + 1) a condition body span completed m = (.error u, m')) :
    Traced ⟨fuel + 1, a, .loop condition body span completed, m⟩ u := by
  unfold executeLoop at unwound
  rcases bind_eq_error_iff.mp unwound with early | ⟨again, m₁, known, late⟩
  · exact Enters.loopCondition.traced early
  · cases again with
    | false => cases late
    | true =>
      rw [if_pos rfl] at late
      rcases bind_eq_error_iff.mp late with failed | ⟨limit, m₂, asked, late⟩
      · exact absurd failed exceededLimit?_ne_error
      cases limit with
      | some limit =>
        cases late
        exact .inl (.limit known asked)
      | none =>
        rcases bind_eq_error_iff.mp late with early | ⟨signal, m₃, done, later⟩
        · obtain ⟨left, inBody, -⟩ := inScope_eq_error_iff.mp early
          exact (Enters.loopBody known asked).traced inBody
        · cases signal with
          | «break» | «return» => cases later
          | normal => exact (Enters.nextIteration known asked done (.inl rfl)).traced later
          | «continue» => exact (Enters.nextIteration known asked done (.inr rfl)).traced later

theorem traced_program {fuel : Nat} {a : Activation} {statements : List Statement}
    {last : Option Value} {m m' : Machine} {u : Unwind}
    (unwound : runStatements fuel a statements last m = (.error u, m')) :
    Traced ⟨fuel, a, .program statements last, m⟩ u := by
  unfold runStatements at unwound
  split at unwound
  · cases unwound
  · rcases bind_eq_error_iff.mp unwound with early | ⟨v, m₁, known, late⟩
    · exact Enters.topExpression.traced early
    · exact (Enters.afterTopExpression known).traced late
  · next last statement rest other =>
    rcases bind_eq_error_iff.mp unwound with early | ⟨signal, m₁, done, late⟩
    · exact (Enters.topStatement other).traced early
    · cases signal with
      | normal => exact (Enters.afterTopStatement other done).traced late
      | _ =>
        cases late
        exact .inl (.stray other done nofun)

theorem traced {x : Moment} {u : Unwind} (unwound : x.UnwindsWith u) : Traced x u := by
  obtain ⟨fuel, a, task, m⟩ := x
  obtain ⟨m', ended⟩ := Moment.unwindsWith_iff.mp unwound
  cases fuel with
  | zero =>
    cases task with
    | program statements last => exact traced_program ended
    | _ =>
      cases ended
      exact .inl (.exhausted nofun)
  | succ fuel =>
    cases task with
    | evaluate e => exact traced_evaluate ended
    | evaluateAll es => exact traced_evaluateAll ended
    | call name arguments span => exact traced_call ended
    | condition e => exact traced_condition ended
    | execute statement => exact traced_execute ended
    | executeAll statements => exact traced_executeAll ended
    | branches branches otherwise => exact traced_branches ended
    | loop condition body span completed => exact traced_loop ended
    | program statements last => exact traced_program ended

/-- What unwinds a task was raised by a task that it performs. -/
theorem exists_raises {x : Moment} {u : Unwind} (unwound : x.UnwindsWith u) :
    ∃ y, Reaches x y ∧ Raises y u ∧ y.UnwindsWith u := by
  induction rank : x.rank using Nat.strongRecOn generalizing x with
  | ind n ih =>
    rcases traced unwound with here | ⟨y, entered, below⟩
    · exact ⟨x, .refl x, here, unwound⟩
    · obtain ⟨z, reached, raised⟩ := ih y.rank (rank ▸ entered.rank_lt) below rfl
      exact ⟨z, .step entered reached, raised⟩

/-- An error that ends a task was raised by a task that it performs. -/
theorem exists_raises_of_endsWith {x : Moment} {error : RuntimeError} (ends : x.EndsWith error) :
    ∃ y u, Reaches x y ∧ Raises y u ∧ y.EndsWith error ∧ u.fault? = some error.fault := by
  rcases ends with unwound | unwound
  · obtain ⟨y, reached, raised, ends⟩ := exists_raises unwound
    exact ⟨y, _, reached, raised, .inl ends, rfl⟩
  · obtain ⟨y, reached, raised, ends⟩ := exists_raises unwound
    exact ⟨y, _, reached, raised, .inr ends, rfl⟩

/-- Fuel runs out where none is left, and nowhere else. -/
theorem Raises.exhausts {x : Moment} (raised : Raises x .outOfFuel) :
    x.fuel = 0 ∧ ∀ statements last, x.task ≠ .program statements last := by
  generalize same : Unwind.outOfFuel = u at raised
  cases raised with
  | exhausted bounded => exact ⟨rfl, bounded⟩
  | «variable» raised | message accessor raised =>
    rw [readVariable_apply, ← same] at raised
    split at raised <;> simp at raised
  | element known raised =>
    rw [readElement_apply, ← same] at raised
    split at raised <;> (try split at raised) <;> simp at raised
  | field raised =>
    rw [readField_apply, ← same] at raised
    split at raised <;> (try split at raised) <;> simp at raised
  | callee raised =>
    rw [calledFunction_apply, ← same] at raised
    split at raised <;> simp at raised
  | «instance» raised =>
    rw [instantiate_apply] at raised
    split at raised
    · exact absurd same.symm (define_faults raised)
    · simp [← same] at raised
  | assignment known raised | fieldAssignment known raised =>
    rw [assign_apply, ← same] at raised
    split at raised <;> simp at raised
  | declaration known raised | caught caught raised => exact absurd same.symm (define_faults raised)
  | parameters found known allowed raised => exact absurd same.symm (bindParameters_faults raised)
  | stray => cases same
  | _ => exact absurd same.symm (Activation.unwinding_ne_outOfFuel _ _ _)

end Execution

end CheckedScript
