import CheckedScript.Proofs.Execution.Frame
import CheckedScript.Proofs.Execution.Origin

/-!
# Errors and the guard

Whether an error can be caught is decided where it is raised, by the guard that stands there. A `try`
sets the guard for its own statements and whatever they call, and its recover block clears it. So an
error that can be caught meets the innermost `try`, and an error in a recover block meets none
(`guard_exact`).
-/

namespace CheckedScript

namespace Activation

variable (a : Activation) {fault : Fault}

theorem unwinding_of_unrecoverable (unrecoverable : fault.isRecoverable = false) (span : Span) :
    a.unwinding fault span = .fatal ⟨fault, span⟩ := by
  unfold unwinding
  rw [unrecoverable, Bool.and_false]
  rfl

theorem unwinding_of_not_guarded (unguarded : a.guarded = false) (span : Span) :
    a.unwinding fault span = .fatal ⟨fault, span⟩ := by
  unfold unwinding
  rw [unguarded, Bool.false_and]
  rfl

theorem unwinding_of_guarded (guarded : a.guarded = true)
    (recoverable : fault.isRecoverable = true) (span : Span) :
    a.unwinding fault span = .recoverable ⟨fault, span⟩ := by
  unfold unwinding
  rw [guarded, recoverable]
  rfl

end Activation

/-- The scopes of a recover block: those of the `try`, and one that binds the message. -/
def Machine.inRecovery (m : Machine) (error : RuntimeError) : Machine :=
  { m with
    store := (m.store.push "recover" .recovery).extend
      [(errorAccessor, .variable .str (.str error.message))] }

namespace Execution

open Run

/-! ## Raising -/

section

variable {a : Activation} {m m' : Machine} {u : Unwind} {span : Span}

theorem define_eq_error {name : String} {symbol : Symbol}
    (raised : define a name symbol span m = (.error u, m')) :
    ∃ message, u = .fatal ⟨.internal message, span⟩ := by
  rw [define_apply] at raised
  split at raised
  · cases raised
  · cases raised
    exact ⟨_, Activation.unwinding_of_unrecoverable a rfl span⟩

theorem instantiate_eq_error {type name : Identifier}
    (raised : instantiate a type name span m = (.error u, m')) :
    ∃ message span', u = .fatal ⟨.internal message, span'⟩ := by
  rw [instantiate_apply] at raised
  split at raised
  · obtain ⟨message, same⟩ := define_eq_error raised
    exact ⟨message, _, same⟩
  · cases raised
    exact ⟨_, _, Activation.unwinding_of_unrecoverable a rfl span⟩

theorem bindParameters_eq_error {parameters : List FunctionParameter} {values : List Value}
    (raised : bindParameters a span parameters values m = (.error u, m')) :
    ∃ message, u = .fatal ⟨.internal message, span⟩ := by
  induction parameters generalizing values m with
  | nil => cases raised
  | cons p parameters ih =>
    cases values with
    | nil => cases raised
    | cons value values =>
      unfold bindParameters at raised
      rcases bind_eq_error_iff.mp raised with early | ⟨_, m₁, -, late⟩
      · exact define_eq_error early
      · exact ih late

end

/-- What a task raises itself, it raises under the guard that it is performed with. -/
theorem Raises.eq_unwinding {x : Moment} {u : Unwind} (raised : Raises x u) :
    u = .outOfFuel ∨ ∃ fault span, u = x.activation.unwinding fault span := by
  have internal {message : String} {span : Span} (same : u = .fatal ⟨.internal message, span⟩) :
      u = .outOfFuel ∨ ∃ fault span, u = x.activation.unwinding fault span :=
    .inr ⟨_, _, same.trans (Activation.unwinding_of_unrecoverable _ rfl span).symm⟩
  cases raised with
  | exhausted bounded => exact .inl rfl
  | «variable» raised | message accessor raised =>
    rw [readVariable_apply] at raised
    split at raised <;> cases raised <;> exact .inr ⟨_, _, rfl⟩
  | element known raised =>
    rw [readElement_apply] at raised
    split at raised <;> (try split at raised) <;> cases raised <;> exact .inr ⟨_, _, rfl⟩
  | field raised =>
    rw [readField_apply] at raised
    split at raised <;> (try split at raised) <;> cases raised <;> exact .inr ⟨_, _, rfl⟩
  | callee raised =>
    rw [calledFunction_apply] at raised
    split at raised <;> cases raised <;> exact .inr ⟨_, _, rfl⟩
  | parameters found known allowed raised =>
    obtain ⟨message, same⟩ := bindParameters_eq_error raised
    exact internal same
  | declaration known raised =>
    obtain ⟨message, same⟩ := define_eq_error raised
    exact internal same
  | «instance» raised =>
    obtain ⟨message, span, same⟩ := instantiate_eq_error raised
    exact internal same
  | assignment known raised | fieldAssignment known raised =>
    rw [assign_apply] at raised
    split at raised <;> cases raised
    exact .inr ⟨_, _, rfl⟩
  | caught caught raised =>
    obtain ⟨message, same⟩ := define_eq_error raised
    exact internal same
  | stray other done control => exact internal rfl
  | position | unary | binary | refused | escaped | truth | limit => exact .inr ⟨_, _, rfl⟩

/-! ## Recovering -/

/-- The `try` of the first moment hands the error to its recover block, and the second moment is that
of the statements of this block. -/
inductive Recovers : Moment → RuntimeError → Moment → Prop
  | intro {fuel : Nat} {a : Activation} {m m₁ m₂ : Machine} {guarded recovery : Block}
      {error : RuntimeError} {span : Span}
      (caught : Run.inScope "try" .guarded (executeAll fuel a.inGuard guarded.statements) m =
        (.error (.recoverable error), m₁))
      (bound : define a.inRecovery errorAccessor (.variable .str (.str error.message))
        recovery.span (m₁.enter "recover" .recovery) = (.ok (), m₂)) :
      Recovers ⟨fuel + 1, a, .execute (.attempt guarded recovery span), m⟩ error
        ⟨fuel, a.inRecovery, .executeAll recovery.statements, m₂⟩

theorem define_errorAccessor (a : Activation) (error : RuntimeError) (span : Span) (m : Machine) :
    define a errorAccessor (.variable .str (.str error.message)) span
      (m.enter "recover" .recovery) = (.ok (), m.inRecovery error) := by
  rw [define_apply, Store.define_of_fresh _ rfl]
  rfl

section

variable {fuel : Nat} {a : Activation} {guarded recovery : Block} {span : Span} {m : Machine}
  {error : RuntimeError}

theorem recovers_iff {z : Moment} :
    Recovers ⟨fuel + 1, a, .execute (.attempt guarded recovery span), m⟩ error z ↔
      ∃ m₁, Run.inScope "try" .guarded (executeAll fuel a.inGuard guarded.statements) m =
          (.error (.recoverable error), m₁) ∧
        z = ⟨fuel, a.inRecovery, .executeAll recovery.statements, m₁.inRecovery error⟩ := by
  constructor
  · rintro ⟨caught, bound⟩
    rw [define_errorAccessor] at bound
    cases bound
    exact ⟨_, caught, rfl⟩
  · rintro ⟨m₁, caught, rfl⟩
    exact .intro caught (define_errorAccessor ..)

theorem execute_attempt (fuel : Nat) (a : Activation) (guarded recovery : Block) (span : Span) :
    execute (fuel + 1) a (.attempt guarded recovery span) =
      Run.recover (Run.inScope "try" .guarded (executeAll fuel a.inGuard guarded.statements))
        fun error => Run.inScope "recover" .recovery (do
          define a.inRecovery errorAccessor (.variable .str (.str error.message)) recovery.span
          executeAll fuel a.inRecovery recovery.statements) := by
  unfold execute
  rfl

/-- The result of a `try` whose protected block has ended with an error that can be caught. -/
theorem execute_attempt_of_caught {m₁ : Machine}
    (caught : Run.inScope "try" .guarded (executeAll fuel a.inGuard guarded.statements) m =
      (.error (.recoverable error), m₁)) :
    execute (fuel + 1) a (.attempt guarded recovery span) m =
      ((executeAll fuel a.inRecovery recovery.statements (m₁.inRecovery error)).1,
        { (executeAll fuel a.inRecovery recovery.statements (m₁.inRecovery error)).2 with
          store := (executeAll fuel a.inRecovery recovery.statements
            (m₁.inRecovery error)).2.store.truncate m₁.store.depth }) := by
  rw [execute_attempt]
  unfold Run.recover
  rw [caught]
  dsimp only
  rw [inScope_apply, bind_apply, define_errorAccessor]

theorem execute_attempt_of_not_caught
    (passed : ∀ error, (Run.inScope "try" .guarded (executeAll fuel a.inGuard guarded.statements)
      m).1 ≠ .error (.recoverable error)) :
    execute (fuel + 1) a (.attempt guarded recovery span) m =
      Run.inScope "try" .guarded (executeAll fuel a.inGuard guarded.statements) m := by
  rw [execute_attempt]
  unfold Run.recover
  split
  · next error m₁ caught => exact absurd (congrArg Prod.fst caught) (passed error)
  · rfl

end

/-! ## The guard -/

/-- Without the guard, a task is not unwound by an error that can be caught. -/
theorem guarded_of_recoverable {x : Moment} {error : RuntimeError}
    (unwound : x.UnwindsWith (.recoverable error)) : x.activation.guarded = true := by
  induction rank : x.rank using Nat.strongRecOn generalizing x error with
  | ind n ih =>
    have below {y : Moment} {error : RuntimeError} (entered : Enters x y)
        (unwound : y.UnwindsWith (.recoverable error)) : y.activation.guarded = true :=
      ih y.rank (rank ▸ entered.rank_lt) unwound rfl
    by_cases attempt : ∃ guarded recovery span, x.task = .execute (.attempt guarded recovery span)
    · obtain ⟨fuel, a, task, m⟩ := x
      obtain ⟨guarded, recovery, span, rfl⟩ := attempt
      obtain ⟨m', ended⟩ := Moment.unwindsWith_iff.mp unwound
      cases fuel with
      | zero => cases ended
      | succ fuel =>
        change execute (fuel + 1) a (.attempt guarded recovery span) m = _ at ended
        rcases tried : Run.inScope "try" .guarded (executeAll fuel a.inGuard guarded.statements) m
          with ⟨(caught | fatal | _) | signal, m₁⟩
        -- The error would come from the recover block, which is not guarded.
        case error.recoverable =>
          rw [execute_attempt_of_caught tried] at ended
          exact nomatch below (.recovery tried (define_errorAccessor ..)) (congrArg Prod.fst ended)
        all_goals
          rw [execute_attempt_of_not_caught (by rw [tried]; exact nofun), tried] at ended
          cases ended
    · rcases traced unwound with here | ⟨y, entered, unwound'⟩
      · rcases here.eq_unwinding with exhausted | ⟨fault, span, raised⟩
        · cases exhausted
        · by_contra unguarded
          rw [Bool.not_eq_true] at unguarded
          rw [Activation.unwinding_of_not_guarded _ unguarded] at raised
          cases raised
      · have guarded := below entered unwound'
        cases entered with
        | guarded | recovery => exact absurd ⟨_, _, _, rfl⟩ attempt
        | _ => exact guarded

/-- The guard is cleared by recover blocks alone. -/
theorem Reaches.guarded {x y : Moment} (reached : Reaches x y)
    (guarded : x.activation.guarded = true)
    (unrecovered : ∀ z error w, Reaches x z → ¬ Recovers z error w) :
    y.activation.guarded = true := by
  induction reached with
  | refl => exact guarded
  | step entered further ih =>
    refine ih ?_ fun z error w reached => unrecovered z error w (.step entered reached)
    cases entered with
    | recovery caught bound => exact absurd (.intro caught bound) (unrecovered _ _ _ (.refl _))
    | guarded => rfl
    | _ => exact guarded

/-- Under the guard, as long as no recover block is entered, only defects of the interpreter itself
cannot be caught. -/
theorem isRecoverable_eq_false_of_fatal {x : Moment} {error : RuntimeError}
    (guarded : x.activation.guarded = true)
    (unrecovered : ∀ z error w, Reaches x z → ¬ Recovers z error w)
    (unwound : x.UnwindsWith (.fatal error)) : error.fault.isRecoverable = false := by
  obtain ⟨y, reached, raised, -⟩ := exists_raises unwound
  have guarded' := reached.guarded guarded unrecovered
  rcases raised.eq_unwinding with exhausted | ⟨fault, span, same⟩
  · cases exhausted
  · by_contra recoverable
    rw [Bool.not_eq_false] at recoverable
    cases caught : fault.isRecoverable with
    | false =>
      rw [Activation.unwinding_of_unrecoverable _ caught] at same
      cases same
      cases caught.symm.trans recoverable
    | true =>
      rw [Activation.unwinding_of_guarded _ guarded' caught] at same
      cases same

/-! ## Fatal errors -/

section

variable {α β : Type} {x : Run α} {f : α → Run β} {m m₁ : Machine} {u : Unwind}

theorem bind_of_error (raised : (x m).1 = .error u) : ((x >>= f) m).1 = .error u := by
  rw [bind_apply]
  rcases ended : x m with ⟨_ | _, m₁⟩ <;> rw [ended] at raised <;> cases raised
  rfl

theorem bind_of_ok {v : α} (known : x m = (.ok v, m₁)) (raised : (f v m₁).1 = .error u) :
    ((x >>= f) m).1 = .error u := by
  rw [bind_apply, known]
  exact raised

theorem recover_of_fatal {handler : RuntimeError → Run α} {error : RuntimeError}
    (raised : (x m).1 = .error (.fatal error)) :
    (Run.recover x handler m).1 = .error (.fatal error) := by
  unfold Run.recover
  rcases ended : x m with ⟨_ | _, m₁⟩ <;> rw [ended] at raised <;> cases raised
  rfl

end

/-- A fatal error unwinds the task that has performed the one it comes from. -/
theorem Enters.fatal {x y : Moment} {error : RuntimeError} (entered : Enters x y)
    (unwound : y.UnwindsWith (.fatal error)) : x.UnwindsWith (.fatal error) := by
  unfold Moment.UnwindsWith Moment.perform at unwound ⊢
  cases entered with dsimp only [Task.perform] at unwound ⊢
  | position | operand | left =>
    unfold evaluate
    exact bind_of_error unwound
  | inner =>
    unfold evaluate
    exact unwound
  | called function =>
    unfold evaluate
    dsimp only
    rw [if_neg (Bool.eq_false_iff.mp function)]
    exact unwound
  | right known undecided =>
    unfold evaluate
    refine bind_of_ok known ?_
    rw [if_neg (Bool.eq_false_iff.mp undecided)]
    exact bind_of_error unwound
  | firstArgument =>
    unfold evaluateAll
    exact bind_of_error unwound
  | nextArguments known =>
    unfold evaluateAll
    exact bind_of_ok known (bind_of_error unwound)
  | arguments found =>
    unfold call
    exact bind_of_ok (calledFunction_eq_ok_iff.mpr ⟨found, rfl⟩) (bind_of_error unwound)
  | body found known allowed bound =>
    unfold call
    refine bind_of_ok (calledFunction_eq_ok_iff.mpr ⟨found, rfl⟩) (bind_of_ok known ?_)
    rw [allowed]
    refine bind_of_error ?_
    rw [inScope_apply]
    exact bind_of_ok bound unwound
  | truth =>
    unfold evaluateCondition
    exact bind_of_error unwound
  | initializer =>
    rw [execute_variable]
    exact bind_of_error unwound
  | assigned | fieldAssigned | returned | printed =>
    unfold execute
    exact bind_of_error unwound
  | discarded =>
    rw [execute_expression]
    exact bind_of_error unwound
  | block | conditional | «while» =>
    unfold execute
    exact unwound
  | guarded =>
    rw [execute_attempt]
    exact recover_of_fatal unwound
  | recovery caught bound =>
    rw [define_errorAccessor] at bound
    cases bound
    rw [execute_attempt_of_caught caught]
    exact unwound
  | first =>
    unfold executeAll
    exact bind_of_error unwound
  | next done =>
    unfold executeAll
    exact bind_of_ok done unwound
  | otherwise =>
    unfold executeBranches
    exact unwound
  | branchCondition =>
    unfold executeBranches
    exact bind_of_error unwound
  | branchBody holds | nextBranch holds =>
    unfold executeBranches
    exact bind_of_ok holds unwound
  | loopCondition =>
    unfold executeLoop
    exact bind_of_error unwound
  | loopBody holds allowed =>
    unfold executeLoop
    refine bind_of_ok holds ?_
    rw [if_pos rfl]
    exact bind_of_ok allowed (bind_of_error unwound)
  | nextIteration holds allowed done onward =>
    unfold executeLoop
    refine bind_of_ok holds ?_
    rw [if_pos rfl]
    refine bind_of_ok allowed (bind_of_ok done ?_)
    rcases onward with rfl | rfl <;> exact unwound
  | topExpression =>
    rw [runStatements]
    exact bind_of_error unwound
  | afterTopExpression known =>
    rw [runStatements]
    exact bind_of_ok known unwound
  | topStatement other =>
    rw [runStatements.eq_3 _ _ _ _ _ other]
    exact bind_of_error unwound
  | afterTopStatement other done =>
    rw [runStatements.eq_3 _ _ _ _ _ other]
    exact bind_of_ok done unwound

/-- No `try` on the way takes a fatal error, and none changes it. -/
theorem Reaches.fatal {x y : Moment} {error : RuntimeError} (reached : Reaches x y)
    (unwound : y.UnwindsWith (.fatal error)) : x.UnwindsWith (.fatal error) := by
  induction reached with
  | refl => exact unwound
  | step entered _ ih => exact entered.fatal (ih unwound)

/-! ## The guard protocol -/

theorem eq_internal_or_controlFlowEscaped {fault : Fault}
    (unrecoverable : fault.isRecoverable = false) :
    (∃ message, fault = .internal message) ∨
      ∃ signal function, fault = .controlFlowEscaped signal function := by
  cases fault with
  | internal message => exact .inl ⟨message, rfl⟩
  | controlFlowEscaped signal function => exact .inr ⟨signal, function, rfl⟩
  | _ => cases unrecoverable

/-- Where the protected block of a `try` has ended, its scopes are closed again. -/
theorem sameOutline_of_tried {fuel : Nat} {a : Activation} {guarded : Block} {m m₁ : Machine}
    {result : Except Unwind Signal}
    (tried : Run.inScope "try" .guarded (executeAll fuel a.inGuard guarded.statements) m =
      (result, m₁)) : m.store.SameOutline m₁.store :=
  (((framesAt fuel).executeAll a.inGuard guarded.statements).inScope "try" .guarded).after tried

/-- The guard decides what can be caught, and a `try` catches just that. Without the guard no task is
unwound by an error that can be caught, so none comes to the top level. With the guard, as long as no
recover block is entered, every error but the defects of the interpreter can be caught, wherever it
is raised. A `try` enters its recover block if and only if its protected block was unwound by an
error that can be caught, and at most once; then the guard is cleared, the scopes of the protected
block are closed, and the innermost scope binds the message of this error and nothing else. A fatal
error unwinds every task around it. -/
theorem guard_exact :
    (∀ (x : Moment) error, x.activation.guarded = false → ¬ x.UnwindsWith (.recoverable error)) ∧
    (∀ fuel limits clock program store error,
      ¬ (Moment.start fuel limits clock program store).UnwindsWith (.recoverable error)) ∧
    (∀ (x : Moment) error, x.activation.guarded = true →
      (∀ y caught z, Reaches x y → ¬ Recovers y caught z) → x.UnwindsWith (.fatal error) →
      (∃ message, error.fault = .internal message) ∨
        ∃ signal function, error.fault = .controlFlowEscaped signal function) ∧
    (∀ fuel a guarded recovery span m,
      let attempt : Moment := ⟨fuel + 1, a, .execute (.attempt guarded recovery span), m⟩
      let inside : Moment := ⟨fuel, a.inGuard, .executeAll guarded.statements, m.enter "try" .guarded⟩
      (∀ error, (∃ z, Recovers attempt error z) ↔ inside.UnwindsWith (.recoverable error)) ∧
      (∀ error error' z z', Recovers attempt error z → Recovers attempt error' z' →
        error' = error ∧ z' = z) ∧
      (∀ error z, Recovers attempt error z →
        z.task = .executeAll recovery.statements ∧ z.activation = { a with guarded := false } ∧
        (∃ s, m.store.SameOutline s ∧ z.machine.store = (s.push "recover" .recovery).extend
          [(errorAccessor, .variable .str (.str error.message))]) ∧
        z.machine.store.lookup? errorAccessor = some (.variable .str (.str error.message)) ∧
        let ended := executeAll z.fuel z.activation recovery.statements z.machine
        attempt.perform =
          (ended.1, { ended.2 with store := ended.2.store.truncate m.store.depth })) ∧
      ((∀ error, ¬ inside.UnwindsWith (.recoverable error)) → attempt.perform =
        Run.inScope "try" .guarded (executeAll fuel a.inGuard guarded.statements) m)) ∧
    ∀ (x y : Moment) error, Reaches x y → y.UnwindsWith (.fatal error) →
      x.UnwindsWith (.fatal error) := by
  refine ⟨?_, ?_, ?_, ?_, fun x y error reached => reached.fatal⟩
  · intro x error unguarded unwound
    cases unguarded.symm.trans (guarded_of_recoverable unwound)
  · exact fun fuel limits clock program store error unwound =>
      nomatch guarded_of_recoverable unwound
  · exact fun x error guarded unrecovered unwound => eq_internal_or_controlFlowEscaped
      (isRecoverable_eq_false_of_fatal guarded unrecovered unwound)
  · intro fuel a guarded recovery span m attempt inside
    refine ⟨fun error => ⟨?_, ?_⟩, ?_, ?_, ?_⟩
    · rintro ⟨z, recovers⟩
      obtain ⟨m₁, caught, -⟩ := recovers_iff.mp recovers
      exact congrArg Prod.fst caught
    · intro unwound
      exact ⟨_, recovers_iff.mpr ⟨_, Prod.ext unwound rfl, rfl⟩⟩
    · intro error error' z z' first second
      obtain ⟨m₁, caught, rfl⟩ := recovers_iff.mp first
      obtain ⟨m₁', caught', rfl⟩ := recovers_iff.mp second
      cases caught.symm.trans caught'
      exact ⟨rfl, rfl⟩
    · intro error z recovers
      obtain ⟨m₁, caught, rfl⟩ := recovers_iff.mp recovers
      have same := sameOutline_of_tried caught
      refine ⟨rfl, rfl, ⟨m₁.store, same, rfl⟩, rfl, ?_⟩
      show execute (fuel + 1) a (.attempt guarded recovery span) m = _
      rw [execute_attempt_of_caught caught, same.depth]
    · intro passed
      show execute (fuel + 1) a (.attempt guarded recovery span) m = _
      exact execute_attempt_of_not_caught passed

/-- A `try` that catches a division by zero, and whose recover block divides by zero again. -/
def divisionTwice : Statement :=
  let division : Statement :=
    .expression (.binary .divide (.integer 1 default) (.integer 0 default) default) default
  .attempt (.mk [division] default) (.mk [division] default) default

/-- The error of the recover block leaves the `try` although the guard was set around it; a record of
a type that is not registered is such an error at once. -/
theorem guard_exact_divisionTwice :
    let m : Machine := ⟨.empty Store.defaultHistoryLimit, #[], .never⟩
    let a : Activation := (Activation.topLevel .standard).inGuard
    let error : RuntimeError := ⟨.divisionByZero, default⟩
    (∃ z, Recovers ⟨6, a, .execute divisionTwice, m⟩ error z ∧ z.activation.guarded = false ∧
      z.UnwindsWith (.fatal error) ∧
      (Moment.mk 6 a (.execute divisionTwice) m).UnwindsWith (.fatal error)) ∧
    let unregistered : Moment :=
      ⟨1, a, .execute (.recordInstance ⟨"T", default⟩ ⟨"t", default⟩ default), m⟩
    ∃ error, unregistered.UnwindsWith (.fatal error) ∧
      ((∃ message, error.fault = .internal message) ∨
        ∃ signal function, error.fault = .controlFlowEscaped signal function) := by
  intro m a error
  constructor
  · obtain ⟨entered, -, recovered, -⟩ := guard_exact.2.2.2.1 5 a
      (.mk [.expression (.binary .divide (.integer 1 default) (.integer 0 default) default) default]
        default)
      (.mk [.expression (.binary .divide (.integer 1 default) (.integer 0 default) default) default]
        default) default m
    obtain ⟨z, recovers⟩ := (entered error).mpr rfl
    obtain ⟨-, cleared, -, -, ended⟩ := recovered error z recovers
    have fatal : z.UnwindsWith (.fatal error) := by
      cases recovers
      exact (congrArg Prod.fst ended).symm
    refine ⟨z, recovers, by rw [cleared], fatal, guard_exact.2.2.2.2 _ z error ?_ fatal⟩
    cases recovers with
    | intro caught bound => exact .step (.recovery caught bound) (.refl _)
  · intro unregistered
    refine ⟨_, rfl, guard_exact.2.2.1 unregistered _ rfl ?_ rfl⟩
    intro y caught z reached recovers
    dsimp only [unregistered] at reached
    cases reached with
    | refl => cases recovers
    | step entered => cases entered

end Execution

end CheckedScript
