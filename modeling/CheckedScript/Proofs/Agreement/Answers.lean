import CheckedScript.Proofs.Agreement.Alongside
import CheckedScript.Proofs.Check.Closed
import CheckedScript.Proofs.Check.MissingReturns
import CheckedScript.Proofs.Execution.Returning

/-!
# Calls that answer

A function that the checker has accepted, that yields a value and that it does not warn of answers
every call that comes to its end with the value of a `return` that was executed in this call
(`call_answers`). That control does not fall off the end of its body is the soundness of the syntactic
test; that nothing else than a `return` with a value ends the body is what the checker asks of each
part of it (`Answers`).
-/

namespace CheckedScript

open Check Checking Execution Run

/-- The statements in this context belong to a function that yields a value. -/
def CheckContext.YieldsValue (c : CheckContext) : Prop :=
  ∃ f, c.function = some f ∧ f.returnType ≠ .void

namespace CheckContext.YieldsValue

variable {c : CheckContext}

theorem inBlock (yields : c.YieldsValue) : c.inBlock.YieldsValue := yields

theorem inLoopBody (yields : c.YieldsValue) : c.inLoopBody.YieldsValue := yields

theorem inRecoverBlock (yields : c.YieldsValue) : c.inRecoverBlock.YieldsValue := yields

end CheckContext.YieldsValue

namespace Execution

/-- In the call that performs the moment, a `return` is executed whose expression has the value. -/
inductive Returns (x : Moment) (v : Value) : Prop
  | intro {fuel : Nat} {a : Activation} {e : Expression} {span : Span} {m m' : Machine}
      (reached : Reaches x ⟨fuel, a, .execute (.return (some e) span), m⟩)
      (sameCall : a.callDepth = x.activation.callDepth)
      (returned : execute fuel a (.return (some e) span) m = (.ok (.return v), m'))

/-- How the check of a function body allows a part of it to end. -/
inductive Answers (c : CheckContext) (x : Moment) : Signal → Prop
  | normal : Answers c x .normal
  | break (inLoop : c.inLoop = true) : Answers c x .break
  | continue (inLoop : c.inLoop = true) : Answers c x .continue
  | return {v : Value} (returns : Returns x v) : Answers c x (.return v)

section

variable {x y : Moment} {v : Value} {signal : Signal} {c c' : CheckContext}

theorem Returns.of_enters (returns : Returns y v) (entered : Enters x y)
    (sameCall : y.activation.callDepth = x.activation.callDepth) : Returns x v := by
  obtain ⟨reached, same, returned⟩ := returns
  exact ⟨.step entered reached, same.trans sameCall, returned⟩

/-- A part that is performed in the same call and in no further loop ends like the whole. -/
theorem Answers.of_enters (answers : Answers c' y signal) (entered : Enters x y)
    (sameCall : y.activation.callDepth = x.activation.callDepth) (loops : c'.inLoop = c.inLoop) :
    Answers c x signal := by
  cases answers with
  | normal => exact .normal
  | «break» inLoop => exact .break (loops ▸ inLoop)
  | «continue» inLoop => exact .continue (loops ▸ inLoop)
  | «return» returns => exact .return (returns.of_enters entered sameCall)

end

/-- What is checked without an error and belongs to a function that yields a value ends as its check
allows if it runs on this fuel. -/
structure AnswersAt (fuel : Nat) : Prop where
  execute : ∀ {c s a statement m signal m'}, c.YieldsValue →
    Point.Accepted ⟨c, s, .execute statement⟩ →
    execute fuel a statement m = (.ok signal, m') →
    Answers c ⟨fuel, a, .execute statement, m⟩ signal
  executeAll : ∀ {c s a statements m signal m'}, c.YieldsValue →
    Point.Accepted ⟨c, s, .executeAll statements⟩ →
    executeAll fuel a statements m = (.ok signal, m') →
    Answers c ⟨fuel, a, .executeAll statements, m⟩ signal
  branches : ∀ {c s a branches otherwise m signal m'}, c.YieldsValue →
    Point.Accepted ⟨c, s, .branches branches otherwise⟩ →
    executeBranches fuel a branches otherwise m = (.ok signal, m') →
    Answers c ⟨fuel, a, .branches branches otherwise, m⟩ signal
  loop : ∀ {c s a condition body span completed m signal m'}, c.YieldsValue →
    Point.Accepted ⟨c, s, .loop condition body span completed⟩ →
    executeLoop fuel a condition body span completed m = (.ok signal, m') →
    Answers c ⟨fuel, a, .loop condition body span completed, m⟩ signal

section

variable {fuel : Nat} (below : AnswersAt fuel) {c : CheckContext} {s : Checking} {a : Activation}
  {m m' : Machine} {signal : Signal} (yields : c.YieldsValue)

omit below yields in
/-- Behind a computation after which control goes on nothing but a normal end is left. -/
theorem eq_normal_of_bind {α : Type} {x : Run α} {f : α → Run Signal}
    (goesOn : ∀ v m signal m', f v m = (.ok signal, m') → signal = .normal)
    (ended : (x >>= f) m = (.ok signal, m')) : signal = .normal := by
  obtain ⟨v, m₁, -, last⟩ := bind_eq_ok_iff.mp ended
  exact goesOn v m₁ signal m' last

include below

omit yields in
/-- A block in a scope of its own ends like its statements. -/
theorem answers_inScope {x : Moment} {name : String} {kind : ScopeKind} {body : Block}
    {c' : CheckContext} {a' : Activation} {s' : Checking} (yields' : c'.YieldsValue)
    (entered : Enters x ⟨fuel, a', .executeAll body.statements, m.enter name kind⟩)
    (sameCall : a'.callDepth = x.activation.callDepth) (loops : c'.inLoop = c.inLoop)
    (accepted : Point.Accepted ⟨c', s', .executeAll body.statements⟩)
    (ended : inScope name kind (Execution.executeAll fuel a' body.statements) m = (.ok signal, m')) :
    Answers c x signal := by
  obtain ⟨left, ended, -⟩ := inScope_eq_ok_iff.mp ended
  exact (below.executeAll yields' accepted ended).of_enters entered sameCall loops

include yields

omit below yields in
/-- Loop control that is accepted stands in a loop. -/
theorem inLoop_of_clean {keyword : String} {span : Span}
    (clean : (if c.inLoop then s else s.report (.loopControlOutsideLoop keyword) span).Clean) :
    c.inLoop = true := by
  split at clean
  · next inside => exact inside
  · exact absurd clean (not_clean_report rfl)

theorem answers_attempt {guarded recovery : Block} {span : Span}
    (accepted : Point.Accepted ⟨c, s, .execute (.attempt guarded recovery span)⟩)
    (ended : execute (fuel + 1) a (.attempt guarded recovery span) m = (.ok signal, m')) :
    Answers c ⟨fuel + 1, a, .execute (.attempt guarded recovery span), m⟩ signal := by
  unfold execute at ended
  rcases recover_cases ended with whole | ⟨error, m₁, caught, taken⟩
  · exact answers_inScope below yields.inBlock .guarded rfl rfl
      (Walks.guarded.accepted accepted) whole
  · obtain ⟨left, opened, -⟩ := inScope_eq_ok_iff.mp taken
    obtain ⟨_, m₂, bound, handled⟩ := bind_eq_ok_iff.mp opened
    exact (below.executeAll yields.inRecoverBlock (Walks.recovery.accepted accepted)
      handled).of_enters (.recovery caught bound) rfl rfl

omit below in
theorem answers_return {value : Option Expression} {span : Span}
    (accepted : Point.Accepted ⟨c, s, .execute (.return value span)⟩)
    (ended : execute (fuel + 1) a (.return value span) m = (.ok signal, m')) :
    Answers c ⟨fuel + 1, a, .execute (.return value span), m⟩ signal := by
  unfold Point.Accepted checkStatement at accepted
  cases value with
  | none =>
    -- Such a `return` is an error in a function that yields a value.
    obtain ⟨f, inside, valued⟩ := yields
    obtain ⟨g, inside', void⟩ := of_clean_returning_none accepted
    cases inside.symm.trans inside'
    exact absurd void valued
  | some e =>
    have whole := ended
    unfold execute at ended
    obtain ⟨v, m₁, -, last⟩ := bind_eq_ok_iff.mp ended
    cases last
    exact .return ⟨.refl _, rfl, whole⟩

theorem answers_execute {statement : Statement}
    (accepted : Point.Accepted ⟨c, s, .execute statement⟩)
    (ended : execute (fuel + 1) a statement m = (.ok signal, m')) :
    Answers c ⟨fuel + 1, a, .execute statement, m⟩ signal := by
  have of_normal : signal = .normal → Answers c ⟨fuel + 1, a, .execute statement, m⟩ signal := by
    rintro rfl
    exact .normal
  have last : ∀ {α : Type} (_ : α) (m : Machine) signal m',
      Run.pure Signal.normal m = (.ok signal, m') → signal = .normal := by
    rintro α - m signal m' ⟨⟩
    rfl
  cases statement with
  | attempt guarded recovery span => exact answers_attempt below yields accepted ended
  | «return» value span => exact answers_return yields accepted ended
  | block body span =>
    unfold execute at ended
    exact answers_inScope below yields.inBlock .block rfl rfl
      (Walks.block.accepted accepted) ended
  | conditional branches otherwise span =>
    unfold execute at ended
    exact (below.branches yields (Walks.conditional.accepted accepted) ended).of_enters
      .conditional rfl rfl
  | «while» condition body span =>
    unfold execute at ended
    exact (below.loop yields (Walks.while.accepted accepted) ended).of_enters .while rfl rfl
  | «break» span =>
    have clean : (checkStatement c (.break span) s).Clean := accepted
    unfold checkStatement at clean
    cases ended
    exact .break (inLoop_of_clean clean)
  | «continue» span =>
    have clean : (checkStatement c (.continue span) s).Clean := accepted
    unfold checkStatement at clean
    cases ended
    exact .continue (inLoop_of_clean clean)
  | function | recordType =>
    cases ended
    exact .normal
  | «variable» =>
    rw [execute_variable] at ended
    exact of_normal (eq_normal_of_bind (fun _ _ _ _ => eq_normal_of_bind last) ended)
  | assignment | fieldAssignment | print =>
    unfold execute at ended
    exact of_normal (eq_normal_of_bind (fun _ _ _ _ => eq_normal_of_bind last) ended)
  | recordInstance =>
    unfold execute at ended
    exact of_normal (eq_normal_of_bind last ended)
  | expression =>
    rw [execute_expression] at ended
    exact of_normal (eq_normal_of_bind last ended)

theorem answers_executeAll {statements : List Statement}
    (accepted : Point.Accepted ⟨c, s, .executeAll statements⟩)
    (ended : Execution.executeAll (fuel + 1) a statements m = (.ok signal, m')) :
    Answers c ⟨fuel + 1, a, .executeAll statements, m⟩ signal := by
  unfold Execution.executeAll at ended
  cases statements with
  | nil =>
    cases ended
    exact .normal
  | cons statement rest =>
    obtain ⟨first, m₁, done, ended⟩ := bind_eq_ok_iff.mp ended
    have head := below.execute yields (Walks.first.accepted accepted) done
    cases first with
    | normal =>
      exact (below.executeAll yields (Walks.next.accepted accepted) ended).of_enters (.next done)
        rfl rfl
    | _ =>
      cases ended
      exact head.of_enters .first rfl rfl

theorem answers_branches {branches : List Branch} {otherwise : Option Block}
    (accepted : Point.Accepted ⟨c, s, .branches branches otherwise⟩)
    (ended : executeBranches (fuel + 1) a branches otherwise m = (.ok signal, m')) :
    Answers c ⟨fuel + 1, a, .branches branches otherwise, m⟩ signal := by
  unfold executeBranches at ended
  cases branches with
  | nil =>
    cases otherwise with
    | none =>
      cases ended
      exact .normal
    | some otherwise =>
      exact answers_inScope below yields.inBlock .otherwise rfl rfl
        (Walks.otherwise.accepted accepted) ended
  | cons branch rest =>
    obtain ⟨condition, body, span⟩ := branch
    obtain ⟨taken, m₁, known, ended⟩ := bind_eq_ok_iff.mp ended
    cases taken with
    | true =>
      exact answers_inScope below yields.inBlock (.branchBody known) rfl rfl
        (Walks.branchBody.accepted accepted) ended
    | false =>
      exact (below.branches yields (Walks.nextBranch.accepted accepted) ended).of_enters
        (.nextBranch known) rfl rfl

theorem answers_loop {condition : Expression} {body : Block} {span : Span} {completed : Nat}
    (accepted : Point.Accepted ⟨c, s, .loop condition body span completed⟩)
    (ended : executeLoop (fuel + 1) a condition body span completed m = (.ok signal, m')) :
    Answers c ⟨fuel + 1, a, .loop condition body span completed, m⟩ signal := by
  unfold executeLoop at ended
  obtain ⟨again, m₁, known, ended⟩ := bind_eq_ok_iff.mp ended
  cases again with
  | false =>
    cases ended
    exact .normal
  | true =>
    rw [if_pos rfl] at ended
    obtain ⟨limit, m₂, allowed, ended⟩ := bind_eq_ok_iff.mp ended
    cases limit with
    | some limit => cases ended
    | none =>
      obtain ⟨inner, m₃, done, ended⟩ := bind_eq_ok_iff.mp ended
      obtain ⟨left, walked, -⟩ := inScope_eq_ok_iff.mp done
      have around := below.executeAll yields.inLoopBody (Walks.loopBody.accepted accepted)
        walked
      have onward (continues : inner = .normal ∨ inner = .continue)
          (ended : executeLoop fuel a condition body span (completed + 1) m₃ = (.ok signal, m')) :
          Answers c ⟨fuel + 1, a, .loop condition body span completed, m⟩ signal :=
        (below.loop yields (Walks.nextIteration.accepted accepted) ended).of_enters
          (.nextIteration known allowed done continues) rfl rfl
      cases around with
      | normal => exact onward (.inl rfl) ended
      | «continue» => exact onward (.inr rfl) ended
      | «break» =>
        cases ended
        exact .normal
      | «return» returns =>
        cases ended
        exact .return (returns.of_enters (.loopBody known allowed) rfl)

end

theorem answersAt (fuel : Nat) : AnswersAt fuel := by
  induction fuel with
  | zero => exact ⟨fun _ _ => nofun, fun _ _ => nofun, fun _ _ => nofun, fun _ _ => nofun⟩
  | succ fuel below =>
    exact ⟨fun yields => answers_execute below yields, fun yields => answers_executeAll below yields,
      fun yields => answers_branches below yields, fun yields => answers_loop below yields⟩

/-! ## Calls -/

/-- The body of a function of an accepted program is accepted, in the context of the function. -/
theorem exists_accepted_body {program : Program} {store : Store} {name : String}
    {f : FunctionSymbol} (passed : (checkProgram program store).passed = true)
    (registered : (name, .function f) ∈ program.registrations) :
    ∃ s, Point.Accepted ⟨f.context, s, .executeAll f.body.statements⟩ := by
  obtain ⟨statement, s, registers, onward⟩ := exists_checked_of_registrations registered store
  have clean := onward.clean (passed_iff_clean.mp passed)
  cases statement with
  | function =>
    cases registers
    exact ⟨_, clean_functionBody rfl clean⟩
  | _ => cases registers

variable {fuel : Nat} {a : Activation} {name : Identifier} {arguments : List Expression}
  {span : Span} {m m₁ m₂ : Machine} {f : FunctionSymbol} {v : Value}

theorem exists_call_eq_of_return
    (calls : Calls ⟨fuel + 1, a, .call name arguments span, m⟩ f
      ⟨fuel, a.inCall, .executeAll f.body.statements, m₁⟩)
    (ended : Execution.executeAll fuel a.inCall f.body.statements m₁ = (.ok (.return v), m₂)) :
    ∃ m', Execution.call (fuel + 1) a name arguments span m = (.ok v, m') := by
  cases calls with
  | @intro _ _ _ before _ _ _ _ values _ found known allowed bound =>
    have performed : (do
        bindParameters a span f.parameters values
        Execution.executeAll fuel a.inCall f.body.statements) (before.enter f.name .function) =
          (.ok (.return v), m₂) :=
      bind_eq_ok_iff.mpr ⟨(), m₁, bound, ended⟩
    have left := inScope_eq_ok_iff.mpr ⟨m₂, performed, rfl⟩
    refine ⟨{ m₂ with store := m₂.store.truncate before.store.depth }, ?_⟩
    unfold Execution.call
    refine bind_eq_ok_iff.mpr ⟨f, m, calledFunction_eq_ok_iff.mpr ⟨found, rfl⟩, ?_⟩
    refine bind_eq_ok_iff.mpr ⟨values, before, known, ?_⟩
    rw [allowed]
    exact bind_eq_ok_iff.mpr ⟨.return v, _, left, rfl⟩

/-- Statements of which one always returns never end in the normal way. So where the checker has
accepted a function that yields a value and does not warn of it, a call whose body ends without an
error yields what a `return` of this call has computed. -/
theorem call_answers :
    (∀ (fuel : Nat) (a : Activation) (statements : List Statement) (m m' : Machine),
      Statement.anyReturns statements = true →
        Execution.executeAll fuel a statements m ≠ (.ok .normal, m')) ∧
    ∀ (program : Program) (store : Store) (registered : String) (f : FunctionSymbol),
      (checkProgram program store).passed = true →
      (registered, .function f) ∈ program.registrations → f.returnType ≠ .void →
      Diagnostics.Spare (checkProgram program store).diagnostics f →
      ∀ (fuel : Nat) (a : Activation) (name : Identifier) (arguments : List Expression)
        (span : Span) (m m₁ m₂ : Machine) (signal : Signal),
        Calls ⟨fuel + 1, a, .call name arguments span, m⟩ f
          ⟨fuel, a.inCall, .executeAll f.body.statements, m₁⟩ →
        Execution.executeAll fuel a.inCall f.body.statements m₁ = (.ok signal, m₂) →
        ∃ v m', Execution.call (fuel + 1) a name arguments span m = (.ok v, m') ∧
          Returns ⟨fuel, a.inCall, .executeAll f.body.statements, m₁⟩ v := by
  refine ⟨fun fuel a statements m m' returns => diverts_of_anyReturns fuel a returns m m', ?_⟩
  intro program store registered f passed listed valued unwarned fuel a name arguments span m m₁ m₂
    signal calls ended
  obtain ⟨s, accepted⟩ := exists_accepted_body passed listed
  have returns : Statement.anyReturns f.body.statements = true :=
    Block.anyReturns_statements ((isComplete_of_spared unwarned listed).resolve_left valued)
  have answers := (answersAt fuel).executeAll ⟨_, rfl, valued⟩ accepted ended
  cases answers with
  | normal => exact absurd ended (diverts_of_anyReturns fuel a.inCall returns m₁ m₂)
  | «break» inLoop => cases inLoop
  | «continue» inLoop => cases inLoop
  | «return» returned =>
    obtain ⟨m', called⟩ := exists_call_eq_of_return calls ended
    exact ⟨_, m', called, returned⟩

/-- Divides by its parameter in a `try` and returns zero where that fails. -/
def quotient : FunctionSymbol where
  name := "quotient"
  parameters := [⟨"n", .int⟩]
  returnType := .int
  body := .mk [.attempt
    (.mk [.return (some (.binary .divide (.integer 1 default) (.identifier ⟨"n", default⟩ default)
      default)) default] default)
    (.mk [.return (some (.integer 0 default)) default] default) default] default

def declaringQuotient : Program where
  statements := [.function ⟨quotient.name, default⟩ [⟨⟨.int, false, default⟩, ⟨"n", default⟩⟩]
    (some ⟨.int, false, default⟩) quotient.body default]
  span := default

/-- The `return` of the `try` is begun and fails, and that of the recover block answers the call. -/
theorem call_answers_quotient :
    let store := (Store.empty 0).registerBuiltins
    let a := Activation.topLevel .standard
    let m : Machine := ⟨store.extend [(quotient.name, .function quotient)], #[], .never⟩
    let m₁ := (bindParameters a default quotient.parameters [.int 0] (m.enter quotient.name .function)).2
    let body : Moment := ⟨8, a.inCall, .executeAll quotient.body.statements, m₁⟩
    (checkProgram declaringQuotient store).passed = true ∧
    (quotient.name, .function quotient) ∈ declaringQuotient.registrations ∧
    quotient.returnType ≠ .void ∧
    Diagnostics.Spare (checkProgram declaringQuotient store).diagnostics quotient ∧
    Calls ⟨9, a, .call ⟨quotient.name, default⟩ [.integer 0 default] default, m⟩ quotient body ∧
    body.perform.1 = .ok (.return (.int 0)) ∧
    (Execution.call 9 a ⟨quotient.name, default⟩ [.integer 0 default] default m).1 = .ok (.int 0) ∧
    Returns body (.int 0) := by
  intro store a m m₁ body
  have passed : (checkProgram declaringQuotient store).passed = true := by decide +kernel
  have listed : (quotient.name, .function quotient) ∈ declaringQuotient.registrations :=
    List.mem_singleton_self _
  have silent : (checkProgram declaringQuotient store).diagnostics = [] := by decide +kernel
  have spared : Diagnostics.Spare (checkProgram declaringQuotient store).diagnostics quotient := by
    rw [silent]
    exact nofun
  have calls : Calls ⟨9, a, .call ⟨quotient.name, default⟩ [.integer 0 default] default, m⟩ quotient
      body := .intro rfl rfl rfl rfl
  have ended : body.perform.1 = .ok (.return (.int 0)) := rfl
  have value : (Execution.call 9 a ⟨quotient.name, default⟩ [.integer 0 default] default m).1 =
    .ok (.int 0) := rfl
  obtain ⟨v, m', called, returned⟩ := call_answers.2 declaringQuotient store quotient.name quotient
    passed listed nofun spared 8 a _ _ _ m m₁ body.perform.2 _ calls (Prod.ext ended rfl)
  cases value.symm.trans (congrArg Prod.fst called)
  exact ⟨passed, listed, nofun, spared, calls, ended, value, returned⟩

end Execution

end CheckedScript
