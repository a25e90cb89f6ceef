import CheckedScript.Proofs.Agreement.Programs
import CheckedScript.Proofs.Execution.Outcome

/-!
# Raising the limits

Limits are read in two places: a call compares its depth with one of them, and a loop the iterations
it has completed with the other one. Without a `try` nothing takes the fault of an exceeded limit, so
a run that does not end with such a fault never came upon a limit, and under larger limits it is the
same run (`run_of_within`).
-/

namespace CheckedScript

/-! ## Programs without a `try` -/

mutual

def Statement.tryFree : Statement → Bool
  | .attempt _ _ _ => false
  | .function _ _ _ body _ | .block body _ | .while _ body _ => body.tryFree
  | .conditional branches otherwise _ => Branch.allTryFree branches && Block.optionTryFree otherwise
  | _ => true

def Block.tryFree : Block → Bool
  | .mk statements _ => Statement.allTryFree statements

def Block.optionTryFree : Option Block → Bool
  | none => true
  | some body => body.tryFree

def Statement.allTryFree : List Statement → Bool
  | [] => true
  | statement :: rest => statement.tryFree && Statement.allTryFree rest

def Branch.allTryFree : List Branch → Bool
  | [] => true
  | .mk _ body _ :: rest => body.tryFree && Branch.allTryFree rest

end

theorem Block.tryFree_eq (body : Block) : body.tryFree = Statement.allTryFree body.statements := by
  obtain ⟨statements, span⟩ := body
  rw [Block.tryFree, Block.statements]

/-- No function in the store has a `try`. -/
abbrev Store.TryFree (s : Store) : Prop := s.EveryFunction fun f => f.body.tryFree = true

theorem tryFree_of_mem_registrations {program : Program}
    (free : Statement.allTryFree program.statements = true) {name : String} {f : FunctionSymbol}
    (registered : (name, Symbol.function f) ∈ program.registrations) : f.body.tryFree = true := by
  obtain ⟨statements, span⟩ := program
  unfold Program.registrations at registered
  dsimp only at free registered
  induction statements with
  | nil => exact absurd registered List.not_mem_nil
  | cons statement rest ih =>
    rw [Statement.allTryFree, Bool.and_eq_true] at free
    obtain ⟨other, listed, registers⟩ := List.mem_filterMap.mp registered
    rcases List.mem_cons.mp listed with rfl | later
    · cases other <;> cases registers
      have own := free.1
      rwa [Statement.tryFree] at own
    · exact ih free.2 (List.mem_filterMap.mpr ⟨other, later, registers⟩)

/-! ## Larger limits -/

/-- The second limits allow as many iterations and calls as the first ones do. -/
structure Limits.Within (smaller larger : Limits) : Prop where
  iterations : smaller.maxIterations ≤ larger.maxIterations
  callDepth : smaller.maxCallDepth ≤ larger.maxCallDepth

def Activation.under (a : Activation) (limits : Limits) : Activation := { a with limits := limits }

/-- A fault of the limits, not of the program. -/
def Fault.isLimit : Fault → Bool
  | .loopLimitExceeded _ | .stackOverflow _ => true
  | _ => false

/-- The computation would go on with more fuel or under other limits. -/
def Unwind.CutShort (u : Unwind) : Prop :=
  u = .outOfFuel ∨ ∃ fault, u.fault? = some fault ∧ fault.isLimit = true

namespace Run

variable {α β : Type}

/-- From a store without a `try` the second computation ends as the first one does, unless that is
cut short. -/
def FitsIn (x y : Run α) : Prop :=
  ∀ m : Machine, m.store.TryFree →
    (∃ u, (x m).1 = .error u ∧ u.CutShort) ∨ y m = x m ∧ (x m).2.store.TryFree

namespace FitsIn

variable {x y : Run α} {f g : α → Run β}

theorem of_adds {P : String × Symbol → Prop} (adds : x.Adds P) (data : ∀ b, P b → b.2.IsData) :
    x.FitsIn x :=
  fun _ free => .inr ⟨rfl, Execution.everyFunction_of_adds adds data rfl free⟩

theorem of_keeps (keeps : x.Keeps) : x.FitsIn x :=
  fun _ free => .inr ⟨rfl, Execution.everyFunction_of_keeps keeps rfl free⟩

theorem pure (v : α) : (Pure.pure v : Run α).FitsIn (Pure.pure v) := of_keeps (keeps_pure v)

theorem exhausted (y : Run α) : (unwind .outOfFuel).FitsIn y :=
  fun _ _ => .inl ⟨_, rfl, .inl rfl⟩

theorem of_limit (a : Activation) {fault : Fault} (limit : fault.isLimit = true) (span : Span)
    (y : Run α) : (a.fail fault span).FitsIn y :=
  fun _ _ => .inl ⟨_, rfl, .inr ⟨fault, a.fault?_unwinding fault span, limit⟩⟩

/-- What follows may count on whatever the first computation has found in its store. -/
theorem bind_of_ok (first : x.FitsIn y)
    (second : ∀ v m m₁, m.store.TryFree → x m = (.ok v, m₁) → (f v).FitsIn (g v)) :
    (x >>= f).FitsIn (y >>= g) := by
  intro m free
  rw [bind_apply, bind_apply]
  rcases known : x m with ⟨u | v, m₁⟩ <;> have start := first m free <;> rw [known] at start
  · rcases start with ⟨_, ⟨⟩, cut⟩ | ⟨same, kept⟩
    · exact .inl ⟨u, rfl, cut⟩
    · rw [same]
      exact .inr ⟨rfl, kept⟩
  · rcases start with ⟨u, impossible, -⟩ | ⟨same, kept⟩
    · cases impossible
    · rw [same]
      exact second v m m₁ free known m₁ kept

theorem bind (first : x.FitsIn y) (second : ∀ v, (f v).FitsIn (g v)) :
    (x >>= f).FitsIn (y >>= g) :=
  first.bind_of_ok fun v _ _ _ _ => second v

theorem inScope (body : x.FitsIn y) (name : String) (kind : ScopeKind) :
    (Run.inScope name kind x).FitsIn (Run.inScope name kind y) := by
  intro m free
  rw [inScope_apply, inScope_apply]
  rcases body (m.enter name kind) (Store.Every.push free name kind) with cut | ⟨same, kept⟩
  · exact .inl cut
  · rw [same]
    exact .inr ⟨rfl, Store.Every.truncate kept _⟩

end FitsIn

end Run

namespace Execution

open Run

/-! ## The two readers of limits -/

section

variable {a : Activation} {larger : Limits} (within : a.limits.Within larger)

include within

omit within in
theorem bindParameters_under (span : Span) (parameters : List FunctionParameter)
    (values : List Value) :
    bindParameters (a.under larger) span parameters values =
      bindParameters a span parameters values := by
  induction parameters generalizing values with
  | nil => rfl
  | cons p parameters ih =>
    cases values with
    | nil => rfl
    | cons value values =>
      rw [bindParameters, bindParameters, ih]
      rfl

theorem callFault?_under (f : FunctionSymbol) (values : List Value) :
    callFault? (a.under larger) f values = callFault? a f values ∨
      ∃ fault, callFault? a f values = some fault ∧ fault.isLimit = true := by
  unfold callFault?
  by_cases arity : values.length ≠ f.parameters.length
  · rw [if_pos arity, if_pos arity]
    exact .inl rfl
  · rw [if_neg arity, if_neg arity]
    by_cases deep : a.limits.maxCallDepth ≤ a.callDepth
    · rw [if_pos deep]
      exact .inr ⟨_, rfl, rfl⟩
    · have allowed : ¬ (a.under larger).limits.maxCallDepth ≤ (a.under larger).callDepth :=
        fun exceeded => deep (within.callDepth.trans exceeded)
      rw [if_neg deep, if_neg allowed]
      exact .inl rfl

/-- Both runs are told the same about the deadline, so that the one which the smaller limits let go
on goes on under the larger ones. -/
theorem fitsIn_exceededLimit? (completed : Nat) {α : Type} {f g : Option LoopLimit → Run α}
    {span : Span} (refused : ∀ limit, f (some limit) = a.fail (.loopLimitExceeded limit) span)
    (onward : (f none).FitsIn (g none)) :
    (exceededLimit? a.limits completed >>= f).FitsIn
      (exceededLimit? larger completed >>= g) := by
  intro m free
  obtain ⟨limit, deadline, asked⟩ := exists_exceededLimit?_eq_ok a.limits completed m
  rw [bind_apply, bind_apply, asked]
  cases limit with
  | some limit =>
    dsimp only
    rw [refused]
    exact .inl ⟨_, rfl, .inr ⟨_, a.fault?_unwinding _ span, rfl⟩⟩
  | none =>
    obtain ⟨fewer, unpassed, left⟩ := exceededLimit?_eq_none_iff.mp asked
    have asked' : exceededLimit? larger completed m = (.ok none, { m with deadline := deadline }) :=
      exceededLimit?_eq_none_iff.mpr ⟨fewer.trans_le within.iterations, unpassed, left⟩
    rw [asked']
    exact onward _ free

end

/-! ## One run under two limits -/

/-- Everything that is performed with this fuel fits in larger limits. -/
structure FitsAt (larger : Limits) (fuel : Nat) : Prop where
  evaluate : ∀ {a}, a.limits.Within larger → ∀ e,
    (evaluate fuel a e).FitsIn (evaluate fuel (a.under larger) e)
  evaluateAll : ∀ {a}, a.limits.Within larger → ∀ es,
    (evaluateAll fuel a es).FitsIn (evaluateAll fuel (a.under larger) es)
  call : ∀ {a}, a.limits.Within larger → ∀ name arguments span,
    (call fuel a name arguments span).FitsIn (call fuel (a.under larger) name arguments span)
  condition : ∀ {a}, a.limits.Within larger → ∀ e,
    (evaluateCondition fuel a e).FitsIn (evaluateCondition fuel (a.under larger) e)
  execute : ∀ {a}, a.limits.Within larger → ∀ statement, statement.tryFree = true →
    (execute fuel a statement).FitsIn (execute fuel (a.under larger) statement)
  executeAll : ∀ {a}, a.limits.Within larger → ∀ statements,
    Statement.allTryFree statements = true →
    (executeAll fuel a statements).FitsIn (executeAll fuel (a.under larger) statements)
  branches : ∀ {a}, a.limits.Within larger → ∀ branches otherwise,
    Branch.allTryFree branches = true → Block.optionTryFree otherwise = true →
    (executeBranches fuel a branches otherwise).FitsIn
      (executeBranches fuel (a.under larger) branches otherwise)
  loop : ∀ {a}, a.limits.Within larger → ∀ condition body span completed, body.tryFree = true →
    (executeLoop fuel a condition body span completed).FitsIn
      (executeLoop fuel (a.under larger) condition body span completed)

section

variable {larger : Limits} {fuel : Nat} (below : FitsAt larger fuel) {a : Activation}
  (within : a.limits.Within larger)

include below within

theorem fitsIn_evaluate (e : Expression) :
    (evaluate (fuel + 1) a e).FitsIn (evaluate (fuel + 1) (a.under larger) e) := by
  unfold evaluate
  cases e with
  | identifier name span => exact .of_keeps (keeps_readVariable a name)
  | fieldAccess record field span => exact .of_keeps (keeps_readField a record field)
  | parenthesized inner span => exact below.evaluate within inner
  | index array index span =>
    refine (below.evaluate within index).bind fun v => ?_
    cases v with
    | int w => exact .of_keeps (keeps_readElement a array.name w span)
    | _ => exact .of_keeps (keeps_fail a _ index.span)
  | call name arguments span =>
    dsimp only
    split
    · exact .of_keeps (keeps_readVariable a name)
    · exact below.call within name arguments span
  | unary operator operand span =>
    exact (below.evaluate within operand).bind fun v => .of_keeps (keeps_yield a _ span)
  | binary operator left right span =>
    refine (below.evaluate within left).bind fun v => ?_
    split
    · exact .pure v
    · exact (below.evaluate within right).bind fun w => .of_keeps (keeps_yield a _ span)
  | _ => exact .pure _

theorem fitsIn_evaluateAll (es : List Expression) :
    (evaluateAll (fuel + 1) a es).FitsIn (evaluateAll (fuel + 1) (a.under larger) es) := by
  unfold evaluateAll
  cases es with
  | nil => exact .pure _
  | cons e rest =>
    exact (below.evaluate within e).bind fun v =>
      (below.evaluateAll within rest).bind fun vs => .pure _

theorem fitsIn_call (name : Identifier) (arguments : List Expression) (span : Span) :
    (call (fuel + 1) a name arguments span).FitsIn
      (call (fuel + 1) (a.under larger) name arguments span) := by
  unfold call
  refine (FitsIn.of_keeps (keeps_calledFunction a name)).bind_of_ok fun f m m₁ free found => ?_
  have bodyFree : f.body.tryFree = true :=
    Store.Every.of_lookup? free (calledFunction_eq_ok_iff.mp found).1 f rfl
  rw [Block.tryFree_eq] at bodyFree
  refine (below.evaluateAll within arguments).bind fun values => ?_
  rcases callFault?_under within f values with same | ⟨fault, exceeded, limit⟩
  · rw [same]
    cases callFault? a f values with
    | some fault => exact .of_keeps (keeps_fail a fault span)
    | none =>
      have bound := FitsIn.of_adds (adds_bindParameters a span f.parameters values) fun _ h => h
      have body := (bound.bind fun _ =>
        below.executeAll (a := a.inCall) within f.body.statements bodyFree).inScope f.name .function
      rw [bindParameters_under]
      exact body.bind fun signal => .of_keeps (keeps_callResult a f span signal)
  · rw [exceeded]
    exact .of_limit a limit span _

theorem fitsIn_condition (e : Expression) :
    (evaluateCondition (fuel + 1) a e).FitsIn (evaluateCondition (fuel + 1) (a.under larger) e) := by
  unfold evaluateCondition
  refine (below.evaluate within e).bind fun v => ?_
  cases v with
  | bool b => exact .pure b
  | _ => exact .of_keeps (keeps_fail a _ e.span)

theorem fitsIn_execute {statement : Statement} (free : statement.tryFree = true) :
    (execute (fuel + 1) a statement).FitsIn (execute (fuel + 1) (a.under larger) statement) := by
  cases statement with
  | «variable» type name initializer span =>
    rw [execute_variable, execute_variable]
    have value : (initialValue fuel a type initializer).FitsIn
        (initialValue fuel (a.under larger) type initializer) := by
      cases initializer with
      | none => exact .pure _
      | some e => exact below.evaluate within e
    refine value.bind fun v => FitsIn.bind ?_ fun _ => .pure _
    exact .of_adds (adds_define a name.name _ name.span) (by rintro _ rfl; trivial)
  | assignment name value span =>
    unfold execute
    exact (below.evaluate within value).bind fun v =>
      (FitsIn.of_keeps (keeps_assign a name.name _ span)).bind fun _ => .pure _
  | fieldAssignment record field value span =>
    unfold execute
    exact (below.evaluate within value).bind fun v =>
      (FitsIn.of_keeps (keeps_assign a record.name _ span)).bind fun _ => .pure _
  | block body span =>
    rw [Statement.tryFree, Block.tryFree_eq] at free
    unfold execute
    exact (below.executeAll within body.statements free).inScope "block" .block
  | conditional branches otherwise span =>
    rw [Statement.tryFree, Bool.and_eq_true] at free
    unfold execute
    exact below.branches within branches otherwise free.1 free.2
  | «while» condition body span =>
    rw [Statement.tryFree] at free
    unfold execute
    exact below.loop within condition body span 0 free
  | «return» value span =>
    cases value with
    | none => exact .pure _
    | some e =>
      unfold execute
      exact (below.evaluate within e).bind fun v => .pure _
  | print e span =>
    unfold execute
    exact (below.evaluate within e).bind fun v =>
      (FitsIn.of_keeps (keeps_print v.text)).bind fun _ => .pure _
  | attempt guarded recovery span =>
    rw [Statement.tryFree] at free
    cases free
  | recordInstance type name span =>
    unfold execute
    exact (FitsIn.of_adds (adds_instantiate a type name span) fun _ h => h.2).bind fun _ => .pure _
  | expression e span =>
    rw [execute_expression, execute_expression]
    exact (below.evaluate within e).bind fun v => .pure _
  | _ => exact .pure _

theorem fitsIn_executeAll {statements : List Statement}
    (free : Statement.allTryFree statements = true) :
    (executeAll (fuel + 1) a statements).FitsIn
      (executeAll (fuel + 1) (a.under larger) statements) := by
  unfold executeAll
  cases statements with
  | nil => exact .pure _
  | cons statement rest =>
    rw [Statement.allTryFree, Bool.and_eq_true] at free
    refine (below.execute within statement free.1).bind fun signal => ?_
    cases signal with
    | normal => exact below.executeAll within rest free.2
    | _ => exact .pure _

theorem fitsIn_branches {branches : List Branch} {otherwise : Option Block}
    (free : Branch.allTryFree branches = true) (last : Block.optionTryFree otherwise = true) :
    (executeBranches (fuel + 1) a branches otherwise).FitsIn
      (executeBranches (fuel + 1) (a.under larger) branches otherwise) := by
  unfold executeBranches
  cases branches with
  | nil =>
    cases otherwise with
    | none => exact .pure _
    | some otherwise =>
      rw [Block.optionTryFree, Block.tryFree_eq] at last
      exact (below.executeAll within otherwise.statements last).inScope "else" .branch
  | cons branch rest =>
    obtain ⟨condition, body, span⟩ := branch
    rw [Branch.allTryFree, Bool.and_eq_true, Block.tryFree_eq] at free
    refine (below.condition within condition).bind fun taken => ?_
    cases taken with
    | true => exact (below.executeAll within body.statements free.1).inScope "if" .branch
    | false => exact below.branches within rest otherwise free.2 last

theorem fitsIn_loop (condition : Expression) {body : Block} (span : Span) (completed : Nat)
    (free : body.tryFree = true) :
    (executeLoop (fuel + 1) a condition body span completed).FitsIn
      (executeLoop (fuel + 1) (a.under larger) condition body span completed) := by
  unfold executeLoop
  refine (below.condition within condition).bind fun again => ?_
  cases again with
  | false => exact .pure _
  | true =>
    rw [if_pos rfl, if_pos rfl]
    have statements := body.tryFree_eq ▸ free
    refine fitsIn_exceededLimit? within completed (fun limit => rfl) ?_
    refine ((below.executeAll within body.statements statements).inScope "while" .loop).bind
      fun signal => ?_
    cases signal with
    | «break» | «return» => exact .pure _
    | normal | «continue» => exact below.loop within condition body span (completed + 1) free

end

theorem fitsAt (larger : Limits) (fuel : Nat) : FitsAt larger fuel := by
  induction fuel with
  | zero =>
    exact ⟨fun _ _ => .exhausted _, fun _ _ => .exhausted _, fun _ _ _ _ => .exhausted _,
      fun _ _ => .exhausted _, fun _ _ _ => .exhausted _, fun _ _ _ => .exhausted _,
      fun _ _ _ _ _ => .exhausted _, fun _ _ _ _ _ _ => .exhausted _⟩
  | succ fuel below =>
    exact ⟨fitsIn_evaluate below, fitsIn_evaluateAll below, fitsIn_call below,
      fitsIn_condition below, fun within _ => fitsIn_execute below within,
      fun within _ => fitsIn_executeAll below within,
      fun within _ _ => fitsIn_branches below within,
      fun within condition _ span completed => fitsIn_loop below within condition span completed⟩

theorem fitsIn_runStatements {larger : Limits} {a : Activation} (within : a.limits.Within larger)
    (fuel : Nat) {statements : List Statement} (free : Statement.allTryFree statements = true)
    (last : Option Value) :
    (runStatements fuel a statements last).FitsIn
      (runStatements fuel (a.under larger) statements last) := by
  have steps := fitsAt larger fuel
  induction statements, last using runStatements.induct with
  | case1 last => exact .pure last
  | case2 e span rest last ih =>
    rw [Statement.allTryFree, Bool.and_eq_true] at free
    rw [runStatements, runStatements]
    exact (steps.evaluate within e).bind fun v => ih v free.2
  | case3 first rest last other ih =>
    rw [Statement.allTryFree, Bool.and_eq_true] at free
    rw [runStatements.eq_3 _ _ _ _ _ other, runStatements.eq_3 _ _ _ _ _ other]
    refine (steps.execute within first free.1).bind fun signal => ?_
    cases signal with
    | normal => exact ih free.2
    | _ => exact .of_keeps (keeps_unwind _)

/-! ## Whole runs -/

/-- The run was stopped by a limit. -/
def RunResult.ExceedsLimit (r : RunResult) : Prop :=
  ∃ error, r.result = .error error ∧ error.fault.isLimit = true

/-- A run that is cut short for another reason than its fuel was stopped by a limit. -/
theorem exceedsLimit_of_cutShort {fuel : Nat} {limits : Limits} {clock : Clock} {program : Program}
    {store : Store} {result : RunResult} {u : Unwind}
    (ended : runWith fuel limits clock program store = some result)
    (unwound : (runStatements fuel (.topLevel limits) program.statements none
      ⟨store, #[], limits.deadline clock⟩).1 = .error u) (cut : u.CutShort) :
    result.ExceedsLimit := by
  unfold runWith at ended
  rcases known : runStatements fuel (.topLevel limits) program.statements none
    ⟨store, #[], limits.deadline clock⟩ with ⟨_ | _, m⟩ <;> rw [known] at ended unwound
  · cases unwound
    rcases cut with rfl | ⟨fault, known, limit⟩
    · cases ended
    · cases u with
      | outOfFuel => cases known
      | recoverable error | fatal error =>
        cases known
        cases ended
        exact ⟨error, rfl, limit⟩
  · cases unwound

section

variable {smaller larger : Limits} {clock clock' : Clock} {program : Program} {store : Store}

theorem run_eq_of_within (within : smaller.Within larger)
    (answers : larger.deadline clock' = smaller.deadline clock)
    (free : Statement.allTryFree program.statements = true) (functions : store.TryFree)
    (fits : ¬ (run smaller clock program store).ExceedsLimit) :
    run larger clock' program store = run smaller clock program store := by
  obtain ⟨result, ended, same⟩ := run_eq smaller clock program store
  rw [same] at fits ⊢
  have repeated : runWith (sufficientFuel smaller program store) larger clock' program store =
      some result := by
    have fitting := fitsIn_runStatements (a := .topLevel smaller) within
      (sufficientFuel smaller program store) free none ⟨store, #[], smaller.deadline clock⟩
      functions
    rcases fitting with ⟨u, unwound, cut⟩ | ⟨unchanged, -⟩
    · exact absurd (exceedsLimit_of_cutShort ended unwound cut) fits
    · rw [← ended, runWith, runWith, answers, ← unchanged]
      rfl
  -- The fuel of the one run need not be the fuel of the other, but the run has one outcome.
  exact ((runWith_settles larger clock' program store).2 _ result repeated).symm

theorem tryFree_checkProgram (free : Statement.allTryFree program.statements = true)
    (functions : store.TryFree) (onlyGlobal : store.locals = [])
    (passed : (checkProgram program store).passed = true) :
    (checkProgram program store).store.TryFree :=
  everyFunction_checkProgram functions onlyGlobal passed
    fun _ _ registered => tryFree_of_mem_registrations free registered

end

/-- Larger limits do not change a run that stays within the smaller ones: it ends with the same
value or error, has printed the same and leaves the same store, on any store and also on the one
that the check of the program has left. Both runs are to get the same answers about their deadlines,
as they do where none passes. -/
theorem run_of_within {smaller larger : Limits} (within : smaller.Within larger)
    {clock clock' : Clock}
    (answers : ∀ n, (larger.deadline clock').passed n = (smaller.deadline clock).passed n)
    {program : Program} (free : Statement.allTryFree program.statements = true) {store : Store}
    (functions : store.TryFree) :
    (¬ (run smaller clock program store).ExceedsLimit →
      run larger clock' program store = run smaller clock program store) ∧
    (store.locals = [] → (checkProgram program store).passed = true →
      ¬ (run smaller clock program (checkProgram program store).store).ExceedsLimit →
      run larger clock' program (checkProgram program store).store =
        run smaller clock program (checkProgram program store).store) := by
  have same : larger.deadline clock' = smaller.deadline clock := Deadline.ext (funext answers)
  exact ⟨run_eq_of_within within same free functions, fun onlyGlobal passed =>
    run_eq_of_within within same free (tryFree_checkProgram free functions onlyGlobal passed)⟩

/-- A function that returns one, and a loop that calls it twice. -/
def twoRounds : Program where
  statements := [
    .function ⟨"one", default⟩ [] (some ⟨.int, false, default⟩)
      (.mk [.return (some (.integer 1 default)) default] default) default,
    .variable ⟨.int, false, default⟩ ⟨"i", default⟩ (some (.integer 0 default)) default,
    .while (.binary .less (.identifier ⟨"i", default⟩ default) (.integer 2 default) default)
      (.mk [.assignment ⟨"i", default⟩ (.binary .add (.identifier ⟨"i", default⟩ default)
        (.call ⟨"one", default⟩ [] default) default) default] default) default,
    .expression (.identifier ⟨"i", default⟩ default) default]
  span := default

/-- Two iterations and one call at a time are as much as the program needs. -/
theorem run_of_within_twoRounds :
    let store := (checkProgram twoRounds (Store.empty 0)).store
    let smallest : Limits := ⟨1, 1, .ofSeconds 5⟩
    let smaller : Limits := ⟨2, 1, .ofSeconds 5⟩
    let larger : Limits := ⟨3, 7, .ofSeconds 9⟩
    run larger .still twoRounds store = run smaller .still twoRounds store ∧
    (run smaller .still twoRounds store).result.isOk = true ∧
    (run smallest .still twoRounds store).result.isOk = false := by
  intro store smallest smaller larger
  have within : smaller.Within larger := ⟨by decide, by decide⟩
  have functions : (Store.empty 0).TryFree := by
    intro scope active binding bound
    cases List.mem_singleton.mp active
    cases bound
  have succeeds : (run smaller .still twoRounds store).result.isOk = true := by decide +kernel
  refine ⟨(run_of_within within (fun n => rfl) rfl functions).2 rfl (by decide +kernel) ?_,
    succeeds, by decide +kernel⟩
  rintro ⟨error, failed, -⟩
  rw [failed] at succeeds
  cases succeeds

end Execution

end CheckedScript
