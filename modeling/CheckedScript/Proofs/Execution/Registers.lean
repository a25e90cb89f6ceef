import CheckedScript.Proofs.Execution.Run

/-!
# The depth of calls and the guard as registers

The evaluator hands its activation down, so nothing has to be taken back. An interpreter that keeps
the depth of calls and the guard in two registers counts a call up and down again and sets the guard
for a `try` and its recover block and then puts it back. Both do the same, and on every path out of a
computation the registers hold what they held before (`implementsAt`).
-/

namespace CheckedScript

/-- A machine with the registers that calls and `try`s change. -/
structure Processor where
  machine : Machine
  callDepth : Nat
  guarded : Bool

/-- The activation that the registers stand for. -/
def Processor.activation (p : Processor) (limits : Limits) : Activation :=
  ⟨limits, p.callDepth, p.guarded⟩

/-- A computation that may change the registers, too. -/
def Stateful (α : Type) : Type := Processor → Except Unwind α × Processor

namespace Stateful

variable {α β : Type}

def pure (a : α) : Stateful α := fun p => (.ok a, p)

def bind (x : Stateful α) (f : α → Stateful β) : Stateful β := fun p =>
  match x p with
  | (.ok a, p) => f a p
  | (.error u, p) => (.error u, p)

instance : Monad Stateful where
  pure := Stateful.pure
  bind := Stateful.bind

def unwind (u : Unwind) : Stateful α := fun p => (.error u, p)

/-- What the machine does in the activation that the registers stand for. -/
def step (limits : Limits) (x : Activation → Run α) : Stateful α := fun p =>
  match x (p.activation limits) p.machine with
  | (result, machine) => (result, { p with machine := machine })

/-- Runs `body` in a scope of its own, which is closed however the body ends. -/
def inScope (name : String) (kind : ScopeKind) (body : Stateful α) : Stateful α := fun p =>
  match body { p with machine := p.machine.enter name kind } with
  | (result, left) =>
    (result, { left with machine :=
      { left.machine with store := left.machine.store.truncate p.machine.store.depth } })

/-- Counts one more call while `body` runs. -/
def inCall (body : Stateful α) : Stateful α := fun p =>
  match body { p with callDepth := p.callDepth + 1 } with
  | (result, left) => (result, { left with callDepth := left.callDepth - 1 })

/-- Sets the guard while `body` runs and puts the old one back. -/
def withGuard (guarded : Bool) (body : Stateful α) : Stateful α := fun p =>
  match body { p with guarded := guarded } with
  | (result, left) => (result, { left with guarded := p.guarded })

/-- Hands a recoverable error of `body` to `handler`. -/
def recover (body : Stateful α) (handler : RuntimeError → Stateful α) : Stateful α := fun p =>
  match body p with
  | (.error (.recoverable e), p) => handler e p
  | other => other

end Stateful

namespace Stateful

open Execution (readVariable readElement readField yield define assign instantiate bindParameters
  calledFunction callResult callFault? exceededLimit? decides)

/-! ## The interpreter with registers -/

mutual

def evaluate (limits : Limits) : (fuel : Nat) → Expression → Stateful Value
  | 0, _ => .unwind .outOfFuel
  | fuel + 1, e =>
    match e with
    | .integer w _ => Pure.pure (.int w)
    | .float x _ => Pure.pure (.float x)
    | .str s _ => Pure.pure (.str s)
    | .char c _ => Pure.pure (.char c)
    | .boolean b _ => Pure.pure (.bool b)
    | .numberArray elements _ => Pure.pure (Execution.numberArray elements)
    | .charArray elements _ => Pure.pure (.array (elements.map .char))
    | .strArray elements _ => Pure.pure (.array (elements.map .str))
    | .identifier name _ => .step limits fun a => readVariable a name
    | .index array index span => do
      match ← evaluate limits fuel index with
      | .int i => .step limits fun a => readElement a array.name i span
      | other => .step limits fun a => a.fail (.invalidIndex other.kindName) index.span
    | .fieldAccess record field _ => .step limits fun a => readField a record field
    | .call name arguments span =>
      if name.name == errorAccessor && arguments.isEmpty then
        .step limits fun a => readVariable a name
      else call limits fuel name arguments span
    | .unary operator operand span => do
      let v ← evaluate limits fuel operand
      .step limits fun a => yield a (Value.applyUnary operator v) span
    | .binary operator left right span => do
      let v ← evaluate limits fuel left
      if decides operator v then Pure.pure v
      else
        let w ← evaluate limits fuel right
        .step limits fun a => yield a (Value.applyBinary operator v w) span
    | .parenthesized inner _ => evaluate limits fuel inner

def evaluateAll (limits : Limits) : (fuel : Nat) → List Expression → Stateful (List Value)
  | 0, _ => .unwind .outOfFuel
  | _ + 1, [] => Pure.pure []
  | fuel + 1, e :: rest => do
    let value ← evaluate limits fuel e
    let values ← evaluateAll limits fuel rest
    return value :: values

def call (limits : Limits) : (fuel : Nat) → Identifier → List Expression → Span → Stateful Value
  | 0, _, _, _ => .unwind .outOfFuel
  | fuel + 1, name, arguments, span => do
    let f ← Stateful.step limits fun a => calledFunction a name
    let values ← evaluateAll limits fuel arguments
    let fault? ← Stateful.step limits fun a => Pure.pure (callFault? a f values)
    match fault? with
    | some fault => .step limits fun a => a.fail fault span
    | none =>
      let signal ← Stateful.inCall <| Stateful.inScope f.name .function do
        Stateful.step limits fun a => bindParameters a span f.parameters values
        executeAll limits fuel f.body.statements
      .step limits fun a => callResult a f span signal

def evaluateCondition (limits : Limits) : (fuel : Nat) → Expression → Stateful Bool
  | 0, _ => .unwind .outOfFuel
  | fuel + 1, e => do
    match ← evaluate limits fuel e with
    | .bool b => Pure.pure b
    | other => .step limits fun a => a.fail (.typeMismatch "bool" other.kindName) e.span

def execute (limits : Limits) : (fuel : Nat) → Statement → Stateful Signal
  | 0, _ => .unwind .outOfFuel
  | fuel + 1, s =>
    match s with
    | .variable type name initializer _ => do
      let type := Ty.ofTypeName type
      let value ← match initializer with
        | some e => evaluate limits fuel e
        | none => Pure.pure type.defaultValue
      Stateful.step limits fun a => define a name.name (.variable type value) name.span
      return .normal
    | .assignment name value span => do
      let v ← evaluate limits fuel value
      Stateful.step limits fun a => assign a name.name (.value v) span
      return .normal
    | .fieldAssignment record field value span => do
      let v ← evaluate limits fuel value
      Stateful.step limits fun a => assign a record.name (.field field.name v) span
      return .normal
    | .function .. | .recordType .. => Pure.pure .normal
    | .block body _ => .inScope "block" .block (executeAll limits fuel body.statements)
    | .conditional branches otherwise _ => executeBranches limits fuel branches otherwise
    | .while condition body span => executeLoop limits fuel condition body span 0
    | .break _ => Pure.pure .break
    | .continue _ => Pure.pure .continue
    | .return none _ => Pure.pure (.return .null)
    | .return (some e) _ => do
      let v ← evaluate limits fuel e
      return .return v
    | .print e _ => do
      let v ← evaluate limits fuel e
      Stateful.step limits fun _ => Run.print v.text
      return .normal
    | .attempt guarded recovery _ =>
      Stateful.recover
        (.withGuard true <| .inScope "try" .guarded (executeAll limits fuel guarded.statements))
        fun e => .withGuard false <| .inScope "recover" .recovery do
          Stateful.step limits fun a =>
            define a errorAccessor (.variable .str (.str e.message)) recovery.span
          executeAll limits fuel recovery.statements
    | .recordInstance type name span => do
      Stateful.step limits fun a => instantiate a type name span
      return .normal
    | .expression e _ => do
      let _ ← evaluate limits fuel e
      return .normal

def executeAll (limits : Limits) : (fuel : Nat) → List Statement → Stateful Signal
  | 0, _ => .unwind .outOfFuel
  | _ + 1, [] => Pure.pure .normal
  | fuel + 1, s :: rest => do
    match ← execute limits fuel s with
    | .normal => executeAll limits fuel rest
    | signal => Pure.pure signal

def executeBranches (limits : Limits) :
    (fuel : Nat) → List Branch → Option Block → Stateful Signal
  | 0, _, _ => .unwind .outOfFuel
  | _ + 1, [], none => Pure.pure .normal
  | fuel + 1, [], some otherwise =>
    .inScope "else" .branch (executeAll limits fuel otherwise.statements)
  | fuel + 1, .mk condition body _ :: rest, otherwise => do
    if ← evaluateCondition limits fuel condition then
      Stateful.inScope "if" .branch (executeAll limits fuel body.statements)
    else executeBranches limits fuel rest otherwise

def executeLoop (limits : Limits) :
    (fuel : Nat) → Expression → Block → Span → (completed : Nat) → Stateful Signal
  | 0, _, _, _, _ => .unwind .outOfFuel
  | fuel + 1, condition, body, span, completed => do
    if ← evaluateCondition limits fuel condition then
      match ← Stateful.step limits fun a => exceededLimit? a.limits completed with
      | some limit => .step limits fun a => a.fail (.loopLimitExceeded limit) span
      | none =>
        match ← Stateful.inScope "while" .loop (executeAll limits fuel body.statements) with
        | .break => Pure.pure .normal
        | .return value => Pure.pure (.return value)
        | _ => executeLoop limits fuel condition body span (completed + 1)
    else Pure.pure .normal

end

/-! ## Both do the same -/

variable {α β : Type} {limits : Limits}

/-- The computation does what the machine does in the activation that the registers stand for, and
leaves the registers as they were. -/
def Implements (limits : Limits) (y : Stateful α) (x : Activation → Run α) : Prop :=
  ∀ p, y p = Stateful.step limits x p

namespace Implements

variable {x : Activation → Run α} {y : Stateful α}

theorem step (x : Activation → Run α) : Implements limits (.step limits x) x := fun _ => rfl

/-- Only what is done in the activation of the registers counts. -/
theorem here {x' : Activation → Run α} {p : Processor} (implements : Implements limits y x')
    (same : x (p.activation limits) = x' (p.activation limits)) :
    y p = Stateful.step limits x p := by
  rw [implements p]
  unfold Stateful.step
  rw [same]

theorem pure (v : α) : Implements limits (Pure.pure v) fun _ => Pure.pure v := fun _ => rfl

theorem unwind (u : Unwind) : Implements limits (.unwind u : Stateful α) fun _ => .unwind u :=
  fun _ => rfl

theorem bind {f : Activation → α → Run β} {g : α → Stateful β} (first : Implements limits y x)
    (second : ∀ v, Implements limits (g v) fun a => f a v) :
    Implements limits (y >>= g) fun a => x a >>= f a := by
  intro p
  change Stateful.bind y g p = Stateful.step limits (fun a => Run.bind (x a) (f a)) p
  unfold Stateful.bind
  rw [first p]
  unfold Stateful.step Run.bind
  dsimp only
  rcases x (p.activation limits) p.machine with ⟨u | v, m⟩
  · rfl
  · exact second v { p with machine := m }

theorem inScope (body : Implements limits y x) (name : String) (kind : ScopeKind) :
    Implements limits (Stateful.inScope name kind y) fun a => Run.inScope name kind (x a) := by
  intro p
  unfold Stateful.inScope
  rw [body]
  rfl

/-- The depth is one higher in the call and the old one after it. -/
theorem inCall (body : Implements limits y x) :
    Implements limits (Stateful.inCall y) fun a => x a.inCall := by
  intro p
  unfold Stateful.inCall
  rw [body]
  rfl

theorem inGuard (body : Implements limits y x) :
    Implements limits (Stateful.withGuard true y) fun a => x a.inGuard := by
  intro p
  unfold Stateful.withGuard
  rw [body]
  rfl

theorem inRecovery (body : Implements limits y x) :
    Implements limits (Stateful.withGuard false y) fun a => x a.inRecovery := by
  intro p
  unfold Stateful.withGuard
  rw [body]
  rfl

theorem recover {handler : Activation → RuntimeError → Run α}
    {handler' : RuntimeError → Stateful α} (body : Implements limits y x)
    (handled : ∀ error, Implements limits (handler' error) fun a => handler a error) :
    Implements limits (Stateful.recover y handler') fun a => Run.recover (x a) (handler a) := by
  intro p
  unfold Stateful.recover
  rw [body p]
  unfold Stateful.step Run.recover
  dsimp only
  rcases x (p.activation limits) p.machine with ⟨(error | error | _) | v, m⟩
  case error.recoverable => exact handled error { p with machine := m }
  all_goals rfl

end Implements

/-- Parameters are bound alike inside and outside of the call. -/
theorem bindParameters_inCall (a : Activation) (span : Span) (parameters : List FunctionParameter)
    (values : List Value) :
    bindParameters a.inCall span parameters values = bindParameters a span parameters values := by
  induction parameters generalizing values with
  | nil => rfl
  | cons p parameters ih =>
    cases values with
    | nil => rfl
    | cons value values =>
      unfold bindParameters
      rw [ih]
      rfl

/-- The interpreter with registers does what the evaluator does on this fuel. -/
structure ImplementsAt (limits : Limits) (fuel : Nat) : Prop where
  evaluate : ∀ e, Implements limits (evaluate limits fuel e) fun a => Execution.evaluate fuel a e
  evaluateAll : ∀ es,
    Implements limits (evaluateAll limits fuel es) fun a => Execution.evaluateAll fuel a es
  call : ∀ name arguments span, Implements limits (call limits fuel name arguments span) fun a =>
    Execution.call fuel a name arguments span
  condition : ∀ e,
    Implements limits (evaluateCondition limits fuel e) fun a => Execution.evaluateCondition fuel a e
  execute : ∀ statement,
    Implements limits (execute limits fuel statement) fun a => Execution.execute fuel a statement
  executeAll : ∀ statements,
    Implements limits (executeAll limits fuel statements) fun a =>
      Execution.executeAll fuel a statements
  branches : ∀ branches otherwise,
    Implements limits (executeBranches limits fuel branches otherwise) fun a =>
      Execution.executeBranches fuel a branches otherwise
  loop : ∀ condition body span completed,
    Implements limits (executeLoop limits fuel condition body span completed) fun a =>
      Execution.executeLoop fuel a condition body span completed

section

variable {fuel : Nat} (below : ImplementsAt limits fuel)

include below

theorem implements_evaluate (e : Expression) :
    Implements limits (evaluate limits (fuel + 1) e) fun a => Execution.evaluate (fuel + 1) a e := by
  unfold evaluate Execution.evaluate
  cases e with
  | identifier name span => exact .step _
  | fieldAccess record field span => exact .step _
  | parenthesized inner span => exact below.evaluate inner
  | index array index span =>
    refine (below.evaluate index).bind fun v => ?_
    cases v <;> exact .step _
  | call name arguments span =>
    dsimp only
    split
    · exact .step _
    · exact below.call name arguments span
  | unary operator operand span => exact (below.evaluate operand).bind fun v => .step _
  | binary operator left right span =>
    refine (below.evaluate left).bind fun v => ?_
    split
    · exact .pure v
    · exact (below.evaluate right).bind fun w => .step _
  | _ => exact .pure _

theorem implements_evaluateAll (es : List Expression) :
    Implements limits (evaluateAll limits (fuel + 1) es) fun a =>
      Execution.evaluateAll (fuel + 1) a es := by
  unfold evaluateAll Execution.evaluateAll
  cases es with
  | nil => exact .pure _
  | cons e rest =>
    exact (below.evaluate e).bind fun v => (below.evaluateAll rest).bind fun vs => .pure _

theorem implements_call (name : Identifier) (arguments : List Expression) (span : Span) :
    Implements limits (call limits (fuel + 1) name arguments span) fun a =>
      Execution.call (fuel + 1) a name arguments span := by
  unfold call Execution.call
  refine (Implements.step _).bind fun f => (below.evaluateAll arguments).bind fun values => ?_
  intro p
  show (match callFault? (p.activation limits) f values with
    | some fault => _
    | none => _ : Stateful Value) p = _
  cases allowed : callFault? (p.activation limits) f values with
  | some fault => exact (Implements.step fun a => a.fail fault span).here (by simp only [allowed])
  | none =>
    have body := (Implements.step fun a => bindParameters a span f.parameters values).bind
      fun _ => below.executeAll f.body.statements
    have called := (body.inScope f.name .function).inCall.bind fun signal =>
      Implements.step fun a => callResult a f span signal
    simp only [bindParameters_inCall] at called
    exact called.here (by simp only [allowed])

theorem implements_condition (e : Expression) :
    Implements limits (evaluateCondition limits (fuel + 1) e) fun a =>
      Execution.evaluateCondition (fuel + 1) a e := by
  unfold evaluateCondition Execution.evaluateCondition
  refine (below.evaluate e).bind fun v => ?_
  cases v with
  | bool b => exact .pure b
  | _ => exact .step _

theorem implements_execute (statement : Statement) :
    Implements limits (execute limits (fuel + 1) statement) fun a =>
      Execution.execute (fuel + 1) a statement := by
  cases statement with
  | «variable» type name initializer span =>
    simp only [Execution.execute_variable]
    unfold execute
    cases initializer with
    | none => exact (Implements.pure _).bind fun v => (Implements.step _).bind fun _ => .pure _
    | some e => exact (below.evaluate e).bind fun v => (Implements.step _).bind fun _ => .pure _
  | assignment name value span =>
    unfold execute Execution.execute
    exact (below.evaluate value).bind fun v => (Implements.step _).bind fun _ => .pure _
  | fieldAssignment record field value span =>
    unfold execute Execution.execute
    exact (below.evaluate value).bind fun v => (Implements.step _).bind fun _ => .pure _
  | block body span =>
    unfold execute Execution.execute
    exact (below.executeAll body.statements).inScope "block" .block
  | conditional branches otherwise span =>
    unfold execute Execution.execute
    exact below.branches branches otherwise
  | «while» condition body span =>
    unfold execute Execution.execute
    exact below.loop condition body span 0
  | «return» value span =>
    unfold execute Execution.execute
    cases value with
    | none => exact .pure _
    | some e => exact (below.evaluate e).bind fun v => .pure _
  | print e span =>
    unfold execute Execution.execute
    exact (below.evaluate e).bind fun v => (Implements.step _).bind fun _ => .pure _
  | attempt guarded recovery span =>
    unfold execute Execution.execute
    refine Implements.recover ((below.executeAll guarded.statements).inScope "try" .guarded).inGuard
      fun error => ?_
    have recovered := (Implements.step fun a => define a errorAccessor
      (.variable .str (.str error.message)) recovery.span).bind fun _ =>
        below.executeAll recovery.statements
    exact (recovered.inScope "recover" .recovery).inRecovery
  | recordInstance type name span =>
    unfold execute Execution.execute
    exact (Implements.step _).bind fun _ => .pure _
  | expression e span =>
    unfold execute
    simp only [Execution.execute_expression]
    exact (below.evaluate e).bind fun v => .pure _
  | _ =>
    unfold execute Execution.execute
    exact .pure _

theorem implements_executeAll (statements : List Statement) :
    Implements limits (executeAll limits (fuel + 1) statements) fun a =>
      Execution.executeAll (fuel + 1) a statements := by
  unfold executeAll Execution.executeAll
  cases statements with
  | nil => exact .pure _
  | cons statement rest =>
    refine (below.execute statement).bind fun signal => ?_
    cases signal with
    | normal => exact below.executeAll rest
    | _ => exact .pure _

theorem implements_branches (branches : List Branch) (otherwise : Option Block) :
    Implements limits (executeBranches limits (fuel + 1) branches otherwise) fun a =>
      Execution.executeBranches (fuel + 1) a branches otherwise := by
  unfold executeBranches Execution.executeBranches
  cases branches with
  | nil =>
    cases otherwise with
    | none => exact .pure _
    | some otherwise => exact (below.executeAll otherwise.statements).inScope "else" .branch
  | cons branch rest =>
    obtain ⟨condition, body, span⟩ := branch
    refine (below.condition condition).bind fun taken => ?_
    cases taken with
    | true => exact (below.executeAll body.statements).inScope "if" .branch
    | false => exact below.branches rest otherwise

theorem implements_loop (condition : Expression) (body : Block) (span : Span) (completed : Nat) :
    Implements limits (executeLoop limits (fuel + 1) condition body span completed) fun a =>
      Execution.executeLoop (fuel + 1) a condition body span completed := by
  unfold executeLoop Execution.executeLoop
  refine (below.condition condition).bind fun again => ?_
  cases again with
  | false => exact .pure _
  | true =>
    refine (Implements.step fun a => exceededLimit? a.limits completed).bind fun limit => ?_
    cases limit with
    | some limit => exact .step fun a => a.fail (.loopLimitExceeded limit) span
    | none =>
      refine ((below.executeAll body.statements).inScope "while" .loop).bind fun signal => ?_
      cases signal with
      | «break» | «return» => exact .pure _
      | normal | «continue» => exact below.loop condition body span (completed + 1)

end

theorem implementsAt (limits : Limits) (fuel : Nat) : ImplementsAt limits fuel := by
  induction fuel with
  | zero =>
    exact ⟨fun _ => .unwind _, fun _ => .unwind _, fun _ _ _ => .unwind _, fun _ => .unwind _,
      fun _ => .unwind _, fun _ => .unwind _, fun _ _ => .unwind _, fun _ _ _ _ => .unwind _⟩
  | succ fuel below =>
    exact ⟨implements_evaluate below, implements_evaluateAll below, implements_call below,
      implements_condition below, implements_execute below, implements_executeAll below,
      implements_branches below, implements_loop below⟩

end Stateful

end CheckedScript
