import CheckedScript.Proofs.Execution.Run

/-!
# What a run comes through

A run is a tree of tasks: performing a task performs the tasks of its parts, one after the other,
each on the machine that the one before has left. `Enters` says which tasks a task performs
directly, and on which machines, and `Reaches` follows it to any depth. An error that a recover block
takes is the result of such a task, so a statement about every task that is reached is a statement
about caught errors too.
-/

namespace CheckedScript

namespace Execution

/-- A part of a run. -/
inductive Task where
  | evaluate (e : Expression)
  | evaluateAll (es : List Expression)
  | call (name : Identifier) (arguments : List Expression) (span : Span)
  | condition (e : Expression)
  | execute (statement : Statement)
  | executeAll (statements : List Statement)
  | branches (branches : List Branch) (otherwise : Option Block)
  | loop (condition : Expression) (body : Block) (span : Span) (completed : Nat)
  | program (statements : List Statement) (last : Option Value)

namespace Task

/-- What a task ends with if no error unwinds it. -/
@[reducible] def Result : Task → Type
  | .evaluate _ | .call _ _ _ => Value
  | .evaluateAll _ => List Value
  | .condition _ => Bool
  | .execute _ | .executeAll _ | .branches _ _ | .loop _ _ _ _ => Signal
  | .program _ _ => Option Value

def perform (fuel : Nat) (a : Activation) : (task : Task) → Run task.Result
  | .evaluate e => Execution.evaluate fuel a e
  | .evaluateAll es => Execution.evaluateAll fuel a es
  | .call name arguments span => Execution.call fuel a name arguments span
  | .condition e => evaluateCondition fuel a e
  | .execute statement => Execution.execute fuel a statement
  | .executeAll statements => Execution.executeAll fuel a statements
  | .branches tried otherwise => executeBranches fuel a tried otherwise
  | .loop test body span completed => executeLoop fuel a test body span completed
  | .program statements last => runStatements fuel a statements last

end Task

/-- A task that is about to be performed. -/
structure Moment where
  fuel : Nat
  activation : Activation
  task : Task
  machine : Machine

namespace Moment

def perform (x : Moment) : Except Unwind x.task.Result × Machine :=
  x.task.perform x.fuel x.activation x.machine

/-- The task of the moment is unwound by `u`. -/
def UnwindsWith (x : Moment) (u : Unwind) : Prop := x.perform.1 = .error u

theorem unwindsWith_iff {x : Moment} {u : Unwind} :
    x.UnwindsWith u ↔ ∃ m', x.perform = (.error u, m') := by
  unfold UnwindsWith
  rcases x.perform with ⟨_ | _, m'⟩ <;> simp

/-- The task of the moment ends with this error, whether it is caught later or not. -/
def EndsWith (x : Moment) (error : RuntimeError) : Prop :=
  x.UnwindsWith (.recoverable error) ∨ x.UnwindsWith (.fatal error)

/-- The first moment of a run. -/
def start (fuel : Nat) (limits : Limits) (clock : Clock) (program : Program) (store : Store) :
    Moment :=
  ⟨fuel, .topLevel limits, .program program.statements none,
    ⟨store, #[], limits.deadline clock⟩⟩

/-- Every moment that a moment enters has a lower rank. -/
def rank (x : Moment) : Nat :=
  match x.task with
  | .program statements _ => x.fuel + statements.length + 1
  | _ => x.fuel

end Moment

/-- Performing the first task performs the second one directly. -/
inductive Enters : Moment → Moment → Prop
  | position {fuel : Nat} {a : Activation} {m : Machine} {array : Identifier} {index : Expression}
      {span : Span} :
      Enters ⟨fuel + 1, a, .evaluate (.index array index span), m⟩ ⟨fuel, a, .evaluate index, m⟩
  | called {fuel : Nat} {a : Activation} {m : Machine} {name : Identifier}
      {arguments : List Expression} {span : Span}
      (function : (name.name == errorAccessor && arguments.isEmpty) = false) :
      Enters ⟨fuel + 1, a, .evaluate (.call name arguments span), m⟩
        ⟨fuel, a, .call name arguments span, m⟩
  | operand {fuel : Nat} {a : Activation} {m : Machine} {operator : UnaryOperator}
      {operand : Expression} {span : Span} :
      Enters ⟨fuel + 1, a, .evaluate (.unary operator operand span), m⟩
        ⟨fuel, a, .evaluate operand, m⟩
  | left {fuel : Nat} {a : Activation} {m : Machine} {operator : BinaryOperator}
      {left right : Expression} {span : Span} :
      Enters ⟨fuel + 1, a, .evaluate (.binary operator left right span), m⟩
        ⟨fuel, a, .evaluate left, m⟩
  | right {fuel : Nat} {a : Activation} {m m₁ : Machine} {operator : BinaryOperator}
      {left right : Expression} {v : Value} {span : Span}
      (known : evaluate fuel a left m = (.ok v, m₁)) (undecided : decides operator v = false) :
      Enters ⟨fuel + 1, a, .evaluate (.binary operator left right span), m⟩
        ⟨fuel, a, .evaluate right, m₁⟩
  | inner {fuel : Nat} {a : Activation} {m : Machine} {inner : Expression} {span : Span} :
      Enters ⟨fuel + 1, a, .evaluate (.parenthesized inner span), m⟩ ⟨fuel, a, .evaluate inner, m⟩
  | firstArgument {fuel : Nat} {a : Activation} {m : Machine} {e : Expression}
      {rest : List Expression} :
      Enters ⟨fuel + 1, a, .evaluateAll (e :: rest), m⟩ ⟨fuel, a, .evaluate e, m⟩
  | nextArguments {fuel : Nat} {a : Activation} {m m₁ : Machine} {e : Expression}
      {rest : List Expression} {v : Value} (known : evaluate fuel a e m = (.ok v, m₁)) :
      Enters ⟨fuel + 1, a, .evaluateAll (e :: rest), m⟩ ⟨fuel, a, .evaluateAll rest, m₁⟩
  | arguments {fuel : Nat} {a : Activation} {m : Machine} {name : Identifier}
      {arguments : List Expression} {f : FunctionSymbol} {span : Span}
      (found : m.store.lookup? name.name = some (.function f)) :
      Enters ⟨fuel + 1, a, .call name arguments span, m⟩ ⟨fuel, a, .evaluateAll arguments, m⟩
  | body {fuel : Nat} {a : Activation} {m m₁ m₂ : Machine} {name : Identifier}
      {arguments : List Expression} {f : FunctionSymbol} {values : List Value} {span : Span}
      (found : m.store.lookup? name.name = some (.function f))
      (known : evaluateAll fuel a arguments m = (.ok values, m₁))
      (allowed : callFault? a f values = none)
      (bound : bindParameters a span f.parameters values (m₁.enter f.name .function) =
        (.ok (), m₂)) :
      Enters ⟨fuel + 1, a, .call name arguments span, m⟩
        ⟨fuel, a.inCall, .executeAll f.body.statements, m₂⟩
  | truth {fuel : Nat} {a : Activation} {m : Machine} {e : Expression} :
      Enters ⟨fuel + 1, a, .condition e, m⟩ ⟨fuel, a, .evaluate e, m⟩
  | initializer {fuel : Nat} {a : Activation} {m : Machine} {type : TypeName} {name : Identifier}
      {e : Expression} {span : Span} :
      Enters ⟨fuel + 1, a, .execute (.variable type name (some e) span), m⟩
        ⟨fuel, a, .evaluate e, m⟩
  | assigned {fuel : Nat} {a : Activation} {m : Machine} {name : Identifier} {value : Expression}
      {span : Span} :
      Enters ⟨fuel + 1, a, .execute (.assignment name value span), m⟩ ⟨fuel, a, .evaluate value, m⟩
  | fieldAssigned {fuel : Nat} {a : Activation} {m : Machine} {record field : Identifier}
      {value : Expression} {span : Span} :
      Enters ⟨fuel + 1, a, .execute (.fieldAssignment record field value span), m⟩
        ⟨fuel, a, .evaluate value, m⟩
  | block {fuel : Nat} {a : Activation} {m : Machine} {body : Block} {span : Span} :
      Enters ⟨fuel + 1, a, .execute (.block body span), m⟩
        ⟨fuel, a, .executeAll body.statements, m.enter "block" .block⟩
  | conditional {fuel : Nat} {a : Activation} {m : Machine} {branches : List Branch}
      {otherwise : Option Block} {span : Span} :
      Enters ⟨fuel + 1, a, .execute (.conditional branches otherwise span), m⟩
        ⟨fuel, a, .branches branches otherwise, m⟩
  | while {fuel : Nat} {a : Activation} {m : Machine} {condition : Expression} {body : Block}
      {span : Span} :
      Enters ⟨fuel + 1, a, .execute (.while condition body span), m⟩
        ⟨fuel, a, .loop condition body span 0, m⟩
  | returned {fuel : Nat} {a : Activation} {m : Machine} {e : Expression} {span : Span} :
      Enters ⟨fuel + 1, a, .execute (.return (some e) span), m⟩ ⟨fuel, a, .evaluate e, m⟩
  | printed {fuel : Nat} {a : Activation} {m : Machine} {e : Expression} {span : Span} :
      Enters ⟨fuel + 1, a, .execute (.print e span), m⟩ ⟨fuel, a, .evaluate e, m⟩
  | guarded {fuel : Nat} {a : Activation} {m : Machine} {guarded recovery : Block} {span : Span} :
      Enters ⟨fuel + 1, a, .execute (.attempt guarded recovery span), m⟩
        ⟨fuel, a.inGuard, .executeAll guarded.statements, m.enter "try" .guarded⟩
  | recovery {fuel : Nat} {a : Activation} {m m₁ m₂ : Machine} {guarded recovery : Block}
      {error : RuntimeError} {span : Span}
      (caught : Run.inScope "try" .guarded (executeAll fuel a.inGuard guarded.statements) m =
        (.error (.recoverable error), m₁))
      (bound : define a.inRecovery errorAccessor (.variable .str (.str error.message))
        recovery.span (m₁.enter "recover" .recovery) = (.ok (), m₂)) :
      Enters ⟨fuel + 1, a, .execute (.attempt guarded recovery span), m⟩
        ⟨fuel, a.inRecovery, .executeAll recovery.statements, m₂⟩
  | discarded {fuel : Nat} {a : Activation} {m : Machine} {e : Expression} {span : Span} :
      Enters ⟨fuel + 1, a, .execute (.expression e span), m⟩ ⟨fuel, a, .evaluate e, m⟩
  | first {fuel : Nat} {a : Activation} {m : Machine} {statement : Statement}
      {rest : List Statement} :
      Enters ⟨fuel + 1, a, .executeAll (statement :: rest), m⟩ ⟨fuel, a, .execute statement, m⟩
  | next {fuel : Nat} {a : Activation} {m m₁ : Machine} {statement : Statement}
      {rest : List Statement} (done : execute fuel a statement m = (.ok .normal, m₁)) :
      Enters ⟨fuel + 1, a, .executeAll (statement :: rest), m⟩ ⟨fuel, a, .executeAll rest, m₁⟩
  | otherwise {fuel : Nat} {a : Activation} {m : Machine} {otherwise : Block} :
      Enters ⟨fuel + 1, a, .branches [] (some otherwise), m⟩
        ⟨fuel, a, .executeAll otherwise.statements, m.enter "else" .branch⟩
  | branchCondition {fuel : Nat} {a : Activation} {m : Machine} {condition : Expression}
      {body : Block} {rest : List Branch} {otherwise : Option Block} {span : Span} :
      Enters ⟨fuel + 1, a, .branches (.mk condition body span :: rest) otherwise, m⟩
        ⟨fuel, a, .condition condition, m⟩
  | branchBody {fuel : Nat} {a : Activation} {m m₁ : Machine} {condition : Expression}
      {body : Block} {rest : List Branch} {otherwise : Option Block} {span : Span}
      (holds : evaluateCondition fuel a condition m = (.ok true, m₁)) :
      Enters ⟨fuel + 1, a, .branches (.mk condition body span :: rest) otherwise, m⟩
        ⟨fuel, a, .executeAll body.statements, m₁.enter "if" .branch⟩
  | nextBranch {fuel : Nat} {a : Activation} {m m₁ : Machine} {condition : Expression}
      {body : Block} {rest : List Branch} {otherwise : Option Block} {span : Span}
      (fails : evaluateCondition fuel a condition m = (.ok false, m₁)) :
      Enters ⟨fuel + 1, a, .branches (.mk condition body span :: rest) otherwise, m⟩
        ⟨fuel, a, .branches rest otherwise, m₁⟩
  | loopCondition {fuel : Nat} {a : Activation} {m : Machine} {condition : Expression}
      {body : Block} {completed : Nat} {span : Span} :
      Enters ⟨fuel + 1, a, .loop condition body span completed, m⟩
        ⟨fuel, a, .condition condition, m⟩
  | loopBody {fuel : Nat} {a : Activation} {m m₁ m₂ : Machine} {condition : Expression}
      {body : Block} {completed : Nat} {span : Span}
      (holds : evaluateCondition fuel a condition m = (.ok true, m₁))
      (allowed : exceededLimit? a.limits completed m₁ = (.ok none, m₂)) :
      Enters ⟨fuel + 1, a, .loop condition body span completed, m⟩
        ⟨fuel, a, .executeAll body.statements, m₂.enter "while" .loop⟩
  | nextIteration {fuel : Nat} {a : Activation} {m m₁ m₂ m₃ : Machine} {condition : Expression}
      {body : Block} {completed : Nat} {signal : Signal} {span : Span}
      (holds : evaluateCondition fuel a condition m = (.ok true, m₁))
      (allowed : exceededLimit? a.limits completed m₁ = (.ok none, m₂))
      (done : Run.inScope "while" .loop (executeAll fuel a body.statements) m₂ = (.ok signal, m₃))
      (onward : signal = .normal ∨ signal = .continue) :
      Enters ⟨fuel + 1, a, .loop condition body span completed, m⟩
        ⟨fuel, a, .loop condition body span (completed + 1), m₃⟩
  | topExpression {fuel : Nat} {a : Activation} {m : Machine} {e : Expression}
      {rest : List Statement} {last : Option Value} {span : Span} :
      Enters ⟨fuel, a, .program (.expression e span :: rest) last, m⟩ ⟨fuel, a, .evaluate e, m⟩
  | afterTopExpression {fuel : Nat} {a : Activation} {m m₁ : Machine} {e : Expression}
      {rest : List Statement} {last : Option Value} {v : Value} {span : Span}
      (known : evaluate fuel a e m = (.ok v, m₁)) :
      Enters ⟨fuel, a, .program (.expression e span :: rest) last, m⟩
        ⟨fuel, a, .program rest (if v.isNull then last else some v), m₁⟩
  | topStatement {fuel : Nat} {a : Activation} {m : Machine} {statement : Statement}
      {rest : List Statement} {last : Option Value}
      (other : ∀ e span, statement ≠ .expression e span) :
      Enters ⟨fuel, a, .program (statement :: rest) last, m⟩ ⟨fuel, a, .execute statement, m⟩
  | afterTopStatement {fuel : Nat} {a : Activation} {m m₁ : Machine} {statement : Statement}
      {rest : List Statement} {last : Option Value}
      (other : ∀ e span, statement ≠ .expression e span)
      (done : execute fuel a statement m = (.ok .normal, m₁)) :
      Enters ⟨fuel, a, .program (statement :: rest) last, m⟩ ⟨fuel, a, .program rest last, m₁⟩

/-- Performing the first task performs the second one, at some depth. -/
inductive Reaches : Moment → Moment → Prop
  | refl (x : Moment) : Reaches x x
  | step {x y z : Moment} (first : Enters x y) (rest : Reaches y z) : Reaches x z

theorem Reaches.trans {x y z : Moment} (first : Reaches x y) (second : Reaches y z) :
    Reaches x z := by
  induction first with
  | refl => exact second
  | step entered _ ih => exact .step entered (ih second)

theorem Enters.rank_lt {x y : Moment} (entered : Enters x y) : y.rank < x.rank := by
  cases entered <;> simp only [Moment.rank, List.length_cons] <;> omega

end Execution

end CheckedScript
