import CheckedScript.Ast.Statement
import CheckedScript.Check.Context
import CheckedScript.Execution.Machine
import CheckedScript.Value.Operation

/-!
# Executing statements and evaluating expressions

Operands and arguments are evaluated from left to right, and `and` and `or` leave out the right
operand where the left one decides. Statements run in order until one of them sends control
elsewhere. Every step into a part of a statement, into a further iteration and into a call takes one
unit of fuel from the depth that is left.
-/

namespace CheckedScript.Execution

/-- One float element makes all elements of an array literal floats. -/
def numberArray (elements : List NumberLiteral) : Value :=
  let isFloat : NumberLiteral → Bool
    | .float _ => true
    | .int _ => false
  let promote := elements.any isFloat
  .array <| elements.map fun
    | .int w => if promote then .float w.toFloat else .int w
    | .float x => .float x

def readVariable (a : Activation) (name : Identifier) : Run Value := do
  match (← Run.store).lookup? name.name with
  | some (.variable _ value) => pure value
  | some other => a.fail (.notAValue name.name other.kindName) name.span
  | none => a.fail (.undefinedVariable name.name) name.span

/-- The element of the array `name` at an index that is known. -/
def readElement (a : Activation) (name : String) (index : Word) (span : Span) : Run Value := do
  match (← Run.store).lookup? name with
  | some (.variable _ (.array elements)) =>
    let found := if 0 ≤ index.toInt then elements[index.toInt.toNat]? else none
    match found with
    | some element => pure element
    | none => a.fail (.indexOutOfBounds name index.toInt elements.length) span
  | some _ => a.fail (.notAnArray name) span
  | none => a.fail (.undefinedVariable name) span

def readField (a : Activation) (record field : Identifier) : Run Value := do
  match (← Run.store).lookup? record.name with
  | some (.recordInstance r) =>
    match r.fields.find? field.name with
    | some slot => pure slot.value
    | none => a.fail (.fieldNotFound r.recordType field.name) field.span
  | some _ => a.fail (.notARecord record.name) field.span
  | none => a.fail (.undefinedVariable record.name) field.span

/-- The result of an operator, or its fault raised at `span`. -/
def yield (a : Activation) (result : Except Fault Value) (span : Span) : Run Value :=
  match result with
  | .ok value => pure value
  | .error fault => a.fail fault span

/-- Declares a name in the innermost scope. -/
def define (a : Activation) (name : String) (symbol : Symbol) (span : Span) : Run Unit := do
  match (← Run.store).define name symbol with
  | .ok store => Run.setStore store
  | .error e => a.fail (.internal e.message) span

/-- The fault of an assignment to `name` that the store has refused. -/
def assignmentFault (name : String) : ScopeError → Fault
  | .fieldNotFound record field => .fieldNotFound record field
  | .invalidUpdate name _ => .notARecord name
  | _ => .undefinedVariable name

def assign (a : Activation) (name : String) (change : SymbolUpdate) (span : Span) : Run Unit := do
  match (← Run.store).update name change with
  | .ok store => Run.setStore store
  | .error e => a.fail (assignmentFault name e) span

def instantiate (a : Activation) (type name : Identifier) (span : Span) : Run Unit := do
  match (← Run.store).lookup? type.name with
  | some (.recordType r) => define a name.name (.recordInstance r.instantiate) name.span
  | _ => a.fail (.internal s!"record type '{type.name}' is not registered") span

/-- Declares the parameters of a function with the values of its arguments. -/
def bindParameters (a : Activation) (span : Span) :
    List FunctionParameter → List Value → Run Unit
  | p :: parameters, value :: values => do
    define a p.name (.variable p.type value) span
    bindParameters a span parameters values
  | _, _ => pure ()

/-- The function that a call names. -/
def calledFunction (a : Activation) (name : Identifier) : Run FunctionSymbol := do
  match (← Run.store).lookup? name.name with
  | some (.function f) => pure f
  | some other => a.fail (.notAFunction name.name other.kindName) name.span
  | none => a.fail (.undefinedFunction name.name) name.span

/-- What a call yields whose body has ended with this signal. -/
def callResult (a : Activation) (f : FunctionSymbol) (span : Span) : Signal → Run Value
  | .return value => pure value
  | .normal => pure .null
  | signal => a.fail (.controlFlowEscaped signal.name f.name) span

/-- A number of arguments or a depth of calls that forbids the call. -/
def callFault? (a : Activation) (f : FunctionSymbol) (arguments : List Value) : Option Fault :=
  if arguments.length ≠ f.parameters.length then
    some (.arityMismatch f.name f.parameters.length arguments.length)
  else if a.limits.maxCallDepth ≤ a.callDepth then some (.stackOverflow a.limits.maxCallDepth)
  else none

/-- The limit that forbids one more iteration after `completed` ones. The deadline is only asked for
where the number of iterations allows another one. -/
def exceededLimit? (limits : Limits) (completed : Nat) : Run (Option LoopLimit) := do
  if limits.maxIterations ≤ completed then return some (.iterations limits.maxIterations)
  else if ← Run.deadlinePassed then return some (.timeout limits.timeout)
  else return none

/-- The operand that decides a logical operator alone. -/
def decides (operator : BinaryOperator) (left : Value) : Bool :=
  match operator, left with
  | .and, .bool false => true
  | .or, .bool true => true
  | _, _ => false

mutual

def evaluate : (fuel : Nat) → Activation → Expression → Run Value
  | 0, _, _ => .unwind .outOfFuel
  | fuel + 1, a, e =>
    match e with
    | .integer w _ => pure (.int w)
    | .float x _ => pure (.float x)
    | .str s _ => pure (.str s)
    | .char c _ => pure (.char c)
    | .boolean b _ => pure (.bool b)
    | .numberArray elements _ => pure (numberArray elements)
    | .charArray elements _ => pure (.array (elements.map .char))
    | .strArray elements _ => pure (.array (elements.map .str))
    | .identifier name _ => readVariable a name
    | .index array index span => do
      match ← evaluate fuel a index with
      | .int i => readElement a array.name i span
      | other => a.fail (.invalidIndex other.kindName) index.span
    | .fieldAccess record field _ => readField a record field
    | .call name arguments span =>
      if name.name == errorAccessor && arguments.isEmpty then readVariable a name
      else call fuel a name arguments span
    | .unary operator operand span => do
      yield a (Value.applyUnary operator (← evaluate fuel a operand)) span
    | .binary operator left right span => do
      let left ← evaluate fuel a left
      if decides operator left then pure left
      else yield a (Value.applyBinary operator left (← evaluate fuel a right)) span
    | .parenthesized inner _ => evaluate fuel a inner

def evaluateAll : (fuel : Nat) → Activation → List Expression → Run (List Value)
  | 0, _, _ => .unwind .outOfFuel
  | _ + 1, _, [] => pure []
  | fuel + 1, a, e :: rest => do
    let value ← evaluate fuel a e
    return value :: (← evaluateAll fuel a rest)

/-- Calls a function. Its parameters and locals stand in a scope of their own. -/
def call : (fuel : Nat) → Activation → Identifier → List Expression → Span → Run Value
  | 0, _, _, _, _ => .unwind .outOfFuel
  | fuel + 1, a, name, arguments, span => do
    let f ← calledFunction a name
    let values ← evaluateAll fuel a arguments
    match callFault? a f values with
    | some fault => a.fail fault span
    | none =>
      let signal ← Run.inScope f.name .function do
        bindParameters a span f.parameters values
        executeAll fuel a.inCall f.body.statements
      callResult a f span signal

/-- The truth value of a condition. -/
def evaluateCondition : (fuel : Nat) → Activation → Expression → Run Bool
  | 0, _, _ => .unwind .outOfFuel
  | fuel + 1, a, e => do
    match ← evaluate fuel a e with
    | .bool b => pure b
    | other => a.fail (.typeMismatch "bool" other.kindName) e.span

def execute : (fuel : Nat) → Activation → Statement → Run Signal
  | 0, _, _ => .unwind .outOfFuel
  | fuel + 1, a, s =>
    match s with
    | .variable type name initializer _ => do
      let type := Ty.ofTypeName type
      let value ← match initializer with
        | some e => evaluate fuel a e
        | none => pure type.defaultValue
      define a name.name (.variable type value) name.span
      return .normal
    | .assignment name value span => do
      assign a name.name (.value (← evaluate fuel a value)) span
      return .normal
    | .fieldAssignment record field value span => do
      assign a record.name (.field field.name (← evaluate fuel a value)) span
      return .normal
    | .function .. | .recordType .. => pure .normal
    | .block body _ => .inScope "block" .block (executeAll fuel a body.statements)
    | .conditional branches otherwise _ => executeBranches fuel a branches otherwise
    | .while condition body span => executeLoop fuel a condition body span 0
    | .break _ => pure .break
    | .continue _ => pure .continue
    | .return none _ => pure (.return .null)
    | .return (some e) _ => return .return (← evaluate fuel a e)
    | .print e _ => do
      Run.print (← evaluate fuel a e).text
      return .normal
    | .attempt guarded recovery _ =>
      Run.recover (.inScope "try" .guarded (executeAll fuel a.inGuard guarded.statements))
        fun e => .inScope "recover" .recovery do
          define a.inRecovery errorAccessor (.variable .str (.str e.message)) recovery.span
          executeAll fuel a.inRecovery recovery.statements
    | .recordInstance type name span => do
      instantiate a type name span
      return .normal
    | .expression e _ => do
      discard (evaluate fuel a e)
      return .normal

/-- Executes statements in order, up to the first one that sends control elsewhere. -/
def executeAll : (fuel : Nat) → Activation → List Statement → Run Signal
  | 0, _, _ => .unwind .outOfFuel
  | _ + 1, _, [] => pure .normal
  | fuel + 1, a, s :: rest => do
    match ← execute fuel a s with
    | .normal => executeAll fuel a rest
    | signal => pure signal

/-- Executes the first branch whose condition holds, or else the block after them. -/
def executeBranches : (fuel : Nat) → Activation → List Branch → Option Block → Run Signal
  | 0, _, _, _ => .unwind .outOfFuel
  | _ + 1, _, [], none => pure .normal
  | fuel + 1, a, [], some otherwise =>
    .inScope "else" .branch (executeAll fuel a otherwise.statements)
  | fuel + 1, a, .mk condition body _ :: rest, otherwise => do
    if ← evaluateCondition fuel a condition then
      Run.inScope "if" .branch (executeAll fuel a body.statements)
    else executeBranches fuel a rest otherwise

/-- Goes on with a loop that has completed some iterations. -/
def executeLoop : (fuel : Nat) → Activation → Expression → Block → Span → (completed : Nat) →
    Run Signal
  | 0, _, _, _, _, _ => .unwind .outOfFuel
  | fuel + 1, a, condition, body, span, completed => do
    if ← evaluateCondition fuel a condition then
      match ← exceededLimit? a.limits completed with
      | some limit => a.fail (.loopLimitExceeded limit) span
      | none =>
        match ← Run.inScope "while" .loop (executeAll fuel a body.statements) with
        | .break => pure .normal
        | .return value => pure (.return value)
        | _ => executeLoop fuel a condition body span (completed + 1)
    else pure .normal

end

end CheckedScript.Execution
