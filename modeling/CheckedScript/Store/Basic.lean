import CheckedScript.Store.History
import CheckedScript.Store.Symbol

/-!
# The store

The active scopes: the global one, and above it the scopes of the constructs being executed. A name
is looked up from the innermost scope outwards up to the nearest function activation, and then in
the global scope, so a function never sees the locals of its caller.
-/

namespace CheckedScript

inductive ScopeError where
  | duplicateDefinition (name scope : String)
  | notFound (name : String)
  | undefinedSymbol (name : String)
  | fieldNotFound (record field : String)
  | invalidUpdate (name kind : String)
  | cannotPopGlobal
deriving DecidableEq, Inhabited

def ScopeError.message : ScopeError → String
  | duplicateDefinition name scope => s!"'{name}' is already declared in scope '{scope}'"
  | notFound name => s!"'{name}' is not defined"
  | undefinedSymbol name => s!"Cannot update undefined symbol '{name}'"
  | fieldNotFound record field => s!"Record '{record}' has no field '{field}'"
  | invalidUpdate name kind => s!"Cannot apply this update to {kind} '{name}'"
  | cannotPopGlobal => "Cannot pop the global scope"

structure Scope where
  id : Nat
  name : String
  kind : ScopeKind
  symbols : Bindings Symbol

/-- The active scopes; `locals` has the innermost one first. -/
structure Store where
  global : Scope
  locals : List Scope
  nextId : Nat
  history : History

namespace Store

/-- How many records of closed scopes are kept unless something else is asked for. -/
def defaultHistoryLimit : Nat := 4096

/-- A store with an empty global scope. -/
def empty (historyLimit : Nat) : Store where
  global := ⟨0, "global", .global, []⟩
  locals := []
  nextId := 1
  history := (History.empty historyLimit).push ⟨0, "global", .global, 0, [], false⟩

/-- The number of active scopes, the global one included. -/
def depth (s : Store) : Nat := s.locals.length + 1

def isGlobal (s : Store) : Bool := s.locals.isEmpty

/-- The innermost scope. -/
def current (s : Store) : Scope := s.locals.headD s.global

/-- Opens a scope inside all others. -/
def push (s : Store) (name : String) (kind : ScopeKind) : Store :=
  { s with
    locals := ⟨s.nextId, name, kind, []⟩ :: s.locals
    nextId := s.nextId + 1
    history := s.history.push ⟨s.nextId, name, kind, s.depth, [], false⟩ }

/-- Closes the innermost scope, unless that is the global one. -/
def pop? (s : Store) : Option (Scope × Store) :=
  match s.locals with
  | [] => none
  | scope :: outer =>
    some (scope,
      { s with locals := outer, history := s.history.close scope.id scope.symbols.names })

/-- Closes `count` scopes, as far as there are so many. -/
def popMany : (count : Nat) → Store → Store
  | 0, s => s
  | count + 1, s =>
    match s.pop? with
    | some (_, s) => popMany count s
    | none => s

/-- Closes scopes until `depth` of them are left; the global scope always stays. -/
def truncate (s : Store) (depth : Nat) : Store := popMany (s.depth - max depth 1) s

/-- Binds a new name in a scope. -/
def defineIn (scope : Scope) (name : String) (symbol : Symbol) : Except ScopeError Scope :=
  if scope.symbols.contains name then .error (.duplicateDefinition name scope.name)
  else .ok { scope with symbols := scope.symbols.append name symbol }

def defineGlobal (s : Store) (name : String) (symbol : Symbol) : Except ScopeError Store :=
  (defineIn s.global name symbol).map fun scope => { s with global := scope }

/-- Binds a new name in the innermost scope. -/
def define (s : Store) (name : String) (symbol : Symbol) : Except ScopeError Store :=
  match s.locals with
  | [] => s.defineGlobal name symbol
  | scope :: outer =>
    (defineIn scope name symbol).map fun scope => { s with locals := scope :: outer }

def removeGlobal (s : Store) (name : String) : Store :=
  { s with global := { s.global with symbols := s.global.symbols.erase name } }

/-- The innermost scope that binds `name`, up to and including the nearest function activation. -/
def findLocal? (name : String) : List Scope → Option Scope
  | [] => none
  | scope :: outer =>
    if scope.symbols.contains name then some scope
    else if scope.kind = .function then none
    else findLocal? name outer

/-- The scope that `name` is looked up in. -/
def resolve? (s : Store) (name : String) : Option Scope :=
  match findLocal? name s.locals with
  | some scope => some scope
  | none => if s.global.symbols.contains name then some s.global else none

def lookup? (s : Store) (name : String) : Option Symbol :=
  (s.resolve? name).bind fun scope => scope.symbols.find? name

/-- The kind of the scope that `name` is looked up in. -/
def resolvingKind? (s : Store) (name : String) : Option ScopeKind := (s.resolve? name).map (·.kind)

/-- Changes what `name` is bound to in the innermost of these scopes that is visible and binds it. -/
def modifyLocal (name : String) (f : Symbol → Symbol) : List Scope → Option (List Scope)
  | [] => none
  | scope :: outer =>
    if scope.symbols.contains name then
      some ({ scope with symbols := scope.symbols.modify name f } :: outer)
    else if scope.kind = .function then none
    else (modifyLocal name f outer).map (scope :: ·)

/-- Changes what `name` is bound to where it is looked up. -/
def modify (s : Store) (name : String) (f : Symbol → Symbol) : Store :=
  match modifyLocal name f s.locals with
  | some scopes => { s with locals := scopes }
  | none => { s with global := { s.global with symbols := s.global.symbols.modify name f } }

/-- Puts a new value into the variable or the record field that `name` is bound to. -/
def update (s : Store) (name : String) (change : SymbolUpdate) : Except ScopeError Store :=
  match s.lookup? name, change with
  | none, _ => .error (.undefinedSymbol name)
  | some (.variable type _), .value value =>
    .ok (s.modify name fun _ => .variable type value)
  | some (.recordInstance r), .field field value =>
    if r.fields.contains field then
      let fields := r.fields.modify field fun slot => { slot with value := value }
      .ok (s.modify name fun _ => .recordInstance { r with fields := fields })
    else .error (.fieldNotFound name field)
  | some symbol, _ => .error (.invalidUpdate name symbol.kindName)

/-- The active scopes, the global one first. -/
def scopes (s : Store) : List Scope := s.global :: s.locals.reverse

/-- The lines that describe one scope, indented by its depth. -/
def describeScope (depth : Nat) (scope : Scope) : List String :=
  let indent := String.ofList (List.replicate (2 * depth) ' ')
  s!"{indent}[{scope.name}] {scope.kind.text}" ::
    scope.symbols.map fun (name, symbol) => s!"{indent}  {name}: {symbol.text}"

/-- The active scopes and what they bind, a line for each. -/
def describe (s : Store) : String :=
  "\n".intercalate (s.scopes.zipIdx.flatMap fun (scope, depth) => describeScope depth scope)

end Store

end CheckedScript
