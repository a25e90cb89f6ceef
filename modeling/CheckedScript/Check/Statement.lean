import CheckedScript.Check.Expression
import CheckedScript.Check.Returns

/-!
# Checking statements

A walk over the statements of a program that declares their names in the store and collects what is
wrong with them. The context of a statement is handed down, so leaving a construct restores it.
-/

namespace CheckedScript

/-- A global name that a check has declared. `atRuntime` says that the statement declares it again
when it is executed. -/
structure DeclaredGlobal where
  name : String
  atRuntime : Bool
deriving DecidableEq, Inhabited

/-- How far a check has come. -/
structure Checking where
  store : Store
  diagnostics : List Diagnostic
  globals : List DeclaredGlobal

namespace Checking

def start (store : Store) : Checking := ⟨store, [], []⟩

def note (s : Checking) (found : List Diagnostic) : Checking :=
  { s with diagnostics := s.diagnostics ++ found }

def report (s : Checking) (error : SemanticError) (span : Span) : Checking := s.note [⟨error, span⟩]

/-- Declares a name in the innermost scope. -/
def declare (s : Checking) (name : Identifier) (symbol : Symbol) (atRuntime : Bool) : Checking :=
  match s.store.define name.name symbol with
  | .ok store =>
    if s.store.isGlobal then
      { s with store := store, globals := s.globals ++ [⟨name.name, atRuntime⟩] }
    else { s with store := store }
  | .error _ => s.report (.duplicateDefinition name.name) name.span

def push (s : Checking) (name : String) (kind : ScopeKind) : Checking :=
  { s with store := s.store.push name kind }

/-- Closes the scopes above `depth`. -/
def backTo (s : Checking) (depth : Nat) : Checking := { s with store := s.store.truncate depth }

/-- Types an expression and notes what is wrong with it. -/
def typeOf (s : Checking) (context : CheckContext) (e : Expression) : Option Ty × Checking :=
  let typing := Check.typeOf s.store context e
  (typing.type, s.note typing.diagnostics)

/-- Reports a type that is known and not the expected one. -/
def expect (s : Checking) (found : Option Ty) (expected : Ty) (span : Span) (context : String) :
    Checking :=
  match found with
  | none => s
  | some found =>
    if found = expected then s else s.report (.typeMismatch context expected found) span

def condition (s : Checking) (context : CheckContext) (construct : String) (e : Expression) :
    Checking :=
  let (type, s) := s.typeOf context e
  match type with
  | none | some .bool => s
  | some found => s.report (.conditionNotBool construct found) e.span

def declaration (s : Checking) (context : CheckContext) (type : TypeName) (name : Identifier)
    (initializer : Option Expression) : Checking :=
  let declared := Ty.ofTypeName type
  let s := match initializer with
    | none => s
    | some e =>
      let (found, s) := s.typeOf context e
      s.expect found declared e.span s!"declaration of '{name.name}'"
  s.declare name (.variable declared declared.defaultValue) true

def assignment (s : Checking) (context : CheckContext) (name : Identifier) (value : Expression) :
    Checking :=
  let (found, s) := s.typeOf context value
  if s.store.isErrorAccessor name.name then s.report (.assignToBuiltin name.name) name.span
  else
    match s.store.lookup? name.name with
    | some (.variable type _) => s.expect found type value.span s!"assignment to '{name.name}'"
    | some other => s.report (.notAValue name.name other.kindName) name.span
    | none => s.report (.undeclaredAssignment name.name) name.span

def fieldAssignment (s : Checking) (context : CheckContext) (record field : Identifier)
    (value : Expression) : Checking :=
  let (found, s) := s.typeOf context value
  let target := Check.typeOfField s.store record field
  let s := s.note target.diagnostics
  match target.type with
  | some expected =>
    s.expect found expected value.span s!"assignment to '{record.name}.{field.name}'"
  | none => s

/-- A value after `return` is checked even where no value may stand. -/
def returning (s : Checking) (context : CheckContext) (value : Option Expression) (span : Span) :
    Checking :=
  let found := value.map (s.typeOf context)
  let s := match found with
    | some (_, s) => s
    | none => s
  match context.function with
  | none => s.report .returnOutsideFunction span
  | some f =>
    match found with
    | none =>
      if f.returnType = .void then s else s.report (.missingReturnValue f.name f.returnType) span
    | some (type, _) =>
      if f.returnType = .void then s.report (.voidReturnsValue f.name) span
      else
        match type with
        | none => s
        | some type =>
          if type = f.returnType then s
          else s.report (.returnTypeMismatch f.name f.returnType type) span

/-- The fields of a record type; a field of a name that is taken is reported and left out. -/
def fields (record : String) : List Declarator → Bindings Ty × Checking → Bindings Ty × Checking
  | [], result => result
  | field :: rest, (bound, s) =>
    if bound.contains field.name.name then
      fields record rest
        (bound, s.report (.duplicateField record field.name.name) field.name.span)
    else fields record rest (bound.append field.name.name (.ofTypeName field.type), s)

def recordType (s : Checking) (context : CheckContext) (name : Identifier)
    (declarators : List Declarator) : Checking :=
  if context.isTopLevel then
    let (bound, s) := fields name.name declarators ([], s)
    s.declare name (.recordType ⟨name.name, bound⟩) false
  else s.report (.nestedRecordType name.name) name.span

def recordInstance (s : Checking) (type name : Identifier) : Checking :=
  match s.store.lookup? type.name with
  | some (.recordType r) => s.declare name (.recordInstance r.instantiate) true
  | _ => s.report (.undefinedRecordType type.name) type.span

def parameter (s : Checking) (p : Declarator) : Checking :=
  let type := Ty.ofTypeName p.type
  s.declare p.name (.variable type type.defaultValue) false

/-- The symbol that a function declaration binds. -/
def functionSymbol (name : Identifier) (parameters : List Declarator) (returnType : Ty)
    (body : Block) : FunctionSymbol :=
  ⟨name.name, parameters.map fun p => ⟨p.name.name, .ofTypeName p.type⟩, returnType, body⟩

/-- Declares a function, before its body is checked so that it can call itself. -/
def function (s : Checking) (name : Identifier) (symbol : FunctionSymbol) : Checking :=
  match s.store.global.symbols.find? name.name with
  | some (.function _) => s.report (.functionRedefined name.name) name.span
  | some _ => s.report (.duplicateDefinition name.name) name.span
  | none => s.declare name (.function symbol) false

/-- Binds the caught message in a recover block that was just opened. -/
def bindErrorAccessor (s : Checking) : Checking :=
  match s.store.define errorAccessor (.variable .str .null) with
  | .ok store => { s with store := store }
  | .error _ => s

end Checking

namespace Check

mutual

def checkStatement (context : CheckContext) : Statement → Checking → Checking
  | .variable type name initializer _, s => s.declaration context type name initializer
  | .assignment name value _, s => s.assignment context name value
  | .fieldAssignment record field value _, s => s.fieldAssignment context record field value
  | .function name parameters returnType body _, s =>
    if context.isTopLevel then
      let type := Ty.ofReturnType returnType
      let depth := s.store.depth
      let s := s.function name (Checking.functionSymbol name parameters type body)
      let s := parameters.foldl Checking.parameter (s.push name.name .function)
      let s := (checkBlock (context.inFunction ⟨name.name, type⟩) body s).backTo depth
      if type = .void ∨ body.alwaysReturns then s
      else s.report (.missingReturn name.name type) name.span
    else s.report (.nestedFunction name.name) name.span
  | .block body _, s =>
    (checkBlock context.inBlock body (s.push "block" .block)).backTo s.store.depth
  | .conditional branches none _, s => checkBranches context branches s
  | .conditional branches (some otherwise) _, s =>
    let s := checkBranches context branches s
    (checkBlock context.inBlock otherwise (s.push "else" .branch)).backTo s.store.depth
  | .while condition body _, s =>
    let s := s.condition context "While" condition
    (checkBlock context.inLoopBody body (s.push "while" .loop)).backTo s.store.depth
  | .break span, s => if context.inLoop then s else s.report (.loopControlOutsideLoop "Break") span
  | .continue span, s =>
    if context.inLoop then s else s.report (.loopControlOutsideLoop "Continue") span
  | .return value span, s => s.returning context value span
  | .print value _, s =>
    let (type, s) := s.typeOf context value
    if type = some .void then s.report (.voidValue "print") value.span else s
  | .attempt guarded recovery _, s =>
    let depth := s.store.depth
    let s := (checkBlock context.inBlock guarded (s.push "try" .guarded)).backTo depth
    let s := (s.push "recover" .recovery).bindErrorAccessor
    (checkBlock context.inRecoverBlock recovery s).backTo depth
  | .recordType name declarators _, s => s.recordType context name declarators
  | .recordInstance type name _, s => s.recordInstance type name
  | .expression value _, s => (s.typeOf context value).2

/-- Checks the statements of a block in the scope that is open for it. -/
def checkBlock (context : CheckContext) : Block → Checking → Checking
  | .mk statements _, s => checkStatements context statements s

def checkStatements (context : CheckContext) : List Statement → Checking → Checking
  | [], s => s
  | statement :: rest, s => checkStatements context rest (checkStatement context statement s)

def checkBranches (context : CheckContext) : List Branch → Checking → Checking
  | [], s => s
  | .mk condition body _ :: rest, s =>
    let s := s.condition context "If" condition
    checkBranches context rest
      ((checkBlock context.inBlock body (s.push "if" .branch)).backTo s.store.depth)

end

end Check

end CheckedScript
