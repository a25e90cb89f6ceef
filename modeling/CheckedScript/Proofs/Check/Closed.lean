import CheckedScript.Proofs.Check.Transaction
import CheckedScript.Proofs.Check.Visit
import CheckedScript.Proofs.Store.Outline

/-!
# Closed stores

A store is closed if the body of every function that is registered in it passes its check again. A
check of a program against a closed store has then visited the body of every function that it can
find, be it a function of the store or of the program.
-/

namespace CheckedScript

open Check Checking Execution

/-- Declares a parameter of a function that is registered already. -/
def Checking.rebind (span : Span) (s : Checking) (p : FunctionParameter) : Checking :=
  s.declare ⟨p.name, span⟩ (.variable p.type p.type.defaultValue) false

namespace FunctionSymbol

variable (f : FunctionSymbol)

/-- The context of the body of a function. -/
def context : CheckContext := CheckContext.topLevel.inFunction ⟨f.name, f.returnType⟩

/-- The state in which the body of a registered function is checked against a store: its parameters
are declared in a scope of their own. -/
def opening (store : Store) : Checking :=
  f.parameters.foldl (rebind f.body.span) ((Checking.start store).push f.name .function)

/-- Checks the body of a registered function again. -/
def recheck (store : Store) : Checking := checkBlock f.context f.body (f.opening store)

/-- What the scope of a call binds when it is opened for a check. -/
def parameterBindings : Bindings Symbol :=
  f.parameters.map fun p => (p.name, .variable p.type p.type.defaultValue)

end FunctionSymbol

/-- Only the global scope is active, and each function in it is as the checker would accept it. -/
structure Store.Closed (s : Store) : Prop where
  onlyGlobal : s.locals = []
  kind : s.global.kind = .global
  functions : ∀ name f, s.global.symbols.find? name = some (.function f) → (f.recheck s).Clean

namespace Checking

variable {s : Checking}

theorem grows_foldl_declare {α : Type} (name : α → Identifier) (type : α → Ty) {xs : List α}
    (clean : (xs.foldl (fun s x =>
      s.declare (name x) (.variable (type x) (type x).defaultValue) false) s).Clean) :
    s.Grows (xs.map fun x => (⟨(name x).name, false⟩, .variable (type x) (type x).defaultValue))
      (xs.foldl (fun s x => s.declare (name x) (.variable (type x) (type x).defaultValue) false)
        s) := by
  induction xs generalizing s with
  | nil => exact .refl s
  | cons x rest ih =>
    have onward := ih clean
    exact (grows_declare_of_clean (onward.clean clean)).trans onward

end Checking

namespace Check

/-- The part of a check that is the body of a function. -/
structure Point.IsBodyOf (p : Point) (f : FunctionSymbol) : Prop where
  task : p.task = .executeAll f.body.statements
  context : p.context = f.context
  scope : ∃ scope, p.checking.store.locals = [scope] ∧ scope.kind = .function ∧
    scope.symbols = f.parameterBindings
  distinct : f.parameterBindings.names.Nodup

/-- What a check of a program against a store visits, the bodies of the functions in the store
included. -/
inductive Visited (program : Program) (store : Store) : Point → Prop
  | start : Visited program store ⟨.topLevel, .start store, .program program.statements none⟩
  | known {name : String} {f : FunctionSymbol}
      (bound : store.global.symbols.find? name = some (.function f)) :
      Visited program store ⟨f.context, f.opening store, .executeAll f.body.statements⟩
  | walk {p q : Point} (visited : Visited program store p) (walks : Walks p q) :
      Visited program store q

variable {program : Program} {store : Store} {p q : Point}

theorem Visited.accepted (closed : store.Closed) (passed : (checkProgram program store).passed = true)
    (visited : Visited program store p) : p.Accepted := by
  induction visited with
  | start => exact passed_iff_clean.mp passed
  | @known name f bound =>
    have clean := closed.functions name f bound
    rw [FunctionSymbol.recheck, checkBlock_eq] at clean
    exact clean
  | walk _ walks ih => exact walks.accepted ih

theorem clean_opening {f : FunctionSymbol} (clean : (f.recheck store).Clean) :
    (f.opening store).Clean := by
  rw [FunctionSymbol.recheck, checkBlock_eq] at clean
  exact (continues_checkStatements ..).clean clean

/-- A walk in a scope that was just opened fills that scope and no other. -/
theorem scopes_of_grows_push {s t : Checking} {name : String} {kind : ScopeKind}
    {added : Declarations} (grown : (s.push name kind).Grows added t) :
    t.store.global = s.store.global ∧
      t.store.locals = ⟨s.store.nextId, name, kind, added.bindings⟩ :: s.store.locals :=
  ⟨grown.scopes.global, by rw [grown.scopes.locals]; rfl⟩

theorem grows_opening {f : FunctionSymbol} (clean : (f.opening store).Clean) :
    ((Checking.start store).push f.name .function).Grows
      (f.parameters.map fun p => (⟨p.name, false⟩, .variable p.type p.type.defaultValue))
      (f.opening store) :=
  grows_foldl_declare (fun p : FunctionParameter => ⟨p.name, f.body.span⟩) (·.type) clean

theorem isBodyOf_known {f : FunctionSymbol} (onlyGlobal : store.locals = [])
    (clean : (f.opening store).Clean) :
    Point.IsBodyOf ⟨f.context, f.opening store, .executeAll f.body.statements⟩ f ∧
      (f.opening store).store.global = store.global := by
  have grown := grows_opening clean
  have bindings : Declarations.bindings (f.parameters.map fun p =>
      (⟨p.name, false⟩, .variable p.type p.type.defaultValue)) = f.parameterBindings := by
    simp [Declarations.bindings, FunctionSymbol.parameterBindings]
  obtain ⟨global, locals⟩ := scopes_of_grows_push grown
  exact ⟨⟨rfl, rfl, ⟨_, locals.trans (congrArg _ onlyGlobal), rfl, bindings⟩,
    bindings ▸ grown.distinct⟩, global⟩

/-- The function that a declaration binds. -/
theorem isBodyOf_declared {s : Checking} {name : Identifier} {parameters : List Declarator}
    {returnType : Ty} {body : Block} (onlyGlobal : s.store.locals = [])
    (clean : (parameters.foldl parameter (s.push name.name .function)).Clean) :
    Point.IsBodyOf ⟨CheckContext.topLevel.inFunction ⟨name.name, returnType⟩,
      parameters.foldl parameter (s.push name.name .function), .executeAll body.statements⟩
      (functionSymbol name parameters returnType body) ∧
      (parameters.foldl parameter (s.push name.name .function)).store.global = s.store.global := by
  have grown := grows_foldl_declare Declarator.name (fun p => .ofTypeName p.type) clean
  have bindings : Declarations.bindings (parameters.map fun p =>
      (⟨p.name.name, false⟩, .variable (.ofTypeName p.type) (Ty.ofTypeName p.type).defaultValue)) =
        (functionSymbol name parameters returnType body).parameterBindings := by
    simp [Declarations.bindings, FunctionSymbol.parameterBindings, functionSymbol]
  obtain ⟨global, locals⟩ := scopes_of_grows_push grown
  exact ⟨⟨rfl, rfl, ⟨_, locals.trans (congrArg _ onlyGlobal), rfl, bindings⟩,
    bindings ▸ grown.distinct⟩, global⟩

end Check

end CheckedScript
