import CheckedScript.Proofs.Check.Closed

/-!
# Where a check stands

The context of a part and the scopes that are active there belong together: the top level is where
no scope but the global one is active, local scopes bind variables and records only, and inside a
recover block a local scope binds the error accessor. So the check of a part has found the body of
every function that it can name.
-/

namespace CheckedScript

open Check Checking Execution

/-- What holds of every scope that a check opens. -/
structure Scope.IsLocal (scope : Scope) : Prop where
  kind : scope.kind ≠ .global
  data : ∀ binding ∈ scope.symbols, binding.2.IsData
  message : scope.kind = .recovery →
    scope.symbols.find? errorAccessor = some (.variable .str .null)

theorem Scope.IsLocal.extend {scope : Scope} (fits : scope.IsLocal) {added : Bindings Symbol}
    (data : ∀ binding ∈ added, binding.2.IsData) : (scope.extend added).IsLocal where
  kind := fits.kind
  data := by
    intro binding inside
    rcases List.mem_append.mp inside with before | new
    · exact fits.data binding before
    · exact data binding new
  message := by
    intro recovery
    rw [Scope.extend, Bindings.find?_append, fits.message recovery]
    rfl

/-- The context of a part and the scopes that are active there. -/
structure CheckContext.Stands (c : CheckContext) (s : Store) : Prop where
  kind : s.global.kind = .global
  level : c.isTopLevel = s.isGlobal
  top : c.isTopLevel = true → c = .topLevel
  locals : ∀ scope ∈ s.locals, scope.IsLocal
  message : c.inRecovery = true → (Store.findLocal? errorAccessor s.locals).isSome

namespace CheckContext.Stands

variable {c : CheckContext} {s t : Store}

/-- The statements of a program stand where only the global scope is active. -/
theorem topLevel (onlyGlobal : s.locals = []) (kind : s.global.kind = .global) :
    CheckContext.topLevel.Stands s where
  kind := kind
  level := by
    rw [Store.isGlobal, onlyGlobal]
    rfl
  top _ := rfl
  locals := by
    rw [onlyGlobal]
    exact List.forall_mem_nil _
  message := by rintro ⟨⟩

theorem of_sameScopes (stands : c.Stands s) (same : s.SameScopes t) : c.Stands t where
  kind := same.global ▸ stands.kind
  level := stands.level.trans same.isGlobal.symm
  top := stands.top
  locals := same.locals ▸ stands.locals
  message := same.locals ▸ stands.message

/-- A construct opens an empty scope that is not the one of a recover block. -/
theorem push (stands : c.Stands s) {c' : CheckContext} {name : String} {kind : ScopeKind}
    (local' : kind ≠ .global) (ordinary : kind ≠ .recovery) (inside : kind ≠ .function)
    (nested : c'.isTopLevel = false) (recovers : c'.inRecovery = c.inRecovery) :
    c'.Stands (s.push name kind) where
  kind := stands.kind
  level := nested
  top := fun top => absurd (nested.symm.trans top) Bool.false_ne_true
  locals := by
    intro scope active
    rcases List.mem_cons.mp active with rfl | outer
    · exact ⟨local', nofun, fun recovery => absurd recovery ordinary⟩
    · exact stands.locals scope outer
  message := by
    intro recovering
    rw [Store.push_locals, Store.findLocal?, if_neg (by simp [Bindings.contains, Bindings.find?]),
      if_neg inside]
    exact stands.message (recovers ▸ recovering)

/-- Variables and records are declared in the innermost scope, and anything in the global one. -/
theorem extend (stands : c.Stands s) {added : Bindings Symbol}
    (data : s.isGlobal = false → ∀ binding ∈ added, binding.2.IsData) :
    c.Stands (s.extend added) := by
  obtain ⟨global, locals, nextId, history⟩ := s
  cases locals with
  | nil => exact ⟨stands.kind, stands.level, stands.top, nofun, stands.message⟩
  | cons scope outer =>
    refine ⟨stands.kind, stands.level, stands.top, ?_, ?_⟩
    · intro other active
      rcases List.mem_cons.mp active with rfl | further
      · exact (stands.locals scope List.mem_cons_self).extend (data rfl)
      · exact stands.locals other (List.mem_cons_of_mem _ further)
    · intro recovering
      have bound := Option.isSome_iff_ne_none.mp (stands.message recovering)
      exact Option.isSome_iff_ne_none.mpr fun outside =>
        bound (Store.findLocal?_eq_none_of_extend outside).1

/-- Functions are found in the global scope only. -/
theorem find?_global_of_function (stands : c.Stands s) {name : String} {f : FunctionSymbol}
    (found : s.lookup? name = some (.function f)) :
    s.global.symbols.find? name = some (.function f) ∧ s.resolvingKind? name = some .global := by
  obtain ⟨scope, resolved, bound⟩ := Option.bind_eq_some_iff.mp found
  unfold Store.resolvingKind?
  rw [resolved]
  unfold Store.resolve? at resolved
  split at resolved
  · next inner active =>
    cases resolved
    exact ((stands.locals scope (Store.mem_of_findLocal?_eq_some active)).data _
      (Bindings.mem_of_find?_eq_some bound)).elim
  · split at resolved
    · cases resolved
      exact ⟨bound, congrArg some stands.kind⟩
    · cases resolved

/-- No function goes by the name of the error accessor unless it stands for the accessor. -/
theorem isErrorAccessor_of_function (stands : c.Stands s) {name : String} {f : FunctionSymbol}
    (found : s.lookup? name = some (.function f)) :
    s.isErrorAccessor name = (name == errorAccessor) := by
  unfold Store.isErrorAccessor
  rw [(stands.find?_global_of_function found).2]
  exact Bool.and_true _

/-- Inside a recover block the error accessor is a text that is bound in a local scope. -/
theorem lookup?_errorAccessor (stands : c.Stands s) {name : String}
    (accessor : s.isErrorAccessor name = true) (inside : c.inRecovery = true) :
    s.lookup? name = some (.variable .str .null) := by
  unfold Store.isErrorAccessor at accessor
  rw [Bool.and_eq_true, beq_iff_eq] at accessor
  obtain ⟨rfl, kinds⟩ := accessor
  obtain ⟨scope, found⟩ := Option.isSome_iff_exists.mp (stands.message inside)
  have resolved : s.resolve? errorAccessor = some scope := by simp [Store.resolve?, found]
  have fits := stands.locals scope (Store.mem_of_findLocal?_eq_some found)
  have recovery : scope.kind = .recovery := by
    rw [Store.resolvingKind?, resolved, Option.map_some] at kinds
    cases kind : scope.kind with
    | recovery => rfl
    | global => exact absurd kind fits.kind
    | _ => simp [kind] at kinds
  rw [Store.lookup?, resolved]
  exact fits.message recovery

end CheckContext.Stands

namespace Check

/-- A part stands where it belongs: the statements of a program at the top level, and those of a
block inside it. -/
structure Point.Placed (p : Point) : Prop where
  stands : p.context.Stands p.checking.store
  body : ∀ statements, p.task = .executeAll statements → p.checking.store.isGlobal = false
  program : ∀ statements last, p.task = .program statements last → p.checking.store.isGlobal = true

section

variable {p q : Point} {c : CheckContext} {s : Checking} {f : FunctionSymbol}

theorem isData_parameterBindings (f : FunctionSymbol) :
    ∀ binding ∈ f.parameterBindings, binding.2.IsData := by
  intro binding inside
  obtain ⟨p, -, rfl⟩ := List.mem_map.mp inside
  trivial

/-- The body of a function stands in the scope of its parameters alone. -/
theorem Point.IsBodyOf.placed (body : p.IsBodyOf f)
    (kind : p.checking.store.global.kind = .global) : p.Placed := by
  obtain ⟨scope, locals, function, symbols⟩ := body.scope
  have nested : p.checking.store.isGlobal = false := by simp [Store.isGlobal, locals]
  refine ⟨⟨kind, ?_, ?_, ?_, ?_⟩, fun _ _ => nested, fun _ _ task => ?_⟩
  · rw [body.context, nested]
    rfl
  · rw [body.context]
    rintro ⟨⟩
  · intro other active
    rw [locals] at active
    rw [List.mem_singleton.mp active]
    exact ⟨by simp [function], symbols ▸ isData_parameterBindings f, by simp [function]⟩
  · rw [body.context]
    rintro ⟨⟩
  · rw [body.task] at task
    cases task

/-- What the declaration of a statement binds inside a block is a variable or a record. -/
theorem isData_declarations {statement : Statement}
    (nested : statement.registration? = none) (store : Store) :
    ∀ binding ∈ (statement.declarations store).bindings, binding.2.IsData := by
  cases statement with
  | «variable» type name initializer span =>
    simp [Statement.declarations, Declarations.bindings, Symbol.IsData]
  | recordInstance type name span =>
    unfold Statement.declarations
    dsimp only
    split <;> simp [Declarations.bindings, Symbol.IsData]
  | function | recordType => cases nested
  | _ => exact List.forall_mem_nil _

theorem stands_checkStatement {statement : Statement} (stands : c.Stands s.store)
    (clean : (checkStatement c statement s).Clean) :
    c.Stands (checkStatement c statement s).store := by
  refine (stands.extend fun nested => ?_).of_sameScopes (grows_declarations clean).scopes
  exact isData_declarations
    (registration?_eq_none_of_nested (stands.level.trans nested) clean) s.store

/-- A recover block starts with the error accessor as the only local name of its scope. -/
theorem bindErrorAccessor_push (s : Checking) :
    (s.push "recover" .recovery).bindErrorAccessor.store =
      (s.store.push "recover" .recovery).extend [(errorAccessor, .variable .str .null)] := by
  unfold bindErrorAccessor
  rw [Store.define_of_fresh _ rfl]
  rfl

theorem stands_bindErrorAccessor (stands : c.Stands s.store) :
    c.inRecoverBlock.Stands (s.push "recover" .recovery).bindErrorAccessor.store := by
  rw [bindErrorAccessor_push]
  refine ⟨stands.kind, rfl, nofun, ?_, fun _ => ?_⟩
  · intro scope active
    rcases List.mem_cons.mp active with rfl | outer
    · exact ⟨nofun, by simp [Scope.extend, Symbol.IsData], fun _ => rfl⟩
    · exact stands.locals scope outer
  · rfl

theorem stands_condition {construct : String} {test : Expression} (stands : c.Stands s.store) :
    c.Stands (s.condition c construct test).store :=
  stands.of_sameScopes (grows_condition ..).sameScopes

theorem locals_eq_nil_of_isGlobal {store : Store} (top : store.isGlobal = true) :
    store.locals = [] :=
  List.isEmpty_iff.mp top

/-- The body of a function that is declared at the top level. -/
theorem isBodyOf_of_clean {name : Identifier} {parameters : List Declarator}
    {returnType : Option TypeName} {body : Block} {span : Span} (stands : c.Stands s.store)
    (top : c.isTopLevel = true)
    (clean : (checkStatement c (.function name parameters returnType body span) s).Clean) :
    let symbol := functionSymbol name parameters (.ofReturnType returnType) body
    let opened := parameters.foldl parameter ((s.function name symbol).push name.name .function)
    Point.IsBodyOf ⟨c.inFunction ⟨name.name, .ofReturnType returnType⟩, opened,
      .executeAll body.statements⟩ symbol ∧
    opened.store.global = s.store.global.extend [(name.name, .function symbol)] := by
  intro symbol opened
  have inBody := (continues_checkStatements ..).clean (clean_functionBody top clean)
  have declared := function_of_clean ((nested_parameters ..).clean inBody)
  have onlyGlobal : s.store.locals = [] :=
    locals_eq_nil_of_isGlobal (stands.level.symm.trans top)
  have grown := grows_declare_of_clean (declared ▸ (nested_parameters ..).clean inBody)
  have scopes := grown.scopes
  rw [← declared] at scopes
  have locals : (s.function name symbol).store.locals = [] := by
    rw [scopes.locals]
    exact Store.extend_locals_eq_nil_iff.mpr onlyGlobal
  obtain ⟨isBody, global⟩ : Point.IsBodyOf ⟨_, opened, .executeAll body.statements⟩ symbol ∧ _ :=
    isBodyOf_declared locals inBody
  rw [stands.top top]
  refine ⟨isBody, global.trans ?_⟩
  rw [scopes.global]
  simp [Store.extend, onlyGlobal, Declarations.bindings, symbol]

end

/-- What a check comes through stands where it belongs. -/
theorem Walks.placed {p q : Point} (walks : Walks p q) (accepted : p.Accepted)
    (placed : p.Placed) : q.Placed := by
  have stands := placed.stands
  cases walks with
  | declared top =>
    obtain ⟨body, global⟩ := isBodyOf_of_clean stands top accepted
    exact body.placed (global ▸ stands.kind)
  | block =>
    exact ⟨stands.push nofun nofun nofun rfl rfl, fun _ _ => rfl, nofun⟩
  | guarded =>
    exact ⟨stands.push nofun nofun nofun rfl rfl, fun _ _ => rfl, nofun⟩
  | recovery =>
    exact ⟨stands_bindErrorAccessor (stands.of_sameScopes (grows_scopedBlock ..).sameScopes),
      fun _ _ => (nested_push ..).bindErrorAccessor.isGlobal, nofun⟩
  | next =>
    have grown := grows_declarations ((continues_checkStatements ..).clean accepted)
    exact ⟨stands_checkStatement stands ((continues_checkStatements ..).clean accepted),
      fun _ _ => grown.isGlobal.trans (placed.body _ rfl), nofun⟩
  | otherwise => exact ⟨stands.push nofun nofun nofun rfl rfl, fun _ _ => rfl, nofun⟩
  | branchBody =>
    exact ⟨(stands_condition stands).push nofun nofun nofun rfl rfl, fun _ _ => rfl, nofun⟩
  | nextBranch =>
    exact ⟨(stands_condition stands).of_sameScopes (grows_scopedBlock ..).sameScopes, nofun, nofun⟩
  | loopBody =>
    exact ⟨(stands_condition stands).push nofun nofun nofun rfl rfl, fun _ _ => rfl, nofun⟩
  | afterTop =>
    have grown := grows_declarations ((continues_checkStatements ..).clean accepted)
    exact ⟨stands_checkStatement stands ((continues_checkStatements ..).clean accepted), nofun,
      fun _ _ _ => grown.isGlobal.trans (placed.program _ _ rfl)⟩
  | _ => exact ⟨stands, nofun, nofun⟩

section

variable {program : Program} {store : Store} {p q : Point}

theorem Visited.placed (closed : store.Closed) (passed : (checkProgram program store).passed = true)
    (visited : Visited program store p) : p.Placed := by
  induction visited with
  | start =>
    have top : store.isGlobal = true := by simp [Store.isGlobal, closed.onlyGlobal]
    exact ⟨.topLevel closed.onlyGlobal closed.kind, by rintro _ ⟨⟩, fun _ _ _ => top⟩
  | @known name f bound =>
    obtain ⟨body, global⟩ :=
      isBodyOf_known closed.onlyGlobal (clean_opening (closed.functions name f bound))
    exact body.placed (global ▸ closed.kind)
  | walk visited walks ih => exact walks.placed (visited.accepted closed passed) ih

/-- The global scope of the one point is part of that of the other. -/
def Point.Precedes (p q : Point) : Prop :=
  p.checking.store.global.symbols.Within q.checking.store.global.symbols

/-- A body that has been visited before a function was found. -/
def HasBody (program : Program) (store : Store) (p : Point) (f : FunctionSymbol) : Prop :=
  ∃ q, Visited program store q ∧ q.IsBodyOf f ∧ q.Precedes p

theorem HasBody.of_precedes {f : FunctionSymbol} (has : HasBody program store p f)
    (before : p.Precedes q) : HasBody program store q f :=
  let ⟨body, visited, isBody, precedes⟩ := has
  ⟨body, visited, isBody, Bindings.Within.trans precedes before⟩

/-- Every function in the global scope, where the check of a part begins, has a body. -/
def Point.Provided (program : Program) (store : Store) (p : Point) : Prop :=
  ∀ name f, p.checking.store.global.symbols.find? name = some (.function f) →
    HasBody program store p f

theorem Point.Provided.of_global_eq (provided : p.Provided program store)
    (same : q.checking.store.global = p.checking.store.global) : q.Provided program store := by
  intro name f found
  rw [same] at found
  refine (provided name f found).of_precedes ?_
  unfold Point.Precedes
  rw [same]
  exact .refl _

/-- One more name is bound in the global scope. -/
theorem Point.Provided.extend (provided : p.Provided program store) {added : Bindings Symbol}
    (grown : q.checking.store.global = p.checking.store.global.extend added)
    (new : ∀ name f, added.find? name = some (.function f) → HasBody program store q f) :
    q.Provided program store := by
  intro name f found
  rw [grown, Scope.extend, Bindings.find?_append] at found
  rcases Option.or_eq_some_iff.mp found with before | ⟨-, late⟩
  · refine (provided name f before).of_precedes ?_
    unfold Point.Precedes
    rw [grown]
    exact Bindings.within_append _ _
  · exact new name f late

theorem global_checkStatement_of_nested {c : CheckContext} {s : Checking} {statement : Statement}
    (nested : s.store.isGlobal = false) (clean : (checkStatement c statement s).Clean) :
    (checkStatement c statement s).store.global = s.store.global := by
  rw [(grows_declarations clean).scopes.global]
  refine Store.extend_global_of_locals_ne_nil ?_ _
  intro onlyGlobal
  simp [Store.isGlobal, onlyGlobal] at nested

theorem global_checkStatement_of_top {c : CheckContext} {s : Checking} {statement : Statement}
    (top : s.store.isGlobal = true) (clean : (checkStatement c statement s).Clean) :
    (checkStatement c statement s).store.global =
      s.store.global.extend (statement.declarations s.store).bindings := by
  rw [(grows_declarations clean).scopes.global]
  simp [Store.extend, locals_eq_nil_of_isGlobal top]

/-- The statement that declares a function. -/
theorem eq_function_of_declarations {statement : Statement} {name : String} {f : FunctionSymbol}
    (declared : (statement.declarations store).bindings.find? name = some (.function f)) :
    ∃ identifier parameters returnType body span,
      statement = .function identifier parameters returnType body span ∧
      f = functionSymbol identifier parameters (.ofReturnType returnType) body := by
  have inside := Bindings.mem_of_find?_eq_some declared
  cases statement with
  | function identifier parameters returnType body span =>
    simp only [Statement.declarations, Statement.registration?, Declarations.bindings,
      Option.toList_some, List.map_cons, List.map_nil, List.mem_singleton, Prod.mk.injEq,
      Symbol.function.injEq] at inside
    exact ⟨identifier, parameters, returnType, body, span, rfl, inside.2⟩
  | recordType name fields span =>
    simp [Statement.declarations, Statement.registration?, Declarations.bindings] at inside
  | _ => exact ((isData_declarations rfl store) _ inside).elim

theorem Visited.provided (closed : store.Closed)
    (passed : (checkProgram program store).passed = true) (visited : Visited program store p) :
    p.Provided program store := by
  have known : ∀ name f, store.global.symbols.find? name = some (.function f) →
      ∃ q, Visited program store q ∧ q.IsBodyOf f ∧ q.checking.store.global = store.global := by
    intro name f bound
    have clean := clean_opening (closed.functions name f bound)
    obtain ⟨isBody, global⟩ := isBodyOf_known closed.onlyGlobal clean
    exact ⟨_, .known bound, isBody, global⟩
  induction visited with
  | start =>
    intro name f found
    obtain ⟨q, visited, isBody, global⟩ := known name f found
    exact ⟨q, visited, isBody, fun name a => by rw [global]; exact id⟩
  | @known name f bound =>
    have clean := clean_opening (closed.functions name f bound)
    obtain ⟨-, opened⟩ := isBodyOf_known closed.onlyGlobal clean
    intro name' f' found
    rw [opened] at found
    obtain ⟨q, visited, isBody, global⟩ := known name' f' found
    refine ⟨q, visited, isBody, ?_⟩
    unfold Point.Precedes
    rw [global, opened]
    exact .refl _
  | walk visited walks ih =>
    have accepted := visited.accepted closed passed
    have placed := visited.placed closed passed
    cases walks with
    -- A function sees itself: its own body is the point that is visited here.
    | @declared c s name parameters returnType body span top =>
      obtain ⟨isBody, global⟩ := isBodyOf_of_clean placed.stands top accepted
      refine ih.extend global fun other f found => ?_
      obtain ⟨-, same⟩ : name.name = other ∧ _ = f := by simpa [Bindings.find?] using found
      exact ⟨_, .walk visited (.declared top), same ▸ isBody, .refl _⟩
    | @next c s statement rest =>
      exact ih.of_global_eq (global_checkStatement_of_nested (placed.body _ rfl)
        ((continues_checkStatements ..).clean accepted))
    -- The body of a new function has been visited below the statement that declares it.
    | @afterTop c s statement rest last last' =>
      have clean : (checkStatement c statement s).Clean :=
        (continues_checkStatements ..).clean accepted
      have top := placed.program _ _ rfl
      have global := global_checkStatement_of_top top clean
      refine ih.extend global fun name f found => ?_
      obtain ⟨identifier, parameters, returnType, body, span, rfl, rfl⟩ :=
        eq_function_of_declarations found
      have head := Visited.walk visited (@Walks.topStatement c s _ rest last)
      have level : c.isTopLevel = true := placed.stands.level.trans top
      obtain ⟨isBody, before⟩ := isBodyOf_of_clean placed.stands level clean
      refine ⟨_, .walk head (.declared level), isBody, ?_⟩
      unfold Point.Precedes
      rw [before, global]
      exact .refl _
    | recovery =>
      exact ih.of_global_eq ((grows_scopedBlock ..).sameScopes.global)
    | branchBody => exact ih.of_global_eq (grows_condition ..).sameScopes.global
    | loopBody => exact ih.of_global_eq (grows_condition ..).sameScopes.global
    | nextBranch =>
      exact ih.of_global_eq ((grows_condition ..).sameScopes.trans
        (grows_scopedBlock ..).sameScopes).global
    | _ => exact ih.of_global_eq rfl

end

end Check

end CheckedScript
