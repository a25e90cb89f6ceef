import CheckedScript.Proofs.Agreement.Scopes

/-!
# What a check foretells of a run

Where a check that passes has come to its end, before it takes anything back, its global scope binds
all that a run of the program can bind there. The body of each function was accepted at a point from
where on the global scope has only grown.
-/

namespace CheckedScript

open Check Checking Execution Store

/-- Whatever a store that binds less makes of the declaration of a statement, this scope binds. -/
def Scope.Foretells (scope : Scope) (statement : Statement) : Prop :=
  ∀ s : Store, s.locals = [] → Covers s.global scope →
    ∀ d ∈ statement.declarations s, d.1.atRuntime = true →
      scope.declaration? d.1.name = some d.2.declaration

theorem Store.lookup?_of_onlyGlobal {s : Store} (onlyGlobal : s.locals = []) (name : String) :
    s.lookup? name = s.global.symbols.find? name := by
  rw [lookup?_eq_or, onlyGlobal]
  rfl

/-- A scope to which a check goes on foretells what it has checked. -/
theorem Check.foretells_of_clean {c : CheckContext} {statement : Statement} {s : Checking}
    {scope : Scope} (clean : (checkStatement c statement s).Clean) (onlyGlobal : s.store.locals = [])
    (onward : (checkStatement c statement s).store.global.symbols.Within scope.symbols) :
    scope.Foretells statement := by
  have top : s.store.isGlobal = true := by simp [Store.isGlobal, onlyGlobal]
  have grown := grows_declarations clean
  have global := global_checkStatement_of_top top clean
  have bound : ∀ d ∈ statement.declarations s.store,
      scope.declaration? d.1.name = some d.2.declaration := by
    intro d inside
    have listed : (d.1.name, d.2) ∈ (statement.declarations s.store).bindings :=
      List.mem_map_of_mem inside
    have free := grown.fresh d.1.name (List.mem_map_of_mem listed)
    rw [Store.current, onlyGlobal, List.headD_nil] at free
    rw [Scope.declaration?, onward d.1.name d.2 ?_]
    · rfl
    · rw [global, Scope.extend, Bindings.find?_append, Bindings.find?_eq_none_iff.mpr free,
        Option.none_or]
      exact Bindings.find?_of_mem grown.distinct listed
  intro t onlyGlobal' covers d inside runtime
  cases statement with
  | recordInstance type name span =>
    unfold checkStatement at clean
    obtain ⟨r, known⟩ := of_clean_recordInstance clean
    rw [Store.lookup?_of_onlyGlobal onlyGlobal] at known
    unfold Statement.declarations at inside
    dsimp only at inside
    split at inside
    · next r' found =>
      rw [Store.lookup?_of_onlyGlobal onlyGlobal'] at found
      obtain ⟨symbol, known', declares⟩ := covers type.name _ found
      have kept : scope.symbols.find? type.name = some (.recordType r) := by
        refine onward _ _ ?_
        rw [global]
        exact Bindings.within_append _ _ _ _ known
      rw [Symbol.declaration_eq_recordType_iff.mp declares, kept] at known'
      cases known'
      refine bound d ?_
      rw [Statement.declarations, Store.lookup?_of_onlyGlobal onlyGlobal, known]
      exact inside
    · cases inside
  | «variable» => exact bound d inside
  | function | recordType =>
    rw [List.mem_singleton.mp inside] at runtime
    cases runtime
  | _ => cases inside

theorem Check.foretells_checkStatements {c : CheckContext} {statements : List Statement}
    {s : Checking} (clean : (checkStatements c statements s).Clean) (onlyGlobal : s.store.locals = []) :
    ∀ statement ∈ statements, (checkStatements c statements s).store.global.Foretells statement := by
  induction statements generalizing s with
  | nil => exact nofun
  | cons first rest ih =>
    unfold checkStatements at clean ⊢
    have head : (checkStatement c first s).Clean := (continues_checkStatements ..).clean clean
    have onlyGlobal' : (checkStatement c first s).store.locals = [] := by
      rw [(grows_declarations head).scopes.locals]
      exact Store.extend_locals_eq_nil_iff.mpr onlyGlobal
    intro statement inside
    rcases List.mem_cons.mp inside with rfl | later
    · obtain ⟨added, grown⟩ := continues_checkStatements c rest (checkStatement c statement s)
      refine foretells_of_clean head onlyGlobal ?_
      rw [grown.scopes.global, Store.extend_global_of_locals_eq_nil onlyGlobal']
      exact Bindings.within_append _ _
    · exact ih clean onlyGlobal' statement later

/-- The global scope where the check of a program has come to its end. -/
def checkedScope (program : Program) (store : Store) : Scope :=
  (checkStatements .topLevel program.statements (.start store)).store.global

section

variable {program : Program} {store : Store}

theorem foretells_checkedScope (onlyGlobal : store.locals = [])
    (passed : (checkProgram program store).passed = true) :
    ∀ statement ∈ program.statements, (checkedScope program store).Foretells statement :=
  foretells_checkStatements (passed_iff_clean.mp passed) onlyGlobal

/-- The scope in which a run begins binds nothing that was not foretold, and lacks nothing but the
names that are bound at run time. -/
theorem covers_checkedScope (onlyGlobal : store.locals = [])
    (passed : (checkProgram program store).passed = true) :
    Covers (checkProgram program store).store.global (checkedScope program store) ∧
      ∀ name, (checkedScope program store).symbols.contains name = true →
        (checkProgram program store).store.global.symbols.contains name = true ∨
        ∃ statement ∈ program.statements, statement.runtimeName? = some name := by
  have clean := passed_iff_clean.mp passed
  obtain ⟨added, grown, lasting, runtime, -⟩ :=
    (Check.registers_checkStatements program.statements clean).added
  obtain ⟨-, global⟩ := checkProgram_store_of_clean onlyGlobal clean grown
  have ended : checkedScope program store = store.global.extend added.bindings := by
    rw [checkedScope, grown.scopes.global]
    exact Store.extend_global_of_locals_eq_nil onlyGlobal _
  constructor
  · intro name symbol found
    refine ⟨symbol, ?_, rfl⟩
    rw [global, Scope.extend, Bindings.find?_append] at found
    rw [ended, Scope.extend, Bindings.find?_append]
    rcases Option.or_eq_some_iff.mp found with before | ⟨unbound, new⟩
    · rw [before, Option.some_or]
    -- The names that a check declares are distinct, so the first one that is found is the right
    -- one.
    · obtain ⟨d, lasts, same⟩ := List.mem_map.mp (Bindings.mem_of_find?_eq_some new)
      rw [unbound, Option.none_or]
      exact Bindings.find?_of_mem grown.distinct
        (List.mem_map.mpr ⟨d, (List.mem_filter.mp lasts).1, same⟩)
  · intro name bound
    rw [Bindings.contains_eq_true_iff, ended, Scope.mem_names_extend_iff] at bound
    rw [Bindings.contains_eq_true_iff, global, Scope.mem_names_extend_iff]
    rcases bound with before | new
    · exact .inl (.inl before)
    · obtain ⟨d, inside, rfl⟩ := List.mem_map.mp (Declarations.names_bindings _ ▸ new)
      cases atRuntime : d.1.atRuntime with
      | true => exact .inr (runtime d inside atRuntime)
      | false =>
        refine .inl (.inr ?_)
        rw [Declarations.names_bindings]
        exact List.mem_map_of_mem (List.mem_filter.mpr ⟨inside, by simp [atRuntime]⟩)

/-- The body of a function that the statements declare was accepted before the check came to its
end. -/
theorem body_of_registration {statements : List Statement} {s : Checking}
    (stands : CheckContext.topLevel.Stands s.store)
    (clean : (checkStatements .topLevel statements s).Clean) {name : String} {f : FunctionSymbol}
    (registered : (name, Symbol.function f) ∈ statements.filterMap Statement.registration?) :
    ∃ p : Point, p.IsBodyOf f ∧ p.Accepted ∧ p.checking.store.global.kind = .global ∧
      p.checking.store.global.symbols.Within
        (checkStatements .topLevel statements s).store.global.symbols := by
  induction statements generalizing s with
  | nil => cases registered
  | cons statement rest ih =>
    unfold checkStatements at clean ⊢
    have head : (checkStatement .topLevel statement s).Clean :=
      (continues_checkStatements ..).clean clean
    have onward := stands_checkStatement stands head
    obtain ⟨other, inside, declares⟩ := List.mem_filterMap.mp registered
    rcases List.mem_cons.mp inside with rfl | later
    · cases other with
      | function identifier parameters returnType body span =>
        cases declares
        have top : s.store.isGlobal = true := stands.level.symm
        obtain ⟨isBody, global⟩ := isBodyOf_of_clean stands rfl head
        refine ⟨_, isBody, clean_functionBody rfl head, ?_, ?_⟩
        · rw [global]
          exact stands.kind
        · obtain ⟨added, grown⟩ := continues_checkStatements .topLevel rest
            (checkStatement .topLevel (.function identifier parameters returnType body span) s)
          rw [grown.scopes.global, Store.extend_global_of_locals_eq_nil
            (locals_eq_nil_of_isGlobal onward.level.symm),
            global_checkStatement_of_top top head, global]
          exact Bindings.within_append _ _
      | recordType => cases declares
      | _ => cases declares
    · exact ih onward clean (List.mem_filterMap.mpr ⟨other, later, declares⟩)

theorem body_of_mem_registrations (onlyGlobal : store.locals = [])
    (kind : store.global.kind = .global) (passed : (checkProgram program store).passed = true)
    {name : String} {f : FunctionSymbol}
    (registered : (name, Symbol.function f) ∈ program.registrations) :
    ∃ p : Point, p.IsBodyOf f ∧ p.Accepted ∧ p.checking.store.global.kind = .global ∧
      p.checking.store.global.symbols.Within (checkedScope program store).symbols :=
  body_of_registration (.topLevel onlyGlobal kind) (passed_iff_clean.mp passed) registered

end

end CheckedScript
