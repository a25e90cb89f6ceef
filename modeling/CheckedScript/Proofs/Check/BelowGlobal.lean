import CheckedScript.Proofs.Check.Signatures

/-!
# Checking below the global scope

Only what is bound in the global scope is recorded and taken back. A check in a store with inner
scopes therefore leaves the names of the program behind in the innermost one, whether it passes or
not: no other scope changes, but a run on the same store cannot bind the variables and records of
the program again.
-/

namespace CheckedScript

namespace Checking

variable {s t : Checking} {name? : Option String}

/-- A single statement adds the name that it declares, or none. -/
theorem Declares.sublist (declared : s.Declares name? t) :
    ∃ added, s.Grows added t ∧ added.bindings.names.Sublist name?.toList := by
  obtain ⟨added, grown, only⟩ := declared
  refine ⟨added, grown, ?_⟩
  cases added with
  | nil => exact List.nil_sublist _
  | cons d rest =>
    have first := only d List.mem_cons_self
    cases rest with
    | nil => simp [Declarations.bindings, Bindings.names, first]
    | cons d' rest =>
      have second := only d' (List.mem_cons_of_mem _ List.mem_cons_self)
      have same : d.1.name = d'.1.name := by simpa [first] using second
      exact absurd grown.distinct (by simp [Declarations.bindings, Bindings.names, same])

/-- No walk forgets a name of the innermost scope. -/
theorem Continues.names_subset (onward : s.Continues t) :
    s.store.current.symbols.names ⊆ t.store.current.symbols.names := by
  obtain ⟨added, grown⟩ := onward
  intro name bound
  rw [grown.current]
  exact Scope.mem_names_extend_iff.mpr (.inl bound)

theorem mem_names_declare (s : Checking) (name : Identifier) (symbol : Symbol) (atRuntime : Bool) :
    name.name ∈ (s.declare name symbol atRuntime).store.current.symbols.names := by
  cases taken : s.store.current.symbols.contains name.name with
  | true =>
    rw [declare_of_taken symbol atRuntime taken]
    exact Bindings.contains_eq_true_iff.mp taken
  | false =>
    rw [(grows_declare_of_fresh symbol atRuntime taken).current]
    exact Scope.mem_names_extend_iff.mpr (.inr List.mem_cons_self)

end Checking

namespace Check

open Checking

variable {context : CheckContext} {s : Checking}

/-- Without an error, a statement binds the name that it declares. -/
theorem names_declarations {statement : Statement}
    (clean : (checkStatement context statement s).Clean) :
    (statement.declarations s.store).bindings.names = statement.declaredName?.toList := by
  cases statement with
  | recordInstance type name span =>
    unfold checkStatement recordInstance at clean
    split at clean
    · next r found => simp [Statement.declarations, found, Statement.declaredName?,
        Declarations.bindings, Bindings.names]
    · exact absurd clean (not_clean_report rfl)
  | _ => rfl

/-- The names that a walk over statements adds are declared by them, in that order. -/
theorem sublist_checkStatements (context : CheckContext) (statements : List Statement)
    (s : Checking) :
    ∃ added, s.Grows added (checkStatements context statements s) ∧
      added.bindings.names.Sublist (statements.filterMap Statement.declaredName?) := by
  induction statements generalizing s with
  | nil =>
    unfold checkStatements
    exact ⟨[], .refl s, List.nil_sublist _⟩
  | cons statement rest ih =>
    unfold checkStatements
    obtain ⟨first, grown, listed⟩ := (declares_checkStatement context statement s).sublist
    obtain ⟨later, grown', listed'⟩ := ih (checkStatement context statement s)
    refine ⟨first ++ later, grown.trans grown', ?_⟩
    have both := listed.append listed'
    rw [Declarations.bindings_append]
    cases declared : statement.declaredName? <;>
      simpa [Bindings.names, declared] using both

/-- Without an error, all of the declared names are added. -/
theorem names_checkStatements (statements : List Statement)
    (clean : (checkStatements context statements s).Clean) :
    ∃ added, s.Grows added (checkStatements context statements s) ∧
      added.bindings.names = statements.filterMap Statement.declaredName? := by
  induction statements generalizing s with
  | nil =>
    unfold checkStatements
    exact ⟨[], .refl s, rfl⟩
  | cons statement rest ih =>
    unfold checkStatements at clean ⊢
    have headClean := (continues_checkStatements context rest _).clean clean
    have named := names_declarations headClean
    obtain ⟨later, grown, names⟩ := ih clean
    refine ⟨_, (grows_declarations headClean).trans grown, ?_⟩
    rw [Declarations.bindings_append, Bindings.names, List.map_append, ← Bindings.names,
      ← Bindings.names, named, names]
    cases declared : statement.declaredName? <;> simp [declared]

/-- The names that a walk adds, with errors or without. -/
theorem declared_checkStatements (context : CheckContext) (statements : List Statement)
    (s : Checking) :
    ∃ added, s.Grows added (checkStatements context statements s) ∧
      added.bindings.names.Sublist (statements.filterMap Statement.declaredName?) ∧
      ((checkStatements context statements s).Clean →
        added.bindings.names = statements.filterMap Statement.declaredName?) := by
  by_cases clean : (checkStatements context statements s).Clean
  · obtain ⟨added, grown, names⟩ := names_checkStatements statements clean
    exact ⟨added, grown, names ▸ .refl _, fun _ => names⟩
  · obtain ⟨added, grown, listed⟩ := sublist_checkStatements context statements s
    exact ⟨added, grown, listed, fun clean' => absurd clean' clean⟩

/-- A variable is bound after the walk, with or without an error. -/
theorem mem_names_of_variable {type : TypeName} {name : Identifier}
    {initializer : Option Expression} {span : Span} {statements : List Statement}
    (inside : .variable type name initializer span ∈ statements) (s : Checking) :
    name.name ∈ (checkStatements context statements s).store.current.symbols.names := by
  induction statements generalizing s with
  | nil => cases inside
  | cons statement rest ih =>
    unfold checkStatements
    rcases List.mem_cons.mp inside with rfl | later
    · refine (continues_checkStatements context rest _).names_subset ?_
      unfold checkStatement declaration
      cases initializer <;> exact mem_names_declare ..
    · exact ih later _

end Check

section

variable {program : Program} {store : Store} {added : Declarations}

/-- Below the global scope the names that a walk has added stay in the innermost scope. -/
theorem scopes_checkProgram_of_grows (below : store.locals ≠ [])
    (grown : (Checking.start store).Grows added
      (Check.checkStatements .topLevel program.statements (.start store))) :
    (checkProgram program store).store.global = store.global ∧
      (checkProgram program store).store.locals =
        store.current.extend added.bindings :: store.locals.tail := by
  obtain ⟨global, locals⟩ := grown.scopes
  rw [Checking.start, Store.extend_global_of_locals_ne_nil below] at global
  rw [checkProgram_store_of_nested below, Store.truncate_global, Store.truncate_locals, grown.depth]
  refine ⟨global, ?_⟩
  rw [locals]
  obtain ⟨outermost, scopes, nextId, history⟩ := store
  cases scopes with
  | nil => exact absurd rfl below
  | cons scope outer => simp [Checking.start, Store.extend, Store.current, Store.depth]

end

/-- Below the global scope a check changes no scope but the innermost, passed or not. There it adds
names that the program declares, in their order, and takes none of them back: a variable stays bound
after a failed check too, and after one that has passed all of them do, so that a run on the same
store cannot bind them. -/
theorem checkProgram_below_global (program : Program) (store : Store) (below : 1 < store.depth) :
    (checkProgram program store).store.global = store.global ∧
    ∃ added : Bindings Symbol,
      (checkProgram program store).store.locals =
        store.current.extend added :: store.locals.tail ∧
      added.names.Nodup ∧
      (∀ name ∈ added.names, name ∉ store.current.symbols.names) ∧
      added.names.Sublist (program.statements.filterMap Statement.declaredName?) ∧
      (∀ type name initializer span,
        .variable type name initializer span ∈ program.statements →
          name.name ∈ (store.current.extend added).symbols.names) ∧
      ((checkProgram program store).passed = true →
        added.names = program.statements.filterMap Statement.declaredName? ∧
        ∀ statement ∈ program.statements, ∀ name, statement.runtimeName? = some name →
          ∀ symbol, (checkProgram program store).store.define name symbol =
            .error (.duplicateDefinition name store.current.name)) := by
  have nested : store.locals ≠ [] := by
    intro top
    simp [Store.depth, top] at below
  obtain ⟨added, grown, listed, complete⟩ :=
    Check.declared_checkStatements .topLevel program.statements (.start store)
  obtain ⟨global, locals⟩ := scopes_checkProgram_of_grows nested grown
  have current : (checkProgram program store).store.current =
      store.current.extend added.bindings := by
    rw [Store.current, locals, List.headD_cons]
  refine ⟨global, added.bindings, locals, grown.distinct, grown.fresh, listed, ?_, ?_⟩
  · intro type name initializer span inside
    have grows : (Check.checkStatements .topLevel program.statements (.start store)).store.current =
        store.current.extend added.bindings := grown.current
    rw [← grows]
    exact Check.mem_names_of_variable inside (.start store)
  · intro passed
    have names := complete (passed_iff_clean.mp passed)
    refine ⟨names, fun statement inside name runtimeName symbol => ?_⟩
    have declared : statement.declaredName? = some name := by
      cases statement <;> cases runtimeName <;> rfl
    have added : name ∈ added.bindings.names :=
      names ▸ List.mem_filterMap.mpr ⟨statement, inside, declared⟩
    have taken : (checkProgram program store).store.current.symbols.contains name = true := by
      rw [Bindings.contains_eq_true_iff, current]
      exact Scope.mem_names_extend_iff.mpr (.inr added)
    rw [Store.define_of_taken symbol taken, current]
    rfl

/-- A store with a scope inside the global one. -/
def insideBlock : Store := (Store.empty 0).push "body" .block

/-- A variable and a function. -/
def variableAndFunction : Program where
  statements := [
    .variable ⟨.int, false, default⟩ ⟨"x", default⟩ none default,
    .function ⟨"f", default⟩ [] none (.mk [] default) default]
  span := default

/-- A variable with an initializer that is not declared. -/
def undeclaredInitializer : Program where
  statements := [.variable ⟨.int, false, default⟩ ⟨"y", default⟩
    (some (.identifier ⟨"z", default⟩ default)) default]
  span := default

theorem checkProgram_below_global_variableAndFunction :
    1 < insideBlock.depth ∧
    (checkProgram variableAndFunction insideBlock).passed = true ∧
    ∃ added : Bindings Symbol, added.names = ["x", "f"] ∧
      (checkProgram variableAndFunction insideBlock).store.locals =
        [insideBlock.current.extend added] := by
  have passed : (checkProgram variableAndFunction insideBlock).passed = true := by decide +kernel
  obtain ⟨-, added, locals, -, -, -, -, complete⟩ :=
    checkProgram_below_global variableAndFunction insideBlock (by decide)
  exact ⟨by decide, passed, added, (complete passed).1, locals⟩

/-- In a store with an inner scope, neither does a check that fails restore the scopes, nor does one
that passes take back the variables of the program. -/
theorem checkProgram_keeps_locals :
    1 < insideBlock.depth ∧
    ((checkProgram undeclaredInitializer insideBlock).passed = false ∧
      ¬ insideBlock.SameScopes (checkProgram undeclaredInitializer insideBlock).store) ∧
    ((checkProgram variableAndFunction insideBlock).passed = true ∧
      (checkProgram variableAndFunction insideBlock).store.current.symbols.contains "x" = true ∧
      ((checkProgram variableAndFunction insideBlock).store.define "x"
        (.variable .int (.int 0))).isOk = false) := by
  refine ⟨by decide, ⟨by decide +kernel, fun same => ?_⟩, by decide +kernel, by decide +kernel,
    by decide +kernel⟩
  have unbound : (checkProgram undeclaredInitializer insideBlock).store.current.symbols.contains "y"
      = insideBlock.current.symbols.contains "y" := by rw [same.current]
  exact absurd unbound (by decide +kernel)

end CheckedScript
