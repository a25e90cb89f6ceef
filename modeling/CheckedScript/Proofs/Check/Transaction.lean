import CheckedScript.Proofs.Check.Declares
import Mathlib.Data.List.Nodup

/-!
# Checking is a transaction

A check that fails restores the scopes of the store. A check that passes leaves the functions and
record types of the program behind the names that were bound before, and nothing else: variables
and records are bound again when their declarations are executed.
-/

namespace CheckedScript

/-- The functions and record types of a program, in the order of their declarations. -/
def Program.registrations (program : Program) : Bindings Symbol :=
  program.statements.filterMap Statement.registration?

/-- The declarations that outlive a check that passes. -/
def Declarations.lasting (added : Declarations) : Declarations :=
  added.filter fun d => !d.1.atRuntime

@[simp] theorem Declarations.lasting_append (first second : Declarations) :
    lasting (first ++ second) = lasting first ++ lasting second :=
  List.filter_append ..

/-! ## Removing what was declared -/

theorem removeGlobals_locals (s : Store) (globals : List DeclaredGlobal) :
    (removeGlobals s globals).locals = s.locals := by
  unfold removeGlobals
  induction globals generalizing s with
  | nil => rfl
  | cons g rest ih => exact ih _

/-- Removing some of the names that were added to a scope leaves the others in their order. -/
theorem removeGlobals_extend {s : Store} {front : Scope} {added : Declarations}
    (global : s.global = front.extend added.bindings)
    (fresh : ∀ name ∈ added.bindings.names, name ∉ front.symbols.names)
    (distinct : added.bindings.names.Nodup) (removed : DeclaredGlobal → Bool) :
    (removeGlobals s ((added.map Prod.fst).filter removed)).global =
      front.extend (Declarations.bindings (added.filter fun d => !removed d.1)) := by
  induction added generalizing s front with
  | nil => simpa [removeGlobals] using global
  | cons d rest ih =>
    obtain ⟨g, symbol⟩ := d
    have later : g.name ∉ Bindings.names (Declarations.bindings rest) := by
      have apart : (g.name :: Bindings.names (Declarations.bindings rest)).Nodup := distinct
      exact (List.nodup_cons.mp apart).1
    have restDistinct : (Bindings.names (Declarations.bindings rest)).Nodup := by
      have apart : (g.name :: Bindings.names (Declarations.bindings rest)).Nodup := distinct
      exact (List.nodup_cons.mp apart).2
    have restFresh : ∀ name ∈ Bindings.names (Declarations.bindings rest),
        name ∉ front.symbols.names :=
      fun name inside => fresh name (List.mem_cons_of_mem _ inside)
    have headFresh : g.name ∉ front.symbols.names := fresh g.name List.mem_cons_self
    cases removes : removed g with
    | true =>
      -- The name is not bound before this binding, so no other one is removed in its place.
      have erased : (s.removeGlobal g.name).global =
          front.extend (Declarations.bindings rest) := by
        simp only [Store.removeGlobal, global, Scope.extend, Declarations.bindings, List.map_cons]
        rw [Bindings.erase_append_cons headFresh]
      have removedRest := ih erased restFresh restDistinct
      simpa [removes, removeGlobals] using removedRest
    | false =>
      have shifted : s.global =
          (front.extend [(g.name, symbol)]).extend (Declarations.bindings rest) := by
        rw [global, Scope.extend_extend]
        rfl
      have apart : ∀ name ∈ Bindings.names (Declarations.bindings rest),
          name ∉ Bindings.names (front.extend [(g.name, symbol)]).symbols := by
        intro name inside bound
        simp only [Scope.extend, Bindings.names, List.map_append, List.mem_append, List.map_cons,
          List.map_nil, List.mem_singleton] at bound
        cases bound with
        | inl early => exact restFresh name inside early
        | inr same => exact later (same ▸ inside)
      have keptRest := ih shifted apart restDistinct
      rw [List.map_cons, List.filter_cons_of_neg (by simp [removes]), keptRest,
        List.filter_cons_of_pos (by simp [removes]), Scope.extend_extend]
      rfl

/-! ## What statements register -/

/-- The functions and record types among the declarations of a statement are those that it
registers. -/
theorem Statement.lasting_declarations (statement : Statement) (store : Store) :
    (statement.declarations store).lasting.bindings = statement.registration?.toList := by
  cases statement with
  | recordInstance type name span =>
    unfold Statement.declarations
    dsimp only
    split <;> rfl
  | _ => rfl

namespace Checking

/-- What a walk over top-level statements has declared: the registrations last, and the names that
are bound again at run time do not. -/
structure Registers (s : Checking) (statements : List Statement) (t : Checking) : Prop where
  added : ∃ added : Declarations, s.Grows added t ∧
    added.lasting.bindings = statements.filterMap Statement.registration? ∧
    (∀ d ∈ added, d.1.atRuntime = true →
      ∃ statement ∈ statements, statement.runtimeName? = some d.1.name) ∧
    ∀ statement ∈ statements, ∀ name, statement.runtimeName? = some name →
      ⟨name, true⟩ ∈ added.map Prod.fst

theorem Registers.cons {s t u : Checking} {statement : Statement} {rest : List Statement}
    (head : s.Grows (statement.declarations s.store) t)
    (named : ∀ name, statement.runtimeName? = some name →
      ⟨name, true⟩ ∈ (statement.declarations s.store).map Prod.fst)
    (tail : t.Registers rest u) : s.Registers (statement :: rest) u := by
  obtain ⟨added, grown, lasting, only, names⟩ := tail.added
  refine ⟨_, head.trans grown, ?_, ?_, ?_⟩
  · rw [Declarations.lasting_append, Declarations.bindings_append, Statement.lasting_declarations,
      lasting]
    cases registration : statement.registration? <;> simp [registration]
  · intro d inside runtime
    rcases List.mem_append.mp inside with first | later
    · exact ⟨statement, List.mem_cons_self, (statement.of_declared_atRuntime first runtime).1⟩
    · obtain ⟨other, listed, named⟩ := only d later runtime
      exact ⟨other, List.mem_cons_of_mem _ listed, named⟩
  · intro other inside name runtimeName
    rw [List.map_append, List.mem_append]
    rcases List.mem_cons.mp inside with rfl | later
    · exact .inl (named name runtimeName)
    · exact .inr (names other later name runtimeName)

end Checking

theorem Check.registers_checkStatements {context : CheckContext} (statements : List Statement)
    {s : Checking} (clean : (checkStatements context statements s).Clean) :
    s.Registers statements (checkStatements context statements s) := by
  induction statements generalizing s with
  | nil =>
    unfold checkStatements
    exact ⟨[], .refl s, rfl, nofun, nofun⟩
  | cons statement rest ih =>
    unfold checkStatements at clean ⊢
    have headClean := (continues_checkStatements context rest _).clean clean
    exact (ih clean).cons (grows_declarations headClean)
      fun name => mem_declarations_of_runtimeName? headClean

/-! ## Programs -/

/-- The store of a walk over a program, before anything is removed from it. -/
theorem truncate_of_grows {store : Store} {added : Declarations} {s : Checking}
    (grown : (Checking.start store).Grows added s) (onlyGlobal : store.locals = []) :
    (s.store.truncate store.depth).global = store.global.extend added.bindings ∧
    (s.store.truncate store.depth).locals = [] ∧
    s.globals = added.map Prod.fst ∧
    ∀ name ∈ added.bindings.names, name ∉ store.global.symbols.names := by
  have fresh := grown.fresh
  have scopes := grown.scopes
  have globals := grown.globals
  simp only [Checking.start, Store.isGlobal, onlyGlobal, List.isEmpty_nil, if_true,
    List.nil_append] at globals
  simp only [Checking.start, Store.current, onlyGlobal, List.headD_nil] at fresh
  refine ⟨?_, ?_, globals, fresh⟩
  · rw [Store.truncate_global, scopes.global]
    simp [Checking.start, Store.extend, onlyGlobal]
  · rw [Store.truncate_locals, scopes.locals]
    simp [Checking.start, Store.extend, onlyGlobal]

/-- A name that is bound again at run time is not among the registrations. -/
theorem Declarations.not_mem_lasting {added : Declarations} {name : String}
    (distinct : added.bindings.names.Nodup) (inside : ⟨name, true⟩ ∈ added.map Prod.fst) :
    name ∉ added.lasting.bindings.names := by
  intro lasts
  rw [names_bindings] at distinct lasts
  obtain ⟨d, runtime, same⟩ := List.mem_map.mp inside
  obtain ⟨d', lasting, named⟩ := List.mem_map.mp lasts
  obtain ⟨present, stays⟩ := List.mem_filter.mp lasting
  have equal : d = d' := List.inj_on_of_nodup_map distinct runtime present (by rw [same, named])
  rw [← equal, same] at stays
  exact absurd stays Bool.false_ne_true

section

variable {program : Program} {store : Store}

theorem diagnostics_checkProgram :
    (checkProgram program store).diagnostics =
      (Check.checkStatements .topLevel program.statements (.start store)).diagnostics := by
  unfold checkProgram
  dsimp only
  split <;> rfl

theorem passed_iff_clean :
    (checkProgram program store).passed = true ↔
      (Check.checkStatements .topLevel program.statements (.start store)).Clean := by
  unfold checkProgram CheckResult.passed Checking.Clean
  dsimp only
  split
  · next failed => simp [failed]
  · next clean => simp [clean]

theorem sameScopes_checkProgram_of_failed (onlyGlobal : store.locals = [])
    (failed : (checkProgram program store).passed = false) :
    store.SameScopes (checkProgram program store).store := by
  obtain ⟨added, grown⟩ :=
    Check.continues_checkStatements .topLevel program.statements (.start store)
  obtain ⟨global, locals, globals, fresh⟩ := truncate_of_grows grown onlyGlobal
  -- The walk has gone on after its first error, but whatever it has declared is on the list.
  have restored := removeGlobals_extend global fresh grown.distinct fun _ => true
  rw [List.filter_true, ← globals] at restored
  have errors : ¬ (Check.checkStatements .topLevel program.statements (.start store)).Clean := by
    rw [← passed_iff_clean, failed]
    exact Bool.false_ne_true
  rw [Checking.Clean, Bool.not_eq_false] at errors
  unfold checkProgram
  dsimp only
  rw [if_pos errors]
  exact ⟨by simpa using restored, by rw [removeGlobals_locals, locals, onlyGlobal]⟩

theorem checkProgram_store_of_clean {added : Declarations} (onlyGlobal : store.locals = [])
    (clean : (Check.checkStatements .topLevel program.statements (.start store)).Clean)
    (grown : (Checking.start store).Grows added
      (Check.checkStatements .topLevel program.statements (.start store))) :
    (checkProgram program store).store.locals = [] ∧
    (checkProgram program store).store.global = store.global.extend added.lasting.bindings := by
  obtain ⟨global, locals, globals, fresh⟩ := truncate_of_grows grown onlyGlobal
  have kept := removeGlobals_extend global fresh grown.distinct (·.atRuntime)
  rw [← globals] at kept
  unfold checkProgram
  dsimp only
  rw [if_neg (Bool.eq_false_iff.mp clean)]
  exact ⟨by rw [removeGlobals_locals, locals], kept⟩

/-- A name that is bound at run time is not bound by the check. -/
theorem contains_lasting_eq_false {added : Declarations} {name : String} {s t : Checking}
    (grown : s.Grows added t) (runtime : ⟨name, true⟩ ∈ added.map Prod.fst) :
    (s.store.current.extend added.lasting.bindings).symbols.contains name = false := by
  have declared : name ∈ added.bindings.names := by
    obtain ⟨d, present, same⟩ := List.mem_map.mp runtime
    exact Declarations.names_bindings _ ▸ List.mem_map.mpr ⟨d, present, by rw [same]⟩
  rw [Bindings.contains_eq_false_iff]
  simp only [Scope.extend, Bindings.names, List.map_append, List.mem_append, not_or]
  exact ⟨grown.fresh name declared, Declarations.not_mem_lasting grown.distinct runtime⟩

/-- The store that a check leaves behind when it has passed. -/
theorem scopes_checkProgram_of_passed (onlyGlobal : store.locals = [])
    (passed : (checkProgram program store).passed = true) :
    (store.extend program.registrations).SameScopes (checkProgram program store).store ∧
      program.registrations.names.Nodup ∧
      ∀ name ∈ program.registrations.names, name ∉ store.global.symbols.names := by
  have clean := passed_iff_clean.mp passed
  obtain ⟨added, grown, lasting, -⟩ :=
    (Check.registers_checkStatements program.statements clean).added
  have listed : program.registrations.names.Sublist added.bindings.names := by
    rw [Program.registrations, ← lasting, Declarations.names_bindings, Declarations.names_bindings]
    exact List.filter_sublist.map _
  obtain ⟨-, -, -, fresh⟩ := truncate_of_grows grown onlyGlobal
  obtain ⟨locals, global⟩ := checkProgram_store_of_clean onlyGlobal clean grown
  refine ⟨⟨?_, ?_⟩, grown.distinct.sublist listed, fun name inside => ?_⟩
  · rw [Store.extend_global_of_locals_eq_nil onlyGlobal, global, lasting, Program.registrations]
  · rw [locals, Store.extend_locals_eq_nil_iff.mpr onlyGlobal]
  · exact fresh name (listed.subset inside)

theorem locals_checkProgram_of_passed (onlyGlobal : store.locals = [])
    (passed : (checkProgram program store).passed = true) :
    (checkProgram program store).store.locals = [] := by
  rw [(scopes_checkProgram_of_passed onlyGlobal passed).1.locals]
  exact Store.extend_locals_eq_nil_iff.mpr onlyGlobal

theorem global_checkProgram_of_passed (onlyGlobal : store.locals = [])
    (passed : (checkProgram program store).passed = true) :
    (checkProgram program store).store.global = store.global.extend program.registrations := by
  rw [(scopes_checkProgram_of_passed onlyGlobal passed).1.global]
  exact Store.extend_global_of_locals_eq_nil onlyGlobal _

/-- What is bound when a statement is executed is not bound by the check. -/
theorem contains_runtimeName?_eq_false (onlyGlobal : store.locals = [])
    (passed : (checkProgram program store).passed = true) {statement : Statement}
    (inside : statement ∈ program.statements) {name : String}
    (runtimeName : statement.runtimeName? = some name) :
    (checkProgram program store).store.global.symbols.contains name = false := by
  have clean := passed_iff_clean.mp passed
  obtain ⟨added, grown, -, -, names⟩ :=
    (Check.registers_checkStatements program.statements clean).added
  obtain ⟨-, global⟩ := checkProgram_store_of_clean onlyGlobal clean grown
  have fresh := contains_lasting_eq_false grown (names statement inside name runtimeName)
  rw [global]
  simpa [Checking.start, Store.current, onlyGlobal] using fresh

end

/-- A check that fails leaves the scopes as they were; one that passes adds the functions and record
types of the program, in their order, and no variable or record of it. -/
theorem checkProgram_transactional (program : Program) (store : Store)
    (onlyGlobal : store.locals = []) :
    ((checkProgram program store).passed = false →
      store.SameScopes (checkProgram program store).store) ∧
    ((checkProgram program store).passed = true →
      (checkProgram program store).store.depth = 1 ∧
      (checkProgram program store).store.global = store.global.extend program.registrations ∧
      ∀ statement ∈ program.statements, ∀ name, statement.runtimeName? = some name →
        (checkProgram program store).store.global.symbols.contains name = false) := by
  refine ⟨sameScopes_checkProgram_of_failed onlyGlobal, fun passed => ⟨?_, ?_, ?_⟩⟩
  · rw [Store.depth, locals_checkProgram_of_passed onlyGlobal passed]
    rfl
  · exact global_checkProgram_of_passed onlyGlobal passed
  · exact fun statement inside name => contains_runtimeName?_eq_false onlyGlobal passed inside

/-- A record type, a function that declares a variable of its own, a variable and a record. -/
def fourDeclarations : Program where
  statements := [
    .recordType ⟨"Point", default⟩ [⟨⟨.int, false, default⟩, ⟨"x", default⟩⟩] default,
    .function ⟨"twice", default⟩ [⟨⟨.int, false, default⟩, ⟨"n", default⟩⟩]
      (some ⟨.int, false, default⟩)
      (.mk [.variable ⟨.int, false, default⟩ ⟨"y", default⟩ none default,
        .return (some (.identifier ⟨"n", default⟩ default)) default] default) default,
    .variable ⟨.int, false, default⟩ ⟨"y", default⟩ none default,
    .recordInstance ⟨"Point", default⟩ ⟨"p", default⟩ default]
  span := default

theorem checkProgram_transactional_fourDeclarations :
    (Store.empty 0).registerBuiltins.locals = [] ∧
    (checkProgram fourDeclarations (Store.empty 0).registerBuiltins).passed = true ∧
    (checkProgram fourDeclarations (Store.empty 0).registerBuiltins).store.depth = 1 ∧
    (checkProgram fourDeclarations (Store.empty 0).registerBuiltins).store.global =
      (Store.empty 0).registerBuiltins.global.extend fourDeclarations.registrations := by
  have passed : (checkProgram fourDeclarations (Store.empty 0).registerBuiltins).passed = true := by
    decide +kernel
  obtain ⟨depth, global, -⟩ :=
    (checkProgram_transactional fourDeclarations (Store.empty 0).registerBuiltins rfl).2 passed
  exact ⟨rfl, passed, depth, global⟩

end CheckedScript
