import CheckedScript.Proofs.Agreement.Programs
import CheckedScript.Proofs.Check.Recheck
import CheckedScript.Proofs.Session.Globals
import Mathlib.Data.List.Induction

/-!
# Sequences of calls on a session

A call that fails its parse or its check leaves the functions of a session as they were. A call that
passes its check keeps its functions even if its run is stopped, while the variables and records
behind the statement that was stopped stay unbound. So the functions of a session pass their check
again, except for those that such a call has left behind with a name that it had not come to bind.
-/

namespace CheckedScript

open Check Checking Execution Store

/-! ## The scopes after a run -/

section

variable {program : Program} {store : Store} {limits : Limits} {clock : Clock} {name : String}
  {f : FunctionSymbol}

/-- What a run of a checked program leaves of the scopes. -/
theorem leaves_run (limits : Limits) (clock : Clock) (onlyGlobal : store.locals = [])
    (passed : (checkProgram program store).passed = true) :
    ∃ result m₁, Leaves (checkedScope program store) program.statements
        ⟨(checkProgram program store).store, #[], limits.deadline clock⟩ result m₁ ∧
      (run limits clock program (checkProgram program store).store).store.global = m₁.store.global ∧
      (run limits clock program (checkProgram program store).store).store.locals = [] ∧
      ((∃ last, result = .ok last) ∨ ∃ error,
        (run limits clock program (checkProgram program store).store).result = .error error) := by
  have begun := locals_checkProgram_of_passed onlyGlobal passed
  have leaves : Leaves (checkedScope program store) program.statements
      ⟨(checkProgram program store).store, #[], limits.deadline clock⟩
      (Moment.afterCheck limits clock program store).perform.1
      (Moment.afterCheck limits clock program store).perform.2 :=
    leaves_runStatements (foretells_checkedScope onlyGlobal passed) begun
      (covers_checkedScope onlyGlobal passed).1 rfl
  obtain ⟨added, -, kept⟩ := leaves.kept
  have locals := locals_eq_nil_of_kept kept begun
  refine ⟨_, _, leaves, ?_⟩
  rcases run_cases limits clock program (checkProgram program store).store with
    ⟨last, ended, -, left⟩ | ⟨error, -, stopped, left⟩
  · exact ⟨congrArg Store.global left, (congrArg Store.locals left).trans locals, .inl ⟨last, ended⟩⟩
  · refine ⟨?_, ?_, .inr ⟨error, stopped⟩⟩
    · rw [left, Store.truncate_global]
      rfl
    · rw [left, Store.truncate_locals]
      exact List.drop_eq_nil_of_le ((congrArg List.length locals).le.trans (Nat.zero_le _))

section

variable {result : Except Unwind (Option Value)} {m₁ : Machine} (onlyGlobal : store.locals = [])
  (passed : (checkProgram program store).passed = true)
  (leaves : Leaves (checkedScope program store) program.statements
    ⟨(checkProgram program store).store, #[], limits.deadline clock⟩ result m₁)

include onlyGlobal passed leaves

/-- A run adds variables and records to the names that were bound before the check and to those that
the program registers. -/
theorem outline_of_leaves : ∃ added, (∀ b ∈ added, b.2.IsData) ∧
    m₁.store.global.outline =
      ((store.global.extend program.registrations).extend added).outline := by
  obtain ⟨added, data, kept⟩ := leaves.kept
  have outline := kept.global
  rw [Store.extend_global_of_locals_eq_nil (locals_checkProgram_of_passed onlyGlobal passed),
    global_checkProgram_of_passed onlyGlobal passed] at outline
  exact ⟨added, data, outline⟩

theorem declaration?_of_leaves {declared : Symbol}
    (before : store.global.declaration? name = some declared) :
    m₁.store.global.declaration? name = some declared := by
  obtain ⟨added, -, outline⟩ := outline_of_leaves onlyGlobal passed leaves
  rw [Scope.declaration?_of_outline_eq outline, Scope.declaration?_extend,
    Scope.declaration?_extend, before, Option.some_or, Option.some_or]

/-- A function that is bound after a run was bound before the check or is one of the program. -/
theorem function_of_leaves (bound : m₁.store.global.symbols.find? name = some (.function f)) :
    store.global.symbols.find? name = some (.function f) ∨
      (name, Symbol.function f) ∈ program.registrations := by
  obtain ⟨added, data, outline⟩ := outline_of_leaves onlyGlobal passed leaves
  have declared : m₁.store.global.declaration? name = some (.function f) := by
    rw [Scope.declaration?, bound]
    rfl
  rw [Scope.declaration?_of_outline_eq outline, Scope.declaration?_extend] at declared
  rcases Option.or_eq_some_iff.mp declared with before | ⟨-, new⟩
  · obtain ⟨symbol, found, declares⟩ := Option.map_eq_some_iff.mp before
    rw [Symbol.declaration_eq_function_iff.mp declares, Scope.extend, Bindings.find?_append] at found
    exact (Option.or_eq_some_iff.mp found).imp_right fun new => Bindings.mem_of_find?_eq_some new.2
  -- What the run itself has added is data, so the name cannot stand for a function.
  · obtain ⟨symbol, found, declares⟩ := Option.map_eq_some_iff.mp new
    rw [Symbol.declaration_eq_function_iff.mp declares] at found
    exact (data _ (Bindings.mem_of_find?_eq_some found)).elim

variable {after : Store} (left : after.global = m₁.store.global) (onlyGlobal' : after.locals = [])

include left

theorem kind_of_leaves : after.global.kind = store.global.kind := by
  obtain ⟨added, -, outline⟩ := outline_of_leaves onlyGlobal passed leaves
  have kinds := Scope.kind_of_outline_eq outline
  rw [left]
  exact kinds

include onlyGlobal'

/-- A function of the store that passed its check again still does. -/
theorem clean_recheck_of_before (clean : (f.recheck store).Clean) : (f.recheck after).Clean := by
  refine clean_recheck_of_alike clean onlyGlobal onlyGlobal'
    (kind_of_leaves onlyGlobal passed leaves left) fun name free => ?_
  have bound := contains_of_clean_recheck clean onlyGlobal name free
  rw [Scope.contains_eq_isSome_declaration?] at bound
  obtain ⟨declared, found⟩ := Option.isSome_iff_exists.mp bound
  rw [left, found]
  exact declaration?_of_leaves onlyGlobal passed leaves found

/-- A function of the program passes its check again if its free names are bound. -/
theorem clean_recheck_of_registered (kind : store.global.kind = .global)
    (registered : (name, Symbol.function f) ∈ program.registrations)
    (all : ∀ name ∈ f.freeNames, after.global.symbols.contains name = true) :
    (f.recheck after).Clean := by
  obtain ⟨p, body, accepted, kind', onward⟩ := body_of_mem_registrations onlyGlobal
    kind passed registered
  refine clean_recheck_of_isBodyOf body accepted onlyGlobal' ?_ fun name free => ?_
  · rw [kind_of_leaves onlyGlobal passed leaves left, kind, kind']
  · obtain ⟨symbol, found⟩ := Option.isSome_iff_exists.mp
      (contains_of_isBodyOf body accepted name free)
    have expected : (checkedScope program store).declaration? name = some symbol.declaration := by
      rw [Scope.declaration?, show (checkedScope program store).symbols.find? name = some symbol from
        onward name symbol found]
      rfl
    have bound := all name free
    rw [Scope.contains_eq_isSome_declaration?] at bound
    obtain ⟨declared, there⟩ := Option.isSome_iff_exists.mp bound
    rw [left] at there
    -- Whatever the run has bound under this name is declared as the check had foretold.
    have same := covers_iff.mp leaves.covers name declared there
    rw [left, there, ← same, expected, Scope.declaration?, found]
    rfl

omit onlyGlobal' in
/-- What a function of the program lacks after the run is to be bound by a statement that the run has
not come to. -/
theorem runtimeName?_of_unbound (kind : store.global.kind = .global)
    (registered : (name, Symbol.function f) ∈ program.registrations) {missing : String}
    (free : missing ∈ f.freeNames) (unbound : after.global.symbols.contains missing = false) :
    (∃ statement ∈ program.statements, statement.runtimeName? = some missing) ∧
      ∀ last, result ≠ .ok last := by
  obtain ⟨p, body, accepted, kind', onward⟩ := body_of_mem_registrations onlyGlobal
    kind passed registered
  obtain ⟨symbol, found⟩ := Option.isSome_iff_exists.mp
    (contains_of_isBodyOf body accepted missing free)
  have foretold : (checkedScope program store).symbols.contains missing = true :=
    Option.isSome_of_eq_some (onward missing symbol found)
  rw [left] at unbound
  -- The check knew the name, so it was bound when the run began or a statement is to bind it.
  rcases (covers_checkedScope onlyGlobal passed).2 missing foretold with before | later
  · have kept := leaves.contains (locals_checkProgram_of_passed onlyGlobal passed) before
    cases kept.symm.trans unbound
  · refine ⟨later, fun last ended => ?_⟩
    obtain ⟨statement, inside, runtime⟩ := later
    cases (leaves.all last ended statement inside missing runtime).symm.trans unbound

end

end

/-! ## Calls -/

namespace Session

/-- A source that a session is to run, and the clock that the run goes by. -/
structure Request where
  source : String
  clock : Clock

/-- The call has passed its check and has been stopped before it came to a statement that binds a
free name of a function that it declares. -/
structure Strands (s : Session) (request : Request) (f : FunctionSymbol) : Prop where
  stopped : ∃ error output,
    (s.run request.source request.clock).1 = .error (.runtime error output)
  unbound : ∃ program, Parsing.parseProgram request.source = .ok program ∧
    (∃ name, (name, Symbol.function f) ∈ program.registrations) ∧
    ∃ statement ∈ program.statements, ∃ missing ∈ f.freeNames,
      statement.runtimeName? = some missing ∧
        (s.run request.source request.clock).2.store.global.symbols.contains missing = false

/-- Between the calls of a session only the global scope is active. -/
structure Idle (s : Session) : Prop where
  onlyGlobal : s.store.locals = []
  kind : s.store.global.kind = .global

/-- The session after these calls, one after the other. -/
def after (limits : Limits) (requests : List Request) : Session :=
  requests.foldl (fun s request => (s.run request.source request.clock).2) (start limits)

theorem after_append (limits : Limits) (earlier : List Request) (request : Request) :
    after limits (earlier ++ [request]) =
      ((after limits earlier).run request.source request.clock).2 := by
  simp [after]

/-- What a call leaves behind: the scopes as they were, or those of a run of a checked program. -/
theorem run_store_cases {s : Session} (idle : s.Idle) (source : String) (clock : Clock) :
    s.store.SameScopes (s.run source clock).2.store ∨
      ∃ program, Parsing.parseProgram source = .ok program ∧
        (checkProgram program s.store).passed = true ∧
        (s.run source clock).2.store =
          (Execution.run s.limits clock program (checkProgram program s.store).store).store ∧
        ∀ error,
          (Execution.run s.limits clock program (checkProgram program s.store).store).result =
            .error error → ∃ output, (s.run source clock).1 = .error (.runtime error output) := by
  unfold run
  cases parsed : Parsing.parseProgram source with
  | error e => exact .inl (.refl _)
  | ok program =>
    dsimp only
    cases passed : (checkProgram program s.store).passed with
    | false => exact .inl (sameScopes_checkProgram_of_failed idle.onlyGlobal passed)
    | true =>
      refine .inr ⟨program, rfl, passed, ?_, fun error stopped => ?_⟩
      · unfold runChecked
        dsimp only
        rw [if_pos rfl]
        split <;> rfl
      · unfold runChecked
        dsimp only
        rw [if_pos rfl, stopped]
        exact ⟨_, rfl⟩

theorem Idle.run {s : Session} (idle : s.Idle) (source : String) (clock : Clock) :
    (s.run source clock).2.Idle := by
  rcases run_store_cases idle source clock with same | ⟨program, -, passed, left, -⟩
  · exact ⟨same.locals.trans idle.onlyGlobal, same.global ▸ idle.kind⟩
  · obtain ⟨result, m₁, leaves, global, locals, -⟩ :=
      leaves_run s.limits clock idle.onlyGlobal passed
    rw [← left] at global locals
    exact ⟨locals, (kind_of_leaves idle.onlyGlobal passed leaves global).trans idle.kind⟩

/-- A function that is bound after a call was there before and passes its check again if it did so
before, or it is new and passes its check again unless it is stranded. -/
theorem functions_run {s : Session} (idle : s.Idle) (source : String) (clock : Clock)
    {name : String} {f : FunctionSymbol}
    (bound : (s.run source clock).2.store.global.symbols.find? name = some (.function f)) :
    (s.store.global.symbols.find? name = some (.function f) ∧
        ((f.recheck s.store).Clean → (f.recheck (s.run source clock).2.store).Clean)) ∨
      (f.recheck (s.run source clock).2.store).Clean ∨ s.Strands ⟨source, clock⟩ f := by
  rcases run_store_cases idle source clock with same | ⟨program, parsed, passed, left, stops⟩
  · rw [same.global] at bound
    refine .inl ⟨bound, fun clean => clean_recheck_of_alike clean idle.onlyGlobal ?_ ?_ ?_⟩
    · exact same.locals.trans idle.onlyGlobal
    · rw [same.global]
    · exact fun other _ => by rw [same.global]
  · obtain ⟨result, m₁, leaves, global, locals, ended⟩ :=
      leaves_run s.limits clock idle.onlyGlobal passed
    rw [← left] at global locals
    rw [global] at bound
    rcases function_of_leaves idle.onlyGlobal passed leaves bound with before | registered
    · exact .inl ⟨before, clean_recheck_of_before idle.onlyGlobal passed leaves global locals⟩
    -- The check has accepted the function, so nothing but an unbound name can be in its way.
    · by_cases all : ∀ name ∈ f.freeNames,
        (s.run source clock).2.store.global.symbols.contains name = true
      · exact .inr (.inl (clean_recheck_of_registered idle.onlyGlobal passed leaves global locals
          idle.kind registered all))
      · push Not at all
        obtain ⟨missing, free, absent⟩ := all
        rw [ne_eq, Bool.not_eq_true] at absent
        obtain ⟨⟨statement, inside, runtime⟩, unfinished⟩ := runtimeName?_of_unbound
          idle.onlyGlobal passed leaves global idle.kind registered free absent
        rcases ended with ⟨last, finished⟩ | ⟨error, stopped⟩
        · exact absurd finished (unfinished last)
        · obtain ⟨output, raised⟩ := stops error stopped
          exact .inr (.inr ⟨⟨error, output, raised⟩, program, parsed, ⟨name, registered⟩, statement,
            inside, missing, free, runtime, absent⟩)

/-- A session starts without functions. -/
theorem everyFunction_freshStore {P : FunctionSymbol → Prop} : freshStore.EveryFunction P := by
  intro scope active binding bound
  rw [List.mem_singleton.mp active] at bound
  rw [List.mem_singleton.mp bound]
  rintro f ⟨⟩

/-- A call adds no functions but those of its program. -/
theorem everyFunction_run {s : Session} {P : FunctionSymbol → Prop} (idle : s.Idle)
    (every : s.store.EveryFunction P) {source : String} {clock : Clock}
    (new : ∀ program, Parsing.parseProgram source = .ok program →
      (checkProgram program s.store).passed = true →
      ∀ name f, (name, Symbol.function f) ∈ program.registrations → P f) :
    (s.run source clock).2.store.EveryFunction P := by
  rcases run_store_cases idle source clock with same | ⟨program, parsed, passed, left, -⟩
  · exact Every.of_sameScopes every same
  · obtain ⟨result, m₁, leaves, global, locals, -⟩ :=
      leaves_run s.limits clock idle.onlyGlobal passed
    obtain ⟨added, data, kept⟩ := leaves.kept
    have checked := everyFunction_checkProgram every idle.onlyGlobal passed
      (new program parsed passed)
    -- What the run itself binds is data.
    have ran : m₁.store.EveryFunction P := EveryFunction.of_sameOutline
      (Every.extend checked fun b inside => (data b inside).no_function) kept
    intro scope active
    rw [left, global, locals] at active
    rw [List.mem_singleton.mp active]
    exact ran m₁.store.global List.mem_cons_self

/-- A function that is stranded does not pass its check again after the call. -/
theorem Strands.not_clean {s : Session} {request : Request} {f : FunctionSymbol} (idle : s.Idle)
    (strands : s.Strands request f) :
    ¬ (f.recheck (s.run request.source request.clock).2.store).Clean := by
  intro clean
  obtain ⟨program, -, -, statement, -, missing, free, -, absent⟩ := strands.unbound
  have bound := contains_of_clean_recheck clean (idle.run request.source request.clock).onlyGlobal
    missing free
  cases bound.symm.trans absent

theorem idle_start (limits : Limits) : (start limits).Idle := ⟨rfl, rfl⟩

theorem idle_after (limits : Limits) (requests : List Request) : (after limits requests).Idle := by
  induction requests using List.reverseRecOn with
  | nil => exact idle_start limits
  | append_singleton earlier request ih =>
    rw [after_append]
    exact ih.run request.source request.clock

/-- After any sequence of calls, each function passes its check again or an earlier call has stranded
it. -/
theorem recheck_or_strands (limits : Limits) (requests : List Request) {name : String}
    {f : FunctionSymbol}
    (bound : (after limits requests).store.global.symbols.find? name = some (.function f)) :
    (f.recheck (after limits requests).store).Clean ∨
      ∃ earlier request later, requests = earlier ++ request :: later ∧
        (after limits earlier).Strands request f := by
  induction requests using List.reverseRecOn with
  | nil => exact .inl (closed_freshStore.functions name f bound)
  | append_singleton earlier request ih =>
    rw [after_append] at bound ⊢
    rcases functions_run (idle_after limits earlier) _ _ bound with
      ⟨before, keeps⟩ | clean | strands
    -- No call spoils a function that it has found in the session.
    · refine (ih before).imp keeps ?_
      rintro ⟨first, stranding, later, rfl, strands⟩
      exact ⟨first, stranding, later ++ [request], by simp, strands⟩
    · exact .inl clean
    · exact .inr ⟨earlier, request, [], rfl, strands⟩

/-- A call that ends with a runtime error has come to run its program. -/
theorem program_of_stopped {s : Session} {source : String} {clock : Clock} {error : RuntimeError}
    {output : String} (stopped : (s.run source clock).1 = .error (.runtime error output)) :
    ∃ program, Parsing.parseProgram source = .ok program ∧
      (checkProgram program s.store).passed = true ∧
      (Execution.run s.limits clock program (checkProgram program s.store).store).result =
        .error error := by
  unfold run at stopped
  split at stopped
  · cases stopped
  · next program parsed =>
    dsimp only at stopped
    split at stopped
    · next passed =>
      refine ⟨program, parsed, passed, ?_⟩
      unfold runChecked at stopped
      dsimp only at stopped
      split at stopped
      · cases stopped
      · next error' ended =>
        cases stopped
        exact ended
    · cases stopped

theorem stopped_run {s : Session} {source : String} {clock : Clock} {error : RuntimeError}
    {output : String} (stopped : (s.run source clock).1 = .error (.runtime error output)) :
    ∃ program, (checkProgram program s.store).passed = true ∧
      (Execution.run s.limits clock program (checkProgram program s.store).store).result =
        .error error := by
  obtain ⟨program, -, passed, ended⟩ := program_of_stopped stopped
  exact ⟨program, passed, ended⟩

/-- After any sequence of calls, each function in the global scope passes its check again, unless an
earlier call has passed its check and was then stopped before it had bound a name that the function
uses: the function has not passed its check again right after that call. While all functions pass
their check again, a call that is accepted finds in them whatever its check has found, with the same
declaration, and raises no fault of a name, of a kind or of a type. -/
theorem functions_recheck_unless_stranded (limits : Limits) (requests : List Request) :
    (∀ name f, (after limits requests).store.global.symbols.find? name = some (.function f) →
      (f.recheck (after limits requests).store).Clean ∨
        ∃ earlier request later, requests = earlier ++ request :: later ∧
          (after limits earlier).Strands request f ∧
          ¬ (f.recheck ((after limits earlier).run request.source request.clock).2.store).Clean) ∧
    ((∀ name f, (after limits requests).store.global.symbols.find? name = some (.function f) →
        (f.recheck (after limits requests).store).Clean) →
      (∀ program, (checkProgram program (after limits requests).store).passed = true →
        ∀ clock moment, Reaches (.afterCheck (after limits requests).limits clock program
            (after limits requests).store) moment →
          ∃ c s, Visited program (after limits requests).store ⟨c, s, moment.task⟩ ∧
            ∀ name symbol, s.store.lookup? name = some symbol →
              ∃ symbol', moment.machine.store.lookup? name = some symbol' ∧
                symbol'.declaration = symbol.declaration) ∧
      ∀ source clock error output,
        ((after limits requests).run source clock).1 = .error (.runtime error output) →
          error.fault.isStatic = false) := by
  have idle := idle_after limits requests
  refine ⟨fun name f bound => ?_, fun recheck => ?_⟩
  · refine (recheck_or_strands limits requests bound).imp_right ?_
    rintro ⟨earlier, request, later, split, strands⟩
    exact ⟨earlier, request, later, split, strands, strands.not_clean (idle_after limits earlier)⟩
  · have closed : (after limits requests).store.Closed := ⟨idle.onlyGlobal, idle.kind, recheck⟩
    refine ⟨fun program passed clock moment reached => ?_,
      fun source clock error output raised => ?_⟩
    · obtain ⟨c, s, tracked⟩ := Tracked.of_afterCheck closed passed reached
      exact ⟨c, s, tracked.visited, fun name symbol found => tracked.agrees.lookup? found⟩
    · obtain ⟨program, passed, stopped⟩ := stopped_run raised
      exact isStatic_eq_false_of_run closed passed stopped

/-- A variable whose initializer is stopped, and a function that reads the variable. -/
def divisionBeforeFunction : String := "int x = 1 / 0; func f() \x7b print x; \x7d"

/-- Whether a global name is bound to a function that does not pass its check again. -/
def hasStranded (s : Session) (name : String) : Bool :=
  match s.store.global.symbols.find? name with
  | some (.function f) => Diagnostics.hasErrors (f.recheck s.store).diagnostics
  | _ => false

/-- The fault that stops the run of a source, if it is accepted and one does. -/
def runtimeFault? (s : Session) (source : String) : Option Fault :=
  match (s.run source).1 with
  | .error (.runtime error _) => some error.fault
  | _ => none

theorem function_of_divisionBeforeFunction :
    ∃ f, (after Limits.standard [⟨divisionBeforeFunction, .still⟩]).store.global.symbols.find? "f" =
        some (.function f) ∧
      ¬ (f.recheck (after Limits.standard [⟨divisionBeforeFunction, .still⟩]).store).Clean := by
  have fails :
      (after Limits.standard [⟨divisionBeforeFunction, .still⟩]).hasStranded "f" = true := by
    decide +kernel
  unfold hasStranded at fails
  split at fails
  · next f bound => exact ⟨f, bound, fun clean => by cases clean.symm.trans fails⟩
  · cases fails

theorem functions_recheck_unless_stranded_division :
    ∃ f, ¬ (f.recheck (after Limits.standard [⟨divisionBeforeFunction, .still⟩]).store).Clean ∧
      ∃ earlier request later,
        [⟨divisionBeforeFunction, .still⟩] = earlier ++ request :: later ∧
          (after Limits.standard earlier).Strands request f := by
  obtain ⟨f, bound, fails⟩ := function_of_divisionBeforeFunction
  refine ⟨f, fails, ?_⟩
  obtain ⟨earlier, request, later, split, strands, -⟩ :=
    ((functions_recheck_unless_stranded Limits.standard [⟨divisionBeforeFunction, .still⟩]).1 "f" f
      bound).resolve_left fails
  exact ⟨earlier, request, later, split, strands⟩

/-- A function can be left behind that does not pass its check again, and a call of it is accepted
and finds a variable that is not defined. -/
theorem stranded_function_is_called :
    (¬ ∀ (limits : Limits) (requests : List Request) (name : String) (f : FunctionSymbol),
      (after limits requests).store.global.symbols.find? name = some (.function f) →
        (f.recheck (after limits requests).store).Clean) ∧
    ∃ error output, ((after Limits.standard [⟨divisionBeforeFunction, .still⟩]).run "f();").1 =
        .error (.runtime error output) ∧
      error.fault = .undefinedVariable "x" := by
  constructor
  · intro all
    obtain ⟨f, bound, fails⟩ := function_of_divisionBeforeFunction
    exact fails (all Limits.standard [⟨divisionBeforeFunction, .still⟩] "f" f bound)
  · have raised : (after Limits.standard [⟨divisionBeforeFunction, .still⟩]).runtimeFault? "f();" =
        some (.undefinedVariable "x") := by decide +kernel
    unfold runtimeFault? at raised
    split at raised
    · next error output ended => exact ⟨error, output, ended, Option.some.inj raised⟩
    · cases raised

end Session

end CheckedScript
