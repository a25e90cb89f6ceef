import CheckedScript.Proofs.Agreement.Faults
import CheckedScript.Proofs.Execution.Fuel
import CheckedScript.Proofs.Value.Operation
import CheckedScript.Session

/-!
# Programs that have passed their check

A run of a program against the store that its check leaves behind is tracked from its first moment
on. What the check says about the names and the control flow of a program is true of every task that
the run comes to, be it in a function that an earlier program has left or under the guard of a
`try`.
-/

namespace CheckedScript

open Check Checking Execution

variable {V : Ty → Value → Prop} {program : Program} {store : Store}

theorem holds_registrations (program : Program) :
    ∀ binding ∈ program.registrations, binding.2.Holds V := by
  intro binding inside
  obtain ⟨statement, -, registered⟩ := List.mem_filterMap.mp inside
  cases statement with
  | function | recordType =>
    cases registered
    trivial
  | _ => cases registered

/-- A check that passes adds the functions of the program to the store. -/
theorem everyFunction_checkProgram {P : FunctionSymbol → Prop} (every : store.EveryFunction P)
    (onlyGlobal : store.locals = []) (passed : (checkProgram program store).passed = true)
    (new : ∀ name f, (name, Symbol.function f) ∈ program.registrations → P f) :
    (checkProgram program store).store.EveryFunction P := by
  obtain ⟨same, -, -⟩ := scopes_checkProgram_of_passed onlyGlobal passed
  refine (Store.Every.extend every ?_).of_sameScopes same
  rintro ⟨name, symbol⟩ registered f rfl
  exact new name f registered

/-- The first moment of a run against the store that the check leaves behind. -/
def Execution.Moment.afterCheck (limits : Limits) (clock : Clock) (program : Program)
    (store : Store) : Moment :=
  .start (sufficientFuel limits program (checkProgram program store).store) limits clock program
    (checkProgram program store).store

/-- The first moment of a run is tracked by the start of the check. -/
theorem Tracked.afterCheck (closed : store.Closed)
    (passed : (checkProgram program store).passed = true) (holds : store.Holds V)
    (limits : Limits) (clock : Clock) :
    Tracked V program store (.afterCheck limits clock program store) .topLevel (.start store) := by
  obtain ⟨same, distinct, fresh⟩ := scopes_checkProgram_of_passed closed.onlyGlobal passed
  have global := global_checkProgram_of_passed closed.onlyGlobal passed
  have locals := locals_checkProgram_of_passed closed.onlyGlobal passed
  refine ⟨.start, ⟨?_, ?_⟩, ?_, ?_, ?_⟩
  · show Follows store.locals (checkProgram program store).store.locals
    rw [closed.onlyGlobal, locals]
    exact .top
  · intro name symbol found
    refine ⟨symbol, ?_, rfl⟩
    show (checkProgram program store).store.global.symbols.find? name = some symbol
    rw [global]
    exact Bindings.within_append _ _ name symbol found
  · exact (Store.Every.extend holds (holds_registrations program)).of_sameScopes same
  · intro b inside
    show (checkProgram program store).store.global.symbols.find? b.1 = some b.2
    have free := Bindings.find?_eq_none_iff.mpr (fresh b.1 (List.mem_map_of_mem inside))
    rw [global, Scope.extend, Bindings.find?_append, free, Option.none_or]
    exact Bindings.find?_of_mem distinct inside
  · intro name bound
    exact global ▸ bound

/-- Nothing that is foreseen is a fault that a check should have found. -/
theorem Foreseen.not_static {x : Moment} {fault : Fault} (foreseen : Foreseen V x fault) :
    fault.isStatic = false := by
  cases foreseen with
  | unary known gives fits refused =>
    rcases Value.applyUnary_eq_error refused with rfl | rfl <;> rfl
  | binary known known' gives fits fits' refused =>
    rcases Value.applyBinary_eq_error refused with rfl | rfl | rfl <;> rfl
  | _ => rfl

/-- The relation that allows every value for every type. -/
def Unrestricted : Ty → Value → Prop := fun _ _ => True

theorem admissible_unrestricted : Admissible Unrestricted where
  null _ := trivial
  initial _ := trivial
  int _ := trivial
  float _ := trivial
  str _ := trivial
  char _ := trivial
  bool _ := trivial
  numbers _ := trivial
  chars _ := trivial
  strs _ := trivial
  element _ _ _ _ _ := trivial
  unary _ _ _ _ _ _ _ _ _ := trivial
  binary _ _ _ _ _ _ _ _ _ _ _ _ := trivial

theorem holds_unrestricted (store : Store) : store.Holds Unrestricted := by
  rintro scope - ⟨name, symbol⟩ -
  cases symbol with
  | recordInstance r => exact fun _ _ => trivial
  | _ => trivial

/-- A session starts with a closed store. -/
theorem closed_freshStore : Session.freshStore.Closed where
  onlyGlobal := rfl
  kind := rfl
  functions := by
    intro name f found
    have builtin : (name, Symbol.function f) ∈ [(errorAccessor, Symbol.variable .str .null)] :=
      Bindings.mem_of_find?_eq_some found
    simp at builtin

section

variable {limits : Limits} {clock : Clock} {moment : Moment} {error : RuntimeError}
  (closed : store.Closed) (passed : (checkProgram program store).passed = true)

include closed passed

theorem Tracked.of_afterCheck (reached : Reaches (.afterCheck limits clock program store) moment) :
    ∃ c s, Tracked Unrestricted program store moment c s :=
  (Tracked.afterCheck closed passed (holds_unrestricted store) limits clock).reaches closed passed
    admissible_unrestricted reached

/-- No fault that a check should have found is raised, wherever a run has come to. -/
theorem isStatic_eq_false_of_endsWith
    (reached : Reaches (.afterCheck limits clock program store) moment)
    (ends : moment.EndsWith error) : error.fault.isStatic = false := by
  obtain ⟨origin, u, further, raised, -, caused⟩ := exists_raises_of_endsWith ends
  obtain ⟨c, s, tracked⟩ := Tracked.of_afterCheck closed passed (reached.trans further)
  exact (tracked.foreseen closed passed admissible_unrestricted raised caused).not_static

theorem isStatic_eq_false_of_run
    (stopped :
      (run limits clock program (checkProgram program store).store).result = .error error) :
    error.fault.isStatic = false := by
  rcases run_cases limits clock program (checkProgram program store).store with
    ⟨last, -, ended, -⟩ | ⟨error', ends, ended, -⟩
  · cases ended.symm.trans stopped
  · cases ended.symm.trans stopped
    exact isStatic_eq_false_of_endsWith closed passed (.refl _) ends

end

/-- Whatever a run of a checked program comes to, the check has come to it before and has found no
error there. Each name that it has resolved there stands for a symbol of the same kind, with the
same type or signature, in the store of the run. Control leaves a part of the program only for a
construct around it that is to take it up, and no loop is left by a signal that it takes up itself.
So no fault of a name, of a kind, of a number of arguments or of the control flow is raised, be it
caught or not. -/
theorem run_agrees_with_check (program : Program) (store : Store) (limits : Limits) (clock : Clock)
    (closed : store.Closed) (passed : (checkProgram program store).passed = true) :
    (∀ moment, Reaches (.afterCheck limits clock program store) moment →
      (∃ c s, Visited program store ⟨c, s, moment.task⟩ ∧ Point.Accepted ⟨c, s, moment.task⟩ ∧
        (∀ name symbol, s.store.lookup? name = some symbol →
          ∃ symbol', moment.machine.store.lookup? name = some symbol' ∧
            symbol'.declaration = symbol.declaration) ∧
        ∀ result left, moment.perform = (.ok result, left) →
          Task.Fits Unrestricted c s moment.task result left) ∧
      ∀ error, moment.EndsWith error → error.fault.isStatic = false) ∧
    ∀ error, (run limits clock program (checkProgram program store).store).result = .error error →
      error.fault.isStatic = false := by
  refine ⟨fun moment reached => ⟨?_, fun error => ?_⟩, fun error => ?_⟩
  · obtain ⟨c, s, tracked⟩ := Tracked.of_afterCheck closed passed reached
    refine ⟨c, s, tracked.visited, tracked.accepted closed passed, ?_, ?_⟩
    · exact fun name symbol found => tracked.agrees.lookup? found
    · intro result left ended
      exact ((tracked.sound closed passed admissible_unrestricted).of_ok ended).2
  · exact isStatic_eq_false_of_endsWith closed passed reached
  · exact isStatic_eq_false_of_run closed passed

/-- A function with a loop that is left at once, called by a `try` that catches its division by
zero. -/
def recoveredDivision : Program where
  statements := [
    .function ⟨"share", default⟩ [⟨⟨.int, false, default⟩, ⟨"n", default⟩⟩]
      (some ⟨.int, false, default⟩)
      (.mk [.while (.boolean true default) (.mk [.break default] default) default,
        .return (some (.binary .divide (.integer 10 default) (.identifier ⟨"n", default⟩ default)
          default)) default] default) default,
    .variable ⟨.int, false, default⟩ ⟨"x", default⟩ none default,
    .attempt
      (.mk [.assignment ⟨"x", default⟩ (.call ⟨"share", default⟩ [.integer 0 default] default)
        default] default)
      (.mk [.print (.call ⟨"get_error", default⟩ [] default) default] default) default]
  span := default

theorem run_agrees_with_check_recoveredDivision :
    Session.freshStore.Closed ∧
    (checkProgram recoveredDivision Session.freshStore).passed = true ∧
    ∀ error, (run Limits.standard .still recoveredDivision
      (checkProgram recoveredDivision Session.freshStore).store).result = .error error →
        error.fault.isStatic = false := by
  have passed : (checkProgram recoveredDivision Session.freshStore).passed = true := by
    decide +kernel
  exact ⟨closed_freshStore, passed, (run_agrees_with_check recoveredDivision Session.freshStore
    Limits.standard .still closed_freshStore passed).2⟩

end CheckedScript
