import CheckedScript.Proofs.Agreement.Filling
import CheckedScript.Proofs.Execution.Recovery

/-!
# Where null comes from

A value is missing in a field that has not been set, and after a call that has run off the end of a
function. A run that does neither, in a store that is filled, computes with values only: each of its
expressions yields one, unless its type is `void`, and no error is raised for want of a value or for
its kind (`run_misses_no_value`). What remains depends on numbers, positions and the limits of the
run.
-/

namespace CheckedScript

open Check Checking Execution Run

namespace Execution

/-- The task compares two values that have no order, because of a NaN. -/
inductive ComparesNaN : Moment → Prop
  | mk {fuel : Nat} {a : Activation} {m m₁ m₂ : Machine} {operator : BinaryOperator}
      {left right : Expression} {v w : Value} {span : Span}
      (known : evaluate fuel a left m = (.ok v, m₁))
      (known' : evaluate fuel a right m₁ = (.ok w, m₂))
      (compares : operator.isComparison = true) (nan : v.MeetsNaN w) :
      ComparesNaN ⟨fuel + 1, a, .evaluate (.binary operator left right span), m⟩

/-- The fault that the task raises is not due to the kind of a value, a NaN apart. -/
def Moment.Permits (x : Moment) : Fault → Prop
  | .divisionByZero | .indexOutOfBounds _ _ _ | .integerOverflow _ | .loopLimitExceeded _
  | .stackOverflow _ => True
  | .invalidOperation _ _ => ComparesNaN x
  | _ => False

/-- The error was raised by a task that permits it. -/
def Moment.RaisesPermitted (x : Moment) (error : RuntimeError) : Prop :=
  ∃ origin u, Reaches x origin ∧ Raises origin u ∧ origin.EndsWith error ∧
    origin.Permits error.fault

end Execution

/-! ## Faults that a check should have found -/

section

variable {a : Activation} {m m₁ : Machine} {u : Unwind} {fault : Fault} {span : Span}

theorem isStatic_of_readVariable {name : Identifier}
    (raised : readVariable a name m = (.error u, m₁)) (caused : u.fault? = some fault) :
    fault.isStatic = true := by
  rw [readVariable_apply] at raised
  split at raised <;> cases raised <;> simp only [Activation.fault?_unwinding] at caused <;>
    cases caused <;> rfl

theorem isStatic_of_readField {record field : Identifier}
    (raised : readField a record field m = (.error u, m₁)) (caused : u.fault? = some fault) :
    fault.isStatic = true := by
  rw [readField_apply] at raised
  split at raised <;> (try split at raised) <;> cases raised <;>
    simp only [Activation.fault?_unwinding] at caused <;> cases caused <;> rfl

theorem isStatic_of_calledFunction {name : Identifier}
    (raised : calledFunction a name m = (.error u, m₁)) (caused : u.fault? = some fault) :
    fault.isStatic = true := by
  rw [calledFunction_apply] at raised
  split at raised <;> cases raised <;> simp only [Activation.fault?_unwinding] at caused <;>
    cases caused <;> rfl

theorem isStatic_of_assign {name : String} {change : SymbolUpdate}
    (raised : assign a name change span m = (.error u, m₁)) (caused : u.fault? = some fault) :
    fault.isStatic = true := by
  rw [assign_apply] at raised
  split at raised
  · cases raised
  · cases raised
    rw [Activation.fault?_unwinding] at caused
    cases caused
    unfold assignmentFault
    split <;> rfl

theorem isStatic_of_internal {message : String} (same : u = .fatal ⟨.internal message, span⟩)
    (caused : u.fault? = some fault) : fault.isStatic = true := by
  subst same
  cases caused
  rfl

end

/-! ## Faults in filled stores -/

theorem permits_readElement {x : Moment} {a : Activation} {m m₁ : Machine} {name : String}
    {index : Word} {span : Span} {u : Unwind} {fault : Fault} {type : Ty} {value : Value}
    (filled : m.store.Filled) (found : m.store.lookup? name = some (.variable (.array type) value))
    (raised : readElement a name index span m = (.error u, m₁)) (caused : u.fault? = some fault) :
    x.Permits fault := by
  cases (filled.present_array found).hasType nofun with
  | array each =>
    rw [readElement_apply, found] at raised
    dsimp only at raised
    split at raised
    · cases raised
    · cases raised
      rw [Activation.fault?_unwinding] at caused
      cases caused
      trivial

section

variable {program : Program} {store : Store} {c : CheckContext} {s : Checking} {x : Moment}
  {u : Unwind} {fault : Fault} (closed : store.Closed)
  (passed : (checkProgram program store).passed = true)

include closed passed

/-- What a task raises in a filled store is permitted. -/
theorem Tracked.permits (tracked : Tracked Unrestricted program store x c s)
    (filled : x.machine.store.Filled) (safe : x.IsSafe) (raised : Raises x u)
    (caused : u.fault? = some fault) : x.Permits fault := by
  have refuted : fault.isStatic = true → x.Permits fault := fun static =>
    absurd (static.symm.trans
      (tracked.foreseen closed passed admissible_unrestricted raised caused).not_static) nofun
  have fills : FillsBelow program store x := fun entered tracked filled =>
    tracked.fills closed passed filled (entered.isSafe safe)
  have accepted := tracked.accepted closed passed
  cases raised with
  | exhausted => cases caused
  | «variable» raised | message accessor raised =>
    exact refuted (isStatic_of_readVariable raised caused)
  | field raised => exact refuted (isStatic_of_readField raised caused)
  | callee raised => exact refuted (isStatic_of_calledFunction raised caused)
  | parameters found known allowed raised =>
    obtain ⟨message, same⟩ := bindParameters_eq_error raised
    exact refuted (isStatic_of_internal same caused)
  | declaration known raised | caught caught raised =>
    obtain ⟨message, same⟩ := define_eq_error raised
    exact refuted (isStatic_of_internal same caused)
  | «instance» raised =>
    obtain ⟨message, span, same⟩ := instantiate_eq_error raised
    exact refuted (isStatic_of_internal same caused)
  | assignment known raised | fieldAssignment known raised =>
    exact refuted (isStatic_of_assign raised caused)
  | stray => exact refuted (isStatic_of_internal rfl caused)
  | escaped =>
    rw [Activation.fault?_unwinding] at caused
    cases caused
    exact refuted rfl
  | limit =>
    rw [Activation.fault?_unwinding] at caused
    cases caused
    trivial
  | refused found known forbidden =>
    rw [Activation.fault?_unwinding] at caused
    cases caused
    unfold callFault? at forbidden
    split at forbidden
    · cases forbidden
      exact refuted rfl
    · split at forbidden
      · cases forbidden
        trivial
      · cases forbidden
  | position known wrong =>
    obtain ⟨type, typed⟩ := accepted
    obtain ⟨-, fits⟩ := (fills .position (tracked.part .position trivial) filled).of_ok known
    cases (fits .int (types_index typed).1).hasType nofun
    exact absurd rfl (wrong _)
  | @element fuel a m m₁ m₂ array index w span _ known raised =>
    obtain ⟨type, typed⟩ := accepted
    obtain ⟨filled₁, -⟩ := (fills .position (tracked.part .position trivial) filled).of_ok known
    have after : Tracked Unrestricted program store ⟨fuel, a, .evaluate index, m₁⟩ c s :=
      tracked.part_after_evaluate .position known trivial
    obtain ⟨value, found⟩ := after.array typed
    exact permits_readElement filled₁ found raised caused
  | unary known refused =>
    obtain ⟨type, typed⟩ := accepted
    obtain ⟨found, operandTyped, gives⟩ := types_unary typed
    obtain ⟨-, fits⟩ := (fills .operand (tracked.part .operand trivial) filled).of_ok known
    have operandType := Present.hasType_of_unary gives (fits found operandTyped)
    rw [Activation.fault?_unwinding] at caused
    cases caused
    rcases Value.applyUnary_typed gives operandType with ⟨_, result, -⟩ | overflow
    · cases result.symm.trans refused
    · cases overflow.symm.trans refused
      trivial
  | @binary fuel a m m₁ m₂ operator left right v w _ span known undecided known' refused =>
    obtain ⟨type, typed⟩ := accepted
    obtain ⟨found, found', leftTyped, rightTyped, gives⟩ := types_binary typed
    obtain ⟨filled₁, fits⟩ := (fills .left (tracked.part .left trivial) filled).of_ok known
    have after : Tracked Unrestricted program store ⟨fuel, a, .evaluate right, m₁⟩ c s :=
      tracked.part_after_evaluate .right known trivial
    obtain ⟨-, fits'⟩ := (fills (.right known undecided) after filled₁).of_ok known'
    obtain ⟨leftType, rightType⟩ := Present.hasType_of_binary gives (fits found leftTyped)
      (fits' found' rightTyped)
    rw [Activation.fault?_unwinding] at caused
    cases caused
    rcases (Value.applyBinary_typed gives leftType rightType).2 _ refused with
      rfl | rfl | ⟨rfl, compares, nan⟩
    · trivial
    · trivial
    · exact .mk known known' compares nan
  | truth known wrong =>
    obtain ⟨-, fits⟩ := (fills .truth (tracked.part .truth trivial) filled).of_ok known
    cases (fits .bool accepted).hasType nofun
    exact absurd rfl (wrong _)

/-- An error of such a task is permitted where it was raised. -/
theorem Tracked.raisesPermitted {error : RuntimeError}
    (tracked : Tracked Unrestricted program store x c s) (filled : x.machine.store.Filled)
    (safe : x.IsSafe) (ends : x.EndsWith error) : x.RaisesPermitted error := by
  obtain ⟨origin, u, further, raised, ends', caused⟩ := exists_raises_of_endsWith ends
  obtain ⟨c', s', tracked'⟩ := tracked.reaches closed passed admissible_unrestricted further
  exact ⟨origin, u, further, raised, ends', tracked'.permits closed passed
    (tracked.filled_of_reaches closed passed filled safe further) (further.isSafe safe) raised
    caused⟩

theorem filled_afterCheck (filled : store.Filled) (limits : Limits) (clock : Clock) :
    (Moment.afterCheck limits clock program store).machine.store.Filled := by
  obtain ⟨same, -, -⟩ := scopes_checkProgram_of_passed closed.onlyGlobal passed
  refine (filled.extend fun binding registered => ?_).of_sameScopes same
  have data : binding.2.Holds Present := holds_registrations program binding registered
  obtain ⟨name, symbol⟩ := binding
  cases symbol with
  | «variable» type value => exact data
  | _ => trivial

theorem isSafe_afterCheck (functions : store.EveryFunction FunctionSymbol.IsSafe)
    (complete : Diagnostics.MissNoReturn (checkProgram program store).diagnostics)
    (unread : program.readsField = false) (limits : Limits) (clock : Clock) :
    (Moment.afterCheck limits clock program store).IsSafe := by
  refine ⟨everyFunction_checkProgram functions closed.onlyGlobal passed
    fun name f registered => ⟨isComplete_of_registrations complete registered, ?_⟩, unread⟩
  obtain ⟨statement, listed, registers⟩ := List.mem_filterMap.mp registered
  have own := Statement.readsField_of_mem listed unread
  cases statement with
  | function => cases registers; exact own
  | _ => cases registers

end

/-- A program that reads no field and whose functions all return is run in a filled store: an
expression yields a value of the type that the check has found for it, unless that is `void`. An
error, be it caught or not, is due to a number, a position or a limit of the run. -/
theorem run_misses_no_value (program : Program) (store : Store) (limits : Limits) (clock : Clock)
    (closed : store.Closed) (filled : store.Filled)
    (functions : store.EveryFunction FunctionSymbol.IsSafe)
    (passed : (checkProgram program store).passed = true)
    (complete : Diagnostics.MissNoReturn (checkProgram program store).diagnostics)
    (unread : program.readsField = false) :
    (∀ moment, Reaches (.afterCheck limits clock program store) moment →
      (∀ e, moment.task = .evaluate e →
        ∃ c s type, Visited program store ⟨c, s, .evaluate e⟩ ∧
          s.store.Agrees moment.machine.store ∧ Types s.store c e type ∧
          (type ≠ .void → ∀ v left,
            evaluate moment.fuel moment.activation e moment.machine = (.ok v, left) →
              v ≠ .null ∧ v.HasType type)) ∧
      ∀ error, moment.EndsWith error → moment.RaisesPermitted error) ∧
    ∀ error, (run limits clock program (checkProgram program store).store).result = .error error →
      (Moment.afterCheck limits clock program store).RaisesPermitted error := by
  have first := Tracked.afterCheck closed passed (holds_unrestricted store) limits clock
  have filled₀ := filled_afterCheck closed passed filled limits clock
  have safe₀ := isSafe_afterCheck closed passed functions complete unread limits clock
  refine ⟨fun moment reached => ?_, fun error stopped => ?_⟩
  · obtain ⟨c, s, tracked⟩ := first.reaches closed passed admissible_unrestricted reached
    have filled := first.filled_of_reaches closed passed filled₀ safe₀ reached
    have safe := reached.isSafe safe₀
    refine ⟨?_, fun error => tracked.raisesPermitted closed passed filled safe⟩
    have fills := tracked.fills closed passed filled safe
    obtain ⟨fuel, a, task, m⟩ := moment
    rintro e rfl
    obtain ⟨type, typed⟩ := tracked.accepted closed passed
    refine ⟨c, s, type, tracked.visited, tracked.agrees, typed, fun nonvoid v left ended => ?_⟩
    have present : v.HasType type := ((fills.of_ok ended).2 type typed).hasType nonvoid
    refine ⟨?_, present⟩
    rintro rfl
    cases present
  · exact first.raisesPermitted closed passed filled₀ safe₀ (result_eq_error_iff.mp stopped)

/-- A function that divides and recovers from a division by zero. -/
def share : FunctionSymbol where
  name := "share"
  parameters := [⟨"n", .int⟩]
  returnType := .int
  body := .mk [.attempt
    (.mk [.return (some (.binary .divide (.integer 10 default) (.identifier ⟨"n", default⟩ default)
      default)) default] default)
    (.mk [.print (.call ⟨"get_error", default⟩ [] default) default,
      .return (some (.integer 0 default)) default] default) default] default

/-- A store with a number and a function. -/
def sharing : Store :=
  Session.freshStore.extend [("limit", .variable .int (.int 0)), ("share", .function share)]

theorem mem_sharing {binding : String × Symbol} (bound : binding ∈ sharing.global.symbols) :
    binding = (errorAccessor, .variable .str .null) ∨ binding = ("limit", .variable .int (.int 0)) ∨
      binding = ("share", .function share) := by
  have listed : binding ∈ [(errorAccessor, Symbol.variable .str .null),
    ("limit", .variable .int (.int 0)), ("share", .function share)] := bound
  simpa using listed

theorem closed_sharing : sharing.Closed where
  onlyGlobal := rfl
  kind := rfl
  functions := by
    intro name f found
    rcases mem_sharing (Bindings.mem_of_find?_eq_some found) with same | same | same <;> cases same
    show Diagnostics.hasErrors (share.recheck sharing).diagnostics = false
    decide +kernel

theorem filled_sharing : sharing.Filled where
  locals := nofun
  global := by
    intro binding bound
    rcases mem_sharing bound with rfl | rfl | rfl
    · exact .inr ⟨rfl, _, rfl⟩
    · exact .inl (.inr (.int 0))
    · exact .inl trivial

theorem everyFunction_sharing : sharing.EveryFunction FunctionSymbol.IsSafe := by
  intro scope active binding bound f same
  rw [List.mem_singleton.mp active] at bound
  rcases mem_sharing bound with rfl | rfl | rfl <;> cases same
  exact ⟨.inr rfl, rfl⟩

/-- Nothing is left to share, which is recovered from, and the nothing is divided by itself. -/
def shareNothing : Program where
  statements := [
    .variable ⟨.int, false, default⟩ ⟨"x", default⟩
      (some (.call ⟨"share", default⟩ [.identifier ⟨"limit", default⟩ default] default)) default,
    .print (.binary .divide (.identifier ⟨"x", default⟩ default) (.identifier ⟨"x", default⟩ default)
      default) default]
  span := default

theorem run_misses_no_value_shareNothing :
    sharing.Closed ∧ sharing.Filled ∧ sharing.EveryFunction FunctionSymbol.IsSafe ∧
    (checkProgram shareNothing sharing).passed = true ∧
    Diagnostics.MissNoReturn (checkProgram shareNothing sharing).diagnostics ∧
    shareNothing.readsField = false ∧
    ∃ error, (run Limits.standard .still shareNothing
        (checkProgram shareNothing sharing).store).result = .error error ∧
      (Moment.afterCheck Limits.standard .still shareNothing sharing).RaisesPermitted error := by
  have passed : (checkProgram shareNothing sharing).passed = true := by decide +kernel
  have silent : (checkProgram shareNothing sharing).diagnostics = [] := by decide +kernel
  have complete : Diagnostics.MissNoReturn (checkProgram shareNothing sharing).diagnostics := by
    rw [silent]
    exact nofun
  have stopped : (run Limits.standard .still shareNothing
      (checkProgram shareNothing sharing).store).result.isOk = false := by decide +kernel
  refine ⟨closed_sharing, filled_sharing, everyFunction_sharing, passed, complete, rfl, ?_⟩
  cases ended : (run Limits.standard .still shareNothing
    (checkProgram shareNothing sharing).store).result with
  | ok last =>
    rw [ended] at stopped
    cases stopped
  | error error =>
    exact ⟨error, rfl, (run_misses_no_value shareNothing sharing Limits.standard .still
      closed_sharing filled_sharing everyFunction_sharing passed complete rfl).2 error ended⟩

/-- The fault that has stopped a run. -/
def Execution.RunResult.fault? (r : RunResult) : Option Fault :=
  match r.result with
  | .ok _ => none
  | .error error => some error.fault

/-- A store that holds a text in a variable for numbers. -/
def mistyped : Store := Session.freshStore.extend [("x", .variable .int (.str "a"))]

def increment : Program where
  statements := [.expression (.binary .add (.identifier ⟨"x", default⟩ default)
    (.integer 1 default) default) default]
  span := default

theorem mem_mistyped {binding : String × Symbol} (bound : binding ∈ mistyped.global.symbols) :
    binding = (errorAccessor, .variable .str .null) ∨ binding = ("x", .variable .int (.str "a")) := by
  have listed : binding ∈ [(errorAccessor, Symbol.variable .str .null),
    ("x", .variable .int (.str "a"))] := bound
  simpa using listed

/-- That a variable is not null does not suffice: a value of another type is refused by an operator
that is no comparison. -/
theorem mistyped_variable_is_refused :
    mistyped.Closed ∧
    (∀ name type value, (name, Symbol.variable type value) ∈ mistyped.global.symbols →
      name ≠ errorAccessor → value ≠ .null) ∧
    mistyped.EveryFunction FunctionSymbol.IsSafe ∧
    (checkProgram increment mistyped).passed = true ∧
    Diagnostics.MissNoReturn (checkProgram increment mistyped).diagnostics ∧
    increment.readsField = false ∧
    (run Limits.standard .still increment (checkProgram increment mistyped).store).fault? =
      some (.invalidOperation "+" "str and int") ∧
    ∀ operator : BinaryOperator, operator.isComparison = true → operator.symbol ≠ "+" := by
  have noFunction : ∀ binding ∈ mistyped.global.symbols, ∀ f, binding.2 ≠ .function f := by
    intro binding bound f
    rcases mem_mistyped bound with rfl | rfl <;> exact nofun
  have silent : (checkProgram increment mistyped).diagnostics = [] := by decide +kernel
  refine ⟨⟨rfl, rfl, fun name f found => ?_⟩, ?_, ?_, by decide +kernel, ?_, rfl,
    by decide +kernel, ?_⟩
  · exact absurd rfl (noFunction _ (Bindings.mem_of_find?_eq_some found) f)
  · intro name type value bound other
    rcases mem_mistyped bound with same | same <;> cases same
    · exact absurd rfl other
    · exact nofun
  · intro scope active binding bound f same
    rw [List.mem_singleton.mp active] at bound
    exact absurd same (noFunction binding bound f)
  · rw [silent]
    exact nofun
  · intro operator
    cases operator <;> decide

end CheckedScript
