import CheckedScript.Proofs.Check.Twins
import CheckedScript.Proofs.Execution.Outcome
import CheckedScript.Proofs.Execution.Tandem
import CheckedScript.Proofs.Session.Sequence

/-!
# Feeding a session group by group

A program can be handed to a session as a whole or in two groups of statements, one after the other.
As a whole, the functions of the second group are registered while the first one runs, and the second
one is checked against variables that no run has bound yet. Neither makes a difference
(`feed_in_groups`).
-/

namespace CheckedScript

open Check Checking Execution Run Store

/-! ## Statements one after the other -/

namespace Check

theorem checkStatements_append (c : CheckContext) (first rest : List Statement) (s : Checking) :
    checkStatements c (first ++ rest) s = checkStatements c rest (checkStatements c first s) := by
  induction first generalizing s with
  | nil => rw [List.nil_append, checkStatements]
  | cons statement first ih => rw [List.cons_append, checkStatements, checkStatements, ih]

end Check

namespace Execution

/-- A name that is not bound is a fault that a check should have found. -/
theorem isStatic_of_isAbsence {fault : Fault} (absence : fault.IsAbsence) :
    fault.isStatic = true := by
  cases fault with
  | undefinedVariable | undefinedFunction | internal => rfl
  | _ => exact absence.elim

theorem findsAll_afterCheck {program : Program} {store : Store} (limits : Limits)
    (closed : store.Closed) (passed : (checkProgram program store).passed = true) :
    (Moment.afterCheck limits clock program store).FindsAll := by
  intro y error reached ends absence
  have found := isStatic_eq_false_of_endsWith closed passed reached ends
  cases found.symm.trans (isStatic_of_isAbsence absence)

end Execution

/-! ## The checks -/

section

variable {first second whole : Program} {store : Store} {limits : Limits} {clock : Clock}
  (split : whole.statements = first.statements ++ second.statements)

include split

theorem registrations_of_split :
    whole.registrations = first.registrations ++ second.registrations := by
  rw [Program.registrations, split, List.filterMap_append]
  rfl

theorem clean_of_split (passed : (checkProgram whole store).passed = true) :
    (checkStatements .topLevel second.statements
      (checkStatements .topLevel first.statements (.start store))).Clean := by
  rw [← checkStatements_append, ← split]
  exact passed_iff_clean.mp passed

theorem passed_first (passed : (checkProgram whole store).passed = true) :
    (checkProgram first store).passed = true :=
  passed_iff_clean.mpr ((continues_checkStatements ..).clean (clean_of_split split passed))

end

/-- What a run leaves behind that is not stopped. -/
theorem leaves_run_of_ok {program : Program} {store : Store} {limits : Limits} {clock : Clock}
    {last : Option Value} (onlyGlobal : store.locals = [])
    (passed : (checkProgram program store).passed = true)
    (ended : (run limits clock program (checkProgram program store).store).result = .ok last) :
    ∃ last m₁, Leaves (checkedScope program store) program.statements
        ⟨(checkProgram program store).store, #[], limits.deadline clock⟩ (.ok last) m₁ ∧
      (run limits clock program (checkProgram program store).store).store.global = m₁.store.global ∧
      (run limits clock program (checkProgram program store).store).store.locals = [] := by
  obtain ⟨result, m₁, leaves, global, locals, ⟨last, rfl⟩ | ⟨error, stopped⟩⟩ :=
    leaves_run limits clock onlyGlobal passed
  · exact ⟨last, m₁, leaves, global, locals⟩
  · cases ended.symm.trans stopped

/-- Where a run has come to its end, what is declared is what the check of the program had
declared. -/
theorem declaresAs_run {program : Program} {store : Store} {limits : Limits} {clock : Clock}
    {last : Option Value} (onlyGlobal : store.locals = [])
    (passed : (checkProgram program store).passed = true)
    (ended : (run limits clock program (checkProgram program store).store).result = .ok last) :
    (checkStatements .topLevel program.statements (.start store)).store.DeclaresAs
      (run limits clock program (checkProgram program store).store).store := by
  obtain ⟨last', m₁, leaves, global, locals⟩ := leaves_run_of_ok onlyGlobal passed ended
  obtain ⟨added, grown⟩ :=
    continues_checkStatements .topLevel program.statements (.start store)
  have walked : (checkStatements .topLevel program.statements (.start store)).store.locals = [] := by
    rw [grown.scopes.locals]
    exact Store.extend_locals_eq_nil_iff.mpr onlyGlobal
  have declared : (checkStatements .topLevel program.statements (.start store)).store.global =
      store.global.extend added.bindings := by
    rw [grown.scopes.global]
    exact Store.extend_global_of_locals_eq_nil onlyGlobal _
  refine ⟨by rw [locals, walked], ?_, fun name => ?_⟩
  · rw [kind_of_leaves onlyGlobal passed leaves global, declared, Scope.extend_kind]
  · rw [global]
    show m₁.store.global.declaration? name = (checkedScope program store).declaration? name
    cases there : m₁.store.global.declaration? name with
    | some declared => exact (covers_iff.mp leaves.covers name declared there).symm
    | none =>
      cases known : (checkedScope program store).declaration? name with
      | none => rfl
      | some declared =>
        -- What the check had declared was kept by it, or a statement has bound it again.
        have foretold : (checkedScope program store).symbols.contains name = true := by
          rw [Scope.contains_eq_isSome_declaration?, known]
          rfl
        have bound : m₁.store.global.symbols.contains name = true := by
          rcases (covers_checkedScope onlyGlobal passed).2 name foretold with
            before | ⟨statement, inside, runtime⟩
          · exact leaves.contains (locals_checkProgram_of_passed onlyGlobal passed) before
          · exact leaves.all last' rfl statement inside name runtime
        rw [Scope.contains_eq_isSome_declaration?, there] at bound
        cases bound

/-- After a run of the first group, the check of the second one finds what it finds in the whole
program. -/
theorem diagnostics_of_split {first second whole : Program} {store : Store} {limits : Limits}
    {clock : Clock} {last : Option Value}
    (split : whole.statements = first.statements ++ second.statements)
    (passed : (checkProgram whole store).passed = true) (onlyGlobal : store.locals = [])
    (ended : (run limits clock first (checkProgram first store).store).result = .ok last) :
    (checkProgram whole store).diagnostics = (checkProgram first store).diagnostics ++
      (checkProgram second
        (run limits clock first (checkProgram first store).store).store).diagnostics := by
  have declared := declaresAs_run onlyGlobal (passed_first split passed) ended
  have twin : Twin DeclaresAs (checkStatements .topLevel first.statements (.start store)).diagnostics []
      (checkStatements .topLevel first.statements (.start store))
      (.start (run limits clock first (checkProgram first store).store).store) :=
    ⟨DeclaresAs.congruence, declared, [], (List.append_nil _).symm, rfl⟩
  obtain ⟨found, left, right⟩ :=
    (twin_checkStatements second.statements (c := .topLevel) twin).found
  rw [diagnostics_checkProgram, diagnostics_checkProgram, diagnostics_checkProgram, split,
    checkStatements_append, left, right]
  rfl

/-! ## The runs -/

/-- A run that is not stopped leaves each function with the names that it uses. -/
theorem closed_run {program : Program} {store : Store} {limits : Limits} {clock : Clock}
    {last : Option Value} (closed : store.Closed)
    (passed : (checkProgram program store).passed = true)
    (ended : (run limits clock program (checkProgram program store).store).result = .ok last) :
    (run limits clock program (checkProgram program store).store).store.Closed := by
  obtain ⟨last', m₁, leaves, global, locals⟩ := leaves_run_of_ok closed.onlyGlobal passed ended
  refine ⟨locals, ?_, fun name f bound => ?_⟩
  · rw [kind_of_leaves closed.onlyGlobal passed leaves global, closed.kind]
  · rw [global] at bound
    rcases function_of_leaves closed.onlyGlobal passed leaves bound with before | registered
    · exact clean_recheck_of_before closed.onlyGlobal passed leaves global locals
        (closed.functions name f before)
    · refine clean_recheck_of_registered closed.onlyGlobal passed leaves global locals closed.kind
        registered fun free used => ?_
      by_contra unbound
      rw [Bool.not_eq_true] at unbound
      exact (runtimeName?_of_unbound closed.onlyGlobal passed leaves global closed.kind registered
        used unbound).2 last' rfl

namespace Execution

/-- How the run of a program ends on the store that its check leaves behind. -/
def runEnd (limits : Limits) (clock : Clock) (program : Program) (store : Store) :
    Except Unwind (Option Value) × Machine :=
  (Moment.afterCheck limits clock program store).perform

/-- The fuel of that run. -/
def runFuel (limits : Limits) (program : Program) (store : Store) : Nat :=
  sufficientFuel limits program (checkProgram program store).store

section

variable {limits : Limits} {clock clock' : Clock} {program : Program} {store : Store} {more : Nat}

theorem runEnd_ne_outOfFuel : (runEnd limits clock program store).1 ≠ .error .outOfFuel :=
  not_outOfFuel_of_funded (everyFunction_codeSize program _) (funded_start limits clock program _)

/-- Of its clock a run sees no more than what it is told of its deadline. -/
theorem runEnd_congr (same : limits.deadline clock = limits.deadline clock') :
    runEnd limits clock program store = runEnd limits clock' program store := by
  unfold runEnd Moment.afterCheck Moment.start
  rw [same]

/-- More fuel does not change the end of a run. -/
theorem runStatements_eq_runEnd (enough : runFuel limits program store ≤ more) :
    runStatements more (.topLevel limits) program.statements none
      ⟨(checkProgram program store).store, #[], limits.deadline clock⟩ =
        runEnd limits clock program store :=
  extendsTo_runStatements enough _ _ _ _ runEnd_ne_outOfFuel

/-- What stops a run is an error. -/
theorem exists_endsWith {u : Unwind} (ended : (runEnd limits clock program store).1 = .error u) :
    ∃ error, ∀ x : Moment, x.UnwindsWith u → x.EndsWith error := by
  cases u with
  | recoverable error => exact ⟨error, fun x => .inl⟩
  | fatal error => exact ⟨error, fun x => .inr⟩
  | outOfFuel => exact absurd ended runEnd_ne_outOfFuel

/-- A run that is not stopped leaves the store as its last statement leaves it. -/
theorem store_run_of_ok {last : Option Value}
    (ended : (runEnd limits clock program store).1 = .ok last) :
    (run limits clock program (checkProgram program store).store).store =
      (runEnd limits clock program store).2.store := by
  rcases run_cases limits clock program (checkProgram program store).store with
    ⟨-, -, -, left⟩ | ⟨error, unwound, -⟩
  · exact left
  · rcases unwound with raised | raised <;> cases ended.symm.trans raised

end

end Execution

section

variable {first second whole : Program} {store : Store} (limits : Limits) (clock : Clock)
  (split : whole.statements = first.statements ++ second.statements)
  (passed : (checkProgram whole store).passed = true)

section

include split passed

/-- In the scope of the whole program, the functions and record types of the second group stand
behind what the first group finds there. -/
theorem shows_checkProgram (onlyGlobal : store.locals = []) :
    Shows second.registrations (checkProgram first store).store.global
      (checkProgram whole store).store.global := by
  obtain ⟨-, distinct, fresh⟩ := scopes_checkProgram_of_passed onlyGlobal passed
  rw [registrations_of_split split] at distinct fresh
  rw [global_checkProgram_of_passed onlyGlobal passed, registrations_of_split split,
    global_checkProgram_of_passed onlyGlobal (passed_first split passed), ← Scope.extend_extend]
  rw [Bindings.names, List.map_append] at distinct fresh
  refine Shows.extend_self fun name later earlier => ?_
  rcases Scope.mem_names_extend_iff.mp earlier with before | sibling
  · exact fresh name (List.mem_append_right _ later) before
  · exact (List.nodup_append.mp distinct).2.2 name sibling name later rfl

/-- The first group binds no name that the second one has registered. -/
theorem admits_first (onlyGlobal : store.locals = []) :
    ∀ name ∈ (Task.program first.statements none).binds, name ∉ second.registrations.names := by
  intro name inside new
  obtain ⟨statement, listed, runtime⟩ := List.mem_filterMap.mp inside
  have fresh := contains_runtimeName?_eq_false onlyGlobal passed
    (split ▸ List.mem_append_left _ listed) runtime
  rw [global_checkProgram_of_passed onlyGlobal passed, registrations_of_split split,
    Bindings.contains_eq_false_iff, Scope.mem_names_extend_iff] at fresh
  refine fresh (.inr ?_)
  rw [Bindings.names, List.map_append]
  exact List.mem_append_right _ new

/-- The first group does the same before the second one has been registered and after it. -/
theorem runEnd_first (closed : store.Closed) :
    ∃ m', runStatements (runFuel limits first store) (.topLevel limits) first.statements none
        ⟨(checkProgram whole store).store, #[], limits.deadline clock⟩ =
          ((runEnd limits clock first store).1, m') ∧
      (runEnd limits clock first store).2.Paired (.showing second.registrations)
        ⟨[], [], #[], #[], limits.deadline clock⟩ m' := by
  have onlyGlobal := closed.onlyGlobal
  have accepted := passed_first split passed
  have paired : (Moment.afterCheck limits clock first store).machine.Paired
      (.showing second.registrations) ⟨[], [], #[], #[], limits.deadline clock⟩
      ⟨(checkProgram whole store).store, #[], limits.deadline clock⟩ := by
    refine ⟨⟨shows_checkProgram split passed onlyGlobal, ?_⟩, ⟨#[], rfl, rfl⟩, .refl _, rfl⟩
    show Facing [] [] (checkProgram first store).store.locals (checkProgram whole store).store.locals
    rw [locals_checkProgram_of_passed onlyGlobal accepted,
      locals_checkProgram_of_passed onlyGlobal passed]
    exact .top
  obtain ⟨same, after⟩ := (findsAll_afterCheck limits closed accepted).inStep paired
    fun _ => admits_first split passed onlyGlobal
  refine ⟨_, ?_, after⟩
  rw [runEnd, ← same]
  rfl

/-- If the first group is not stopped in the store of the whole program, it is not stopped in its
own. -/
theorem exists_runEnd_first (closed : store.Closed)
    (unstopped : ∀ error,
      (run limits clock first (checkProgram whole store).store).result ≠ .error error) :
    ∃ last, (runEnd limits clock first store).1 = .ok last := by
  obtain ⟨m', begun, -⟩ := runEnd_first limits clock split passed closed
  rcases run_cases limits clock first (checkProgram whole store).store with
    ⟨last, ended, -⟩ | ⟨error, -, stopped, -⟩
  · refine ⟨last, ?_⟩
    have ends : runStatements (sufficientFuel limits first (checkProgram whole store).store)
        (.topLevel limits) first.statements none
          ⟨(checkProgram whole store).store, #[], limits.deadline clock⟩ = (.ok last, _) :=
      Prod.ext ended rfl
    exact congrArg Prod.fst (runStatements_unique begun ends runEnd_ne_outOfFuel nofun)
  · exact absurd stopped (unstopped error)

end

/-- The second group does the same after a run of the first one and in the middle of a run of the
whole, if it finds as much of the deadline before it. -/
theorem runEnd_second {m m' : Machine} {d : Deadline} (onlyGlobal : m.store.locals = [])
    (accepted : (checkProgram second m.store).passed = true)
    (paired : m.Paired (.showing second.registrations) ⟨[], [], #[], #[], d⟩ m')
    (deadline : m.deadline = limits.deadline clock) :
    ∃ left, runStatements (runFuel limits second m.store) (.topLevel limits) second.statements none
        m' = ((runEnd limits clock second m.store).1, left) ∧
      (runEnd limits clock second m.store).2.Paired (.showing [])
        ⟨[], [], #[], m'.output, limits.deadline clock⟩ left := by
  have paired' : (Moment.afterCheck limits clock second m.store).machine.Paired (.showing [])
      ⟨[], [], #[], m'.output, limits.deadline clock⟩ m' := by
    refine ⟨⟨?_, ?_⟩, ⟨#[], rfl, by simp⟩, .refl _, paired.deadline.2.trans deadline⟩
    · show Shows [] (checkProgram second m.store).store.global m'.store.global
      rw [global_checkProgram_of_passed onlyGlobal accepted]
      exact Shows.extend_more paired.store.global
    · have facing := paired.store.locals
      have onlyGlobal' := facing.eq_nil_iff.mpr onlyGlobal
      show Facing [] [] (checkProgram second m.store).store.locals m'.store.locals
      rw [locals_checkProgram_of_passed onlyGlobal accepted, onlyGlobal']
      exact .top
  have step := goesInStep (Moment.afterCheck limits clock second m.store) (.inl rfl) _ m' paired'
    fun _ _ _ => nofun
  obtain ⟨same, after⟩ := step.of_exact rfl
  refine ⟨_, ?_, after⟩
  rw [runEnd, ← same]
  rfl

variable {last : Option Value} {clock' : Clock} (closed : store.Closed)
  (ended : (runEnd limits clock first store).1 = .ok last)
  (accepted : (checkProgram second (runEnd limits clock first store).2.store).passed = true)
  (deadline : (runEnd limits clock first store).2.deadline = limits.deadline clock')

include split passed closed ended accepted deadline

/-- A run of the whole program is a run of the first group and, from there on, one of the second
group, whose clock is to go on where the first run has left off. -/
theorem runEnd_whole :
    let m := (runEnd limits clock first store).2
    ∃ m' left, m.Paired (.showing second.registrations)
        ⟨[], [], #[], #[], limits.deadline clock⟩ m' ∧
      (runEnd limits clock' second m.store).2.Paired (.showing [])
        ⟨[], [], #[], m'.output, limits.deadline clock'⟩ left ∧
      runEnd limits clock whole store =
        ((runEnd limits clock' second m.store).1.map (·.or last), left) := by
  intro m
  have onlyGlobal : m.store.locals = [] := by
    obtain ⟨-, -, -, -, locals, -⟩ :=
      leaves_run limits clock closed.onlyGlobal (passed_first split passed)
    rwa [store_run_of_ok ended] at locals
  obtain ⟨m', begun, paired⟩ := runEnd_first limits clock split passed closed
  obtain ⟨left, onward, after⟩ := runEnd_second limits clock' onlyGlobal accepted paired deadline
  refine ⟨m', left, paired, after, ?_⟩
  -- All three runs are followed on the fuel of the one that has most.
  obtain ⟨more, enough, enough', enough''⟩ : ∃ more, runFuel limits whole store ≤ more ∧
      runFuel limits first store ≤ more ∧ runFuel limits second m.store ≤ more :=
    ⟨runFuel limits whole store + runFuel limits first store + runFuel limits second m.store,
      by omega, by omega, by omega⟩
  have first' := runStatements_of_more enough' begun runEnd_ne_outOfFuel
  have second' := runStatements_of_more enough'' onward runEnd_ne_outOfFuel
  rw [← runStatements_eq_runEnd enough, split, runStatements_append, bind_apply, first', ended]
  dsimp only
  rw [runStatements_eq, bind_apply, second']
  rcases (runEnd limits clock' second m.store).1 with u | found <;> rfl

end

/-! ## Sessions -/

theorem passed_iff_diagnostics {program : Program} {store : Store} :
    (checkProgram program store).passed = true ↔
      Diagnostics.hasErrors (checkProgram program store).diagnostics = false := by
  rw [CheckResult.passed, Bool.not_eq_true']

namespace Session

/-- Checks and runs a program. -/
def feed (s : Session) (program : Program) (clock : Clock) :
    Except SessionError RunOutcome × Session :=
  let checked := checkProgram program s.store
  if checked.passed then
    let (outcome, store) := runChecked s.limits program checked.diagnostics checked.store clock
    (outcome, { s with store := store })
  else (.error (.check checked.diagnostics), { s with store := checked.store })

/-- A call parses its source and feeds the session with the program. -/
theorem run_eq_feed (s : Session) {source : String} {program : Program}
    (parsed : Parsing.parseProgram source = .ok program) (clock : Clock) :
    s.run source clock = s.feed program clock := by
  unfold run
  rw [parsed]
  rfl

/-- The lines that a program prints in this session. -/
def printed (s : Session) (program : Program) (clock : Clock) : List String :=
  (runEnd s.limits clock program s.store).2.output.toList

/-- What the session reports of a program that is not stopped, if this is its last value. -/
def outcome (s : Session) (program : Program) (clock : Clock) (last : Option Value) :
    RunOutcome where
  output := "\n".intercalate (s.printed program clock)
  lastValue := last
  warnings := (checkProgram program s.store).diagnostics

section

variable {s : Session} {program : Program} {clock : Clock}
  (passed : (checkProgram program s.store).passed = true)

include passed

theorem limits_feed : (s.feed program clock).2.limits = s.limits := by
  unfold feed
  rw [if_pos passed]

theorem store_feed :
    (s.feed program clock).2.store =
      (Execution.run s.limits clock program (checkProgram program s.store).store).store := by
  unfold feed runChecked
  rw [if_pos passed]
  dsimp only
  split <;> rfl

theorem feed_of_ok {last : Option Value}
    (ended : (runEnd s.limits clock program s.store).1 = .ok last) :
    (s.feed program clock).1 = .ok (s.outcome program clock last) := by
  unfold feed runChecked
  rw [if_pos passed]
  dsimp only
  rw [result_eq_ok_iff.mpr ended, output_run]
  rfl

theorem feed_of_error {error : RuntimeError}
    (ended : (Moment.afterCheck s.limits clock program s.store).EndsWith error) :
    (s.feed program clock).1 =
      .error (.runtime error ("\n".intercalate (s.printed program clock))) := by
  unfold feed runChecked
  rw [if_pos passed]
  dsimp only
  rw [result_eq_error_iff.mpr ended, output_run]
  rfl

end

/-- The clocks of the three runs by which a program is fed to a session: in two groups and as a
whole. -/
structure Clocks where
  first : Clock
  second : Clock
  whole : Clock

/-- Each of the runs gets the same answer whenever it asks for its deadline. -/
structure Clocks.Steady (clocks : Clocks) (limits : Limits) (expired : Bool) : Prop where
  first : limits.deadline clocks.first = .always expired
  second : limits.deadline clocks.second = .always expired
  whole : limits.deadline clocks.whole = .always expired

/-- To feed the session the first group and then the second one is to feed it the whole program. -/
structure InGroups (s : Session) (clocks : Clocks) (first second whole : Program) : Prop where
  accepted : (checkProgram first s.store).passed = true
  accepted' : (checkProgram second (s.feed first clocks.first).2.store).passed = true
  warnings : (checkProgram whole s.store).diagnostics =
    (checkProgram first s.store).diagnostics ++
      (checkProgram second (s.feed first clocks.first).2.store).diagnostics
  printed : s.printed whole clocks.whole =
    s.printed first clocks.first ++ (s.feed first clocks.first).2.printed second clocks.second
  /-- The last value is that of the second group, if that has one. -/
  ended : ∃ last, (s.feed first clocks.first).1 = .ok (s.outcome first clocks.first last) ∧
    ((∃ last', ((s.feed first clocks.first).2.feed second clocks.second).1 =
          .ok ((s.feed first clocks.first).2.outcome second clocks.second last') ∧
        (s.feed whole clocks.whole).1 = .ok (s.outcome whole clocks.whole (last'.or last))) ∨
      ∃ error,
        ((s.feed first clocks.first).2.feed second clocks.second).1 = .error (.runtime error
          ("\n".intercalate ((s.feed first clocks.first).2.printed second clocks.second))) ∧
        (s.feed whole clocks.whole).1 = .error (.runtime error
          ("\n".intercalate (s.printed whole clocks.whole))))
  bindings : ∀ name,
    ((s.feed first clocks.first).2.feed second clocks.second).2.store.global.symbols.find? name =
      (s.feed whole clocks.whole).2.store.global.symbols.find? name
  onlyGlobal : ((s.feed first clocks.first).2.feed second clocks.second).2.store.locals = [] ∧
    (s.feed whole clocks.whole).2.store.locals = []

section

variable {s : Session} {first second whole : Program} {clocks : Clocks} {expired : Bool}
  (closed : s.store.Closed) (steady : clocks.Steady s.limits expired)
  (split : whole.statements = first.statements ++ second.statements)
  (passed : (checkProgram whole s.store).passed = true)
  (unstopped : ∀ error,
    (Execution.run s.limits clocks.first first (checkProgram whole s.store).store).result ≠
      .error error)

include closed steady split passed unstopped

/-- In a session of functions that pass their check again, it makes no difference whether a program
is fed as a whole. -/
theorem inGroups_of_closed : s.InGroups clocks first second whole := by
  have onlyGlobal := closed.onlyGlobal
  have accepted := passed_first split passed
  obtain ⟨last, ended⟩ := exists_runEnd_first s.limits clocks.first split passed closed unstopped
  have warnings := diagnostics_of_split split passed onlyGlobal (result_eq_ok_iff.mpr ended)
  have limits : (s.feed first clocks.first).2.limits = s.limits := limits_feed accepted
  have store : (s.feed first clocks.first).2.store =
      (runEnd s.limits clocks.first first s.store).2.store :=
    (store_feed accepted).trans (store_run_of_ok ended)
  rw [store_run_of_ok ended, ← store] at warnings
  -- A finding of the second check is one of the whole check, so it is no error.
  have accepted' : (checkProgram second (s.feed first clocks.first).2.store).passed = true := by
    rw [passed_iff_diagnostics, warnings, Diagnostics.hasErrors_append, Bool.or_eq_false_iff] at passed
    exact passed_iff_diagnostics.mpr passed.2
  have deadline : (runEnd s.limits clocks.first first s.store).2.deadline =
      s.limits.deadline clocks.second := by
    rw [steady.second]
    exact (leadsTo_perform (.afterCheck s.limits clocks.first first s.store)).eq_always steady.first
  obtain ⟨m', left, paired, after, wholly⟩ :=
    runEnd_whole s.limits clocks.first split passed closed ended (store ▸ accepted') deadline
  rw [runEnd_congr (steady.first.trans steady.whole.symm)] at wholly
  have onward : runEnd (s.feed first clocks.first).2.limits clocks.second second
      (s.feed first clocks.first).2.store = runEnd s.limits clocks.second second
        (runEnd s.limits clocks.first first s.store).2.store := by
    rw [limits, store]
  rw [← onward] at after wholly
  refine ⟨accepted, accepted', warnings, ?_, ⟨last, feed_of_ok accepted ended, ?_⟩,
    fun name => ?_, ?_⟩
  · obtain ⟨lines, here, there⟩ := paired.output
    obtain ⟨lines', here', there'⟩ := after.output
    unfold Session.printed
    rw [wholly, here, here', there', there]
    simp
  · rcases finished : (runEnd (s.feed first clocks.first).2.limits clocks.second second
        (s.feed first clocks.first).2.store).1 with u | last'
    · have stopped : (runEnd s.limits clocks.whole whole s.store).1 = .error u := by
        rw [wholly, finished]
        rfl
      obtain ⟨error, ends⟩ := exists_endsWith stopped
      exact .inr ⟨error, feed_of_error accepted' (ends _ finished),
        feed_of_error passed (ends _ stopped)⟩
    · exact .inl ⟨last', feed_of_ok accepted' finished,
        feed_of_ok passed (by rw [wholly, finished]; rfl)⟩
  · rw [store_feed passed, store_feed accepted', global_run, global_run]
    show (runEnd (s.feed first clocks.first).2.limits clocks.second second
        (s.feed first clocks.first).2.store).2.store.global.symbols.find? name =
      (runEnd s.limits clocks.whole whole s.store).2.store.global.symbols.find? name
    rw [wholly, after.store.global.find?]
    exact (Option.or_none ..).symm
  · obtain ⟨-, -, -, -, before, -⟩ := leaves_run s.limits clocks.first onlyGlobal accepted
    rw [← store_feed accepted] at before
    obtain ⟨-, -, -, -, locals, -⟩ := leaves_run s.limits clocks.whole onlyGlobal passed
    obtain ⟨-, -, -, -, locals', -⟩ :=
      leaves_run (s.feed first clocks.first).2.limits clocks.second before accepted'
    rw [store_feed passed, store_feed accepted']
    exact ⟨locals', locals⟩

end

/-- A session all of whose programs have passed their check and have not been stopped. -/
inductive Unfailing : Session → Prop
  | start (limits : Limits) : Unfailing (start limits)
  | feed {s : Session} {program : Program} {clock : Clock} {outcome : RunOutcome}
      (before : Unfailing s) (succeeded : (s.feed program clock).1 = .ok outcome) :
      Unfailing (s.feed program clock).2

namespace Unfailing

variable {s : Session}

theorem run {source : String} {clock : Clock} {outcome : RunOutcome} (unfailing : s.Unfailing)
    (succeeded : (s.run source clock).1 = .ok outcome) : (s.run source clock).2.Unfailing := by
  cases parsed : Parsing.parseProgram source with
  | error e =>
    unfold Session.run at succeeded
    rw [parsed] at succeeded
    cases succeeded
  | ok program =>
    rw [run_eq_feed s parsed clock] at succeeded ⊢
    exact unfailing.feed succeeded

theorem closed (unfailing : s.Unfailing) : s.store.Closed := by
  induction unfailing with
  | start limits => exact closed_freshStore
  | @feed s program clock outcome before succeeded closed =>
    have passed : (checkProgram program s.store).passed = true := by
      by_contra failed
      unfold Session.feed at succeeded
      rw [if_neg failed] at succeeded
      cases succeeded
    rw [store_feed passed]
    rcases ended : (runEnd s.limits clock program s.store).1 with u | last
    · obtain ⟨error, ends⟩ := exists_endsWith ended
      cases (feed_of_error passed (ends _ ended)).symm.trans succeeded
    · exact closed_run closed passed (result_eq_ok_iff.mpr ended)

end Unfailing

/-- In a session whose runs have all succeeded, it makes no difference whether a program is fed as a
whole or in two groups of statements, as long as the first group is not stopped and no deadline
passes meanwhile: none ever does, or each has passed when its run starts. The second group passes
its check after the run of the first one, the warnings and the printed lines are those of the whole
in their order, the run ends with the same error or with the same last value, and each global name
stands for the same. -/
theorem feed_in_groups {s : Session} (unfailing : s.Unfailing) {clocks : Clocks} {expired : Bool}
    (steady : clocks.Steady s.limits expired) (first second whole : Program)
    (split : whole.statements = first.statements ++ second.statements)
    (passed : (checkProgram whole s.store).passed = true)
    (unstopped : ∀ error,
      (Execution.run s.limits clocks.first first (checkProgram whole s.store).store).result ≠
        .error error) :
    s.InGroups clocks first second whole :=
  inGroups_of_closed unfailing.closed steady split passed unstopped

/-- Prints a variable and has the next number as its value. -/
def counting : Program where
  statements := [
    .print (.identifier ⟨"n", default⟩ default) default,
    .expression (.binary .add (.identifier ⟨"n", default⟩ default) (.integer 1 default) default)
      default]
  span := default

/-- Divides the variable by zero in a function. -/
def dividing : Program where
  statements := [
    .function ⟨"divide", default⟩ [] (some ⟨.int, false, default⟩)
      (.mk [.return (some (.binary .divide (.identifier ⟨"n", default⟩ default)
        (.integer 0 default) default)) default] default) default,
    .print (.call ⟨"divide", default⟩ [] default) default]
  span := default

def countingAndDividing : Program := ⟨counting.statements ++ dividing.statements, default⟩

/-- Three runs that take no time. -/
def Clocks.still : Clocks := ⟨.still, .still, .still⟩

theorem feed_in_groups_dividing :
    ∃ s : Session, s = ((start Limits.standard).run "int n = 2;").2 ∧ s.Unfailing ∧
      Clocks.still.Steady s.limits false ∧
      (checkProgram countingAndDividing s.store).passed = true ∧
      (∀ error, (Execution.run s.limits .still counting
        (checkProgram countingAndDividing s.store).store).result ≠ .error error) ∧
      s.InGroups .still counting dividing countingAndDividing := by
  have unfailing : ((start Limits.standard).run "int n = 2;").2.Unfailing := by
    have succeeds : ((start Limits.standard).run "int n = 2;").1.isOk = true := by decide +kernel
    cases succeeded : ((start Limits.standard).run "int n = 2;").1 with
    | ok report => exact (Unfailing.start _).run succeeded
    | error failure =>
      rw [succeeded] at succeeds
      cases succeeds
  have limits : ((start Limits.standard).run "int n = 2;").2.limits = .standard := by decide +kernel
  have steady : Clocks.still.Steady ((start Limits.standard).run "int n = 2;").2.limits false := by
    rw [limits]
    exact ⟨rfl, rfl, rfl⟩
  have passed : (checkProgram countingAndDividing
      ((start Limits.standard).run "int n = 2;").2.store).passed = true := by decide +kernel
  have unstopped : ∀ error, (Execution.run ((start Limits.standard).run "int n = 2;").2.limits
      .still counting (checkProgram countingAndDividing
        ((start Limits.standard).run "int n = 2;").2.store).store).result ≠ .error error := by
    have ends : (Execution.run ((start Limits.standard).run "int n = 2;").2.limits .still counting
        (checkProgram countingAndDividing
          ((start Limits.standard).run "int n = 2;").2.store).store).result.isOk = true := by
      decide +kernel
    intro error stopped
    rw [stopped] at ends
    cases ends
  exact ⟨_, rfl, unfailing, steady, passed, unstopped,
    feed_in_groups unfailing steady counting dividing countingAndDividing rfl passed unstopped⟩

end Session

end CheckedScript
