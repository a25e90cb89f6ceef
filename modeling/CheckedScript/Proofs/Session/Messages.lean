import CheckedScript.Proofs.Agreement.Recoveries
import CheckedScript.Proofs.Session.Sequence

/-!
# Messages in a session

Between the calls of a session the error accessor is bound to no message, whatever the calls were and
however they ended. In a run, whatever the check has typed as the error accessor reads the message of
the error that was caught by the innermost recover block around it in its function
(`message_of_innermost_recovery`). The functions that a run calls may come from earlier calls: what
counts is where the check of that call had come to their bodies.
-/

namespace CheckedScript

open Check Checking Execution Store

/-! ## Where a check comes to the body of a function -/

namespace Check

/-- The check of the program against the store comes to the body of the function here. -/
structure BodyIn (program : Program) (store : Store) (f : FunctionSymbol) (p : Point) : Prop where
  comes : Relation.ReflTransGen Walks (.start program store) p
  body : p.IsBodyOf f

section

variable {program : Program} {store : Store} {p : Point} {name : String} {f : FunctionSymbol}

theorem Point.Placed.start (onlyGlobal : store.locals = []) (kind : store.global.kind = .global) :
    (Point.start program store).Placed := by
  have top : store.isGlobal = true := by simp [Store.isGlobal, onlyGlobal]
  exact ⟨.topLevel onlyGlobal kind, by rintro _ ⟨⟩, fun _ _ _ => top⟩

/-- All that a check without an error comes to is accepted and stands where it belongs. -/
theorem accepted_of_comes {begun : Point} (accepted : begun.Accepted) (placed : begun.Placed)
    (comes : Relation.ReflTransGen Walks begun p) : p.Accepted ∧ p.Placed := by
  induction comes with
  | refl => exact ⟨accepted, placed⟩
  | tail _ walks ih => exact ⟨walks.accepted ih.1, walks.placed ih.1 ih.2⟩

theorem BodyIn.checkedAt (body : BodyIn program store f p) (onlyGlobal : store.locals = [])
    (kind : store.global.kind = .global) (passed : (checkProgram program store).passed = true) :
    f.CheckedAt p := by
  have begins : (Point.start program store).Accepted := passed_iff_clean.mp passed
  obtain ⟨accepted, placed⟩ := accepted_of_comes begins (.start onlyGlobal kind) body.comes
  exact ⟨body.body, accepted, placed.stands.kind⟩

/-- The check of statements comes to the body of each function that they declare. -/
theorem exists_body_of_registration {statements : List Statement} {s : Checking}
    (stands : CheckContext.topLevel.Stands s.store)
    (clean : (checkStatements .topLevel statements s).Clean)
    (registered : (name, Symbol.function f) ∈ statements.filterMap Statement.registration?) :
    ∃ p, Relation.ReflTransGen Walks ⟨.topLevel, s, .program statements none⟩ p ∧ p.IsBodyOf f := by
  induction statements generalizing s with
  | nil => cases registered
  | cons statement rest ih =>
    unfold checkStatements at clean
    have head : (checkStatement .topLevel statement s).Clean :=
      (continues_checkStatements ..).clean clean
    obtain ⟨other, inside, declares⟩ := List.mem_filterMap.mp registered
    rcases List.mem_cons.mp inside with rfl | later
    · cases other with
      | function identifier parameters returnType body span =>
        cases declares
        obtain ⟨isBody, -⟩ := isBodyOf_of_clean stands rfl head
        exact ⟨_, .head .topStatement (.single (.declared rfl)), isBody⟩
      | recordType => cases declares
      | _ => cases declares
    · obtain ⟨p, comes, body⟩ := ih (stands_checkStatement stands head) clean
        (List.mem_filterMap.mpr ⟨other, later, declares⟩)
      exact ⟨p, .head .afterTop comes, body⟩

theorem exists_bodyIn (onlyGlobal : store.locals = []) (kind : store.global.kind = .global)
    (passed : (checkProgram program store).passed = true)
    (registered : (name, Symbol.function f) ∈ program.registrations) :
    ∃ p, BodyIn program store f p := by
  obtain ⟨p, comes, body⟩ := exists_body_of_registration (.topLevel onlyGlobal kind)
    (passed_iff_clean.mp passed) registered
  exact ⟨p, comes, body⟩

end

end Check

/-! ## One run -/

section

variable {program : Program} {store : Store} {bodies : FunctionSymbol → Point → Prop}
  {limits : Limits}

/-- The global scope of a store holds the message of no error. -/
def Store.HoldsNone (s : Store) : Prop :=
  s.global.symbols.find? errorAccessor = some (.variable .str .null)

variable (onlyGlobal : store.locals = []) (kind : store.global.kind = .global)
  (passed : (checkProgram program store).passed = true)

include onlyGlobal kind passed

/-- A run of a checked program starts attuned to the start of the check. -/
theorem Attuned.afterCheck (holdsNone : store.HoldsNone)
    (functions : store.EveryFunction fun f => ∃ p, bodies f p) (limits : Limits) (clock : Clock) :
    Attuned (fun f p => bodies f p ∨ BodyIn program store f p)
      (.afterCheck limits clock program store) (.start program store) none := by
  have global := global_checkProgram_of_passed onlyGlobal passed
  have locals := locals_checkProgram_of_passed onlyGlobal passed
  refine ⟨rfl, passed_iff_clean.mp passed, .start onlyGlobal kind, ?_, ?_, ?_, ?_⟩
  · refine everyFunction_checkProgram (fun scope active binding bound f same => ?_) onlyGlobal passed
      fun name f registered => ?_
    · obtain ⟨p, body⟩ := functions scope active binding bound f same
      exact ⟨p, .inl body⟩
    · obtain ⟨p, body⟩ := exists_bodyIn onlyGlobal kind passed registered
      exact ⟨p, .inr body⟩
  · intro scope active holds
    change scope ∈ (checkProgram program store).store.global ::
      (checkProgram program store).store.locals at active
    rw [locals, List.mem_singleton] at active
    subst active
    refine ⟨.null, ?_⟩
    rw [global, Scope.extend, Bindings.find?_append,
      show store.global.symbols.find? errorAccessor = _ from holdsNone, Option.some_or]
  · show Store.marks (checkProgram program store).store.locals = Store.marks store.locals
    rw [locals, onlyGlobal]
  · show heldMessage? (checkProgram program store).store.locals = none
    rw [locals]
    rfl

/-- A run leaves the global scope without a message, however it ends. -/
theorem holdsNone_run (holdsNone : store.HoldsNone)
    (functions : store.EveryFunction fun f => ∃ p, bodies f p)
    (checked : ∀ f p, bodies f p → f.CheckedAt p) :
    (run limits clock program (checkProgram program store).store).store.HoldsNone := by
  have attuned := Attuned.afterCheck onlyGlobal kind passed holdsNone functions limits clock
  have spares := attuned.spares fun f p body =>
    body.elim (checked f p) fun inside => inside.checkedAt onlyGlobal kind passed
  have global := global_checkProgram_of_passed onlyGlobal passed
  have same := (spares attuned.shielded).global
  have holds : (checkProgram program store).store.global.kind.holdsMessage = true := by
    rw [global, Scope.extend_kind, kind]
    rfl
  unfold Store.HoldsNone
  rw [global_run]
  refine (Scope.find?_of_held_eq same holds).trans ?_
  show (checkProgram program store).store.global.symbols.find? errorAccessor = _
  rw [global, Scope.extend, Bindings.find?_append,
    show store.global.symbols.find? errorAccessor = _ from holdsNone, Option.some_or]

omit onlyGlobal kind passed in
/-- A task that a run comes to has fuel. -/
theorem fuel_pos_of_reaches {x : Moment}
    (reached : Reaches (.afterCheck limits clock program store) x) : 0 < x.fuel := by
  have funded := reached.funded (everyFunction_codeSize program _)
    (funded_start limits clock program _)
  have needed := Task.need_pos x.activation.limits.maxIterations x.activation.limits.maxIterations
    x.task
  unfold Moment.Funded at funded
  omega

end

/-! ## Calls -/

namespace Session

/-- A call on a session. -/
inductive Call where
  | run (source : String) (clock : Clock)
  | check (source : String)
  | clear

/-- What a call makes of a session; a check only reports. -/
def Call.apply (s : Session) : Call → Session
  | .run source clock => (s.run source clock).2
  | .check _ => s
  | .clear => s.clear

def afterCalls (limits : Limits) (calls : List Call) : Session :=
  calls.foldl Call.apply (start limits)

theorem afterCalls_append (limits : Limits) (earlier : List Call) (call : Call) :
    afterCalls limits (earlier ++ [call]) = call.apply (afterCalls limits earlier) := by
  simp [afterCalls]

/-- One of the calls was accepted, and its check came to the body of the function here. -/
def CheckedIn (limits : Limits) (calls : List Call) (f : FunctionSymbol) (p : Point) : Prop :=
  ∃ earlier source clock later program, calls = earlier ++ Call.run source clock :: later ∧
    Parsing.parseProgram source = .ok program ∧
    (checkProgram program (afterCalls limits earlier).store).passed = true ∧
    BodyIn program (afterCalls limits earlier).store f p

theorem CheckedIn.append {limits : Limits} {calls : List Call} {f : FunctionSymbol} {p : Point}
    (checked : CheckedIn limits calls f p) (call : Call) :
    CheckedIn limits (calls ++ [call]) f p := by
  obtain ⟨earlier, source, clock, later, program, rfl, parsed, passed, body⟩ := checked
  exact ⟨earlier, source, clock, later ++ [call], program, by simp, parsed, passed, body⟩

/-- What holds of a session between its calls. -/
structure Tidy (limits : Limits) (calls : List Call) (s : Session) : Prop where
  idle : s.Idle
  holdsNone : s.store.HoldsNone
  functions : s.store.EveryFunction fun f => ∃ p, CheckedIn limits calls f p

theorem idle_afterCalls (limits : Limits) (calls : List Call) : (afterCalls limits calls).Idle := by
  induction calls using List.reverseRecOn with
  | nil => exact idle_start limits
  | append_singleton earlier call ih =>
    rw [afterCalls_append]
    cases call with
    | run source clock => exact ih.run source clock
    | check source => exact ih
    | clear => exact ⟨rfl, rfl⟩

theorem CheckedIn.checkedAt {limits : Limits} {calls : List Call} {f : FunctionSymbol} {p : Point}
    (checked : CheckedIn limits calls f p) : f.CheckedAt p := by
  obtain ⟨earlier, source, clock, later, program, -, -, passed, body⟩ := checked
  have idle := idle_afterCalls limits earlier
  exact body.checkedAt idle.onlyGlobal idle.kind passed

theorem holdsNone_afterRun {s : Session} {bodies : FunctionSymbol → Point → Prop} (idle : s.Idle)
    (holdsNone : s.store.HoldsNone) (functions : s.store.EveryFunction fun f => ∃ p, bodies f p)
    (checked : ∀ f p, bodies f p → f.CheckedAt p) (source : String) (clock : Clock) :
    (s.run source clock).2.store.HoldsNone := by
  rcases run_store_cases idle source clock with same | ⟨program, -, passed, left, -⟩
  · rw [HoldsNone, same.global]
    exact holdsNone
  · rw [left]
    exact holdsNone_run idle.onlyGlobal idle.kind passed holdsNone functions checked

theorem tidy_afterCalls (limits : Limits) (calls : List Call) :
    Tidy limits calls (afterCalls limits calls) := by
  induction calls using List.reverseRecOn with
  | nil => exact ⟨idle_start limits, rfl, everyFunction_freshStore⟩
  | append_singleton earlier call ih =>
    have functions : (afterCalls limits earlier).store.EveryFunction fun f =>
        ∃ p, CheckedIn limits (earlier ++ [call]) f p := by
      intro scope active binding bound f same
      obtain ⟨p, checked⟩ := ih.functions scope active binding bound f same
      exact ⟨p, checked.append call⟩
    refine ⟨idle_afterCalls limits _, ?_, ?_⟩ <;> rw [afterCalls_append]
    · cases call with
      | run source clock =>
        exact holdsNone_afterRun ih.idle ih.holdsNone ih.functions (fun _ _ => CheckedIn.checkedAt)
          source clock
      | check source => exact ih.holdsNone
      | clear => rfl
    · cases call with
      | run source clock =>
        refine everyFunction_run ih.idle functions fun program parsed passed name f registered => ?_
        obtain ⟨p, body⟩ := exists_bodyIn ih.idle.onlyGlobal ih.idle.kind passed registered
        exact ⟨p, earlier, source, clock, [], program, rfl, parsed, passed, body⟩
      | check source => exact functions
      | clear => exact everyFunction_freshStore

/-- A caught message does not leak. After any calls the global scope binds the error accessor to no
message. In a run of any program that is then accepted, a check stands alongside every task that the
run comes to, and whatever that check has typed as the error accessor yields the message of the error
that was caught by the innermost recover block around it in its function. -/
theorem message_of_innermost_recovery (limits : Limits) (calls : List Call) :
    (afterCalls limits calls).store.global.symbols.find? errorAccessor =
        some (.variable .str .null) ∧
      ∀ program, (checkProgram program (afterCalls limits calls).store).passed = true → ∀ clock,
        let s := afterCalls limits calls
        let bodies := fun f p => CheckedIn limits calls f p ∨ BodyIn program s.store f p
        let start := Moment.afterCheck s.limits clock program s.store
        let begun := Point.start program s.store
        (∀ x, Reaches start x →
          ∃ p caught, Alongside bodies start begun x p caught ∧ p.task = x.task) ∧
        ∀ fuel a e m p caught,
          Alongside bodies start begun ⟨fuel, a, .evaluate e, m⟩ p caught →
          p.checking.store.typesAccessor e = true →
            ∃ error, caught = some error ∧ evaluate fuel a e m = (.ok (.str error.message), m) := by
  obtain ⟨idle, holdsNone, functions⟩ := tidy_afterCalls limits calls
  refine ⟨holdsNone, fun program passed clock => ?_⟩
  intro s bodies start begun
  have attuned : Attuned bodies start begun none :=
    .afterCheck idle.onlyGlobal idle.kind passed holdsNone functions s.limits clock
  have checked : ∀ f p, bodies f p → f.CheckedAt p := by
    rintro f p (before | now)
    · exact before.checkedAt
    · exact now.checkedAt idle.onlyGlobal idle.kind passed
  refine ⟨fun x reached => ?_, fun fuel a e m p caught alongside accessor => ?_⟩
  · obtain ⟨p, caught, alongside⟩ := Alongside.start.exists_of_reaches checked attuned reached
    exact ⟨p, caught, alongside, (alongside.attuned checked attuned).task⟩
  · have positive := fuel_pos_of_reaches alongside.reaches
    obtain ⟨less, rfl⟩ : ∃ less, fuel = less + 1 := Nat.exists_eq_succ_of_ne_zero positive.ne'
    exact (alongside.attuned checked attuned).evaluate_of_typesAccessor accessor

/-- A reading of the caught message. -/
def readMessage : Expression := .call ⟨errorAccessor, default⟩ [] default

/-- A `try` that catches an overflow. -/
def overflowCaught : Statement :=
  .attempt (.mk [.expression (.binary .add (.integer Int64.maxValue default) (.integer 1 default)
    default) default] default) (.mk [] default) default

def loopingForever : Block := .mk [.while (.boolean true default) (.mk [] default) default] default

def readBehindOverflow : Block := .mk [overflowCaught, .print readMessage default] default

/-- A loop without an end, and a recover block that reads its message behind another `try`, which
has caught an overflow. -/
def nestedRecovery : Program :=
  ⟨[.attempt loopingForever readBehindOverflow default], default⟩

/-- A clock that shows six seconds from the third look on. -/
def lateClock : Clock where
  elapsed n := if n < 2 then .zero else .ofSeconds 6
  advances n := by
    by_cases early : n < 2
    · rw [if_pos early]
      exact Nat.zero_le _
    · rw [if_neg early, if_neg (by omega)]
      exact Duration.refl _

/-- Where the check of `nestedRecovery` has come to the recover block. -/
def recovering (store : Store) : Checking :=
  (((checkBlock CheckContext.topLevel.inBlock loopingForever
    ((Checking.start store).push "try" .guarded)).backTo store.depth).push "recover"
      .recovery).bindErrorAccessor

theorem alongside_nestedRecovery (bodies : FunctionSymbol → Point → Prop) (n : Nat)
    (begun store : Store) :
    let a := Activation.topLevel .standard
    let m : Machine := ⟨begun, #[], Limits.standard.deadline lateClock⟩
    let c := CheckContext.topLevel.inRecoverBlock
    ∃ m', Alongside bodies ⟨n + 8, a, .program nestedRecovery.statements none, m⟩
      (.start nestedRecovery store) ⟨n + 4, a.inRecovery, .evaluate readMessage, m'⟩
      ⟨c, checkStatement c overflowCaught (recovering store), .evaluate readMessage⟩
      (some ⟨.loopLimitExceeded (.timeout (.ofSeconds 5)), default⟩) := by
  intro a m c
  let error : RuntimeError := ⟨.loopLimitExceeded (.timeout (.ofSeconds 5)), default⟩
  obtain ⟨m₁, tried⟩ : ∃ m₁, Run.inScope "try" .guarded
      (executeAll (n + 7) a.inGuard loopingForever.statements) m =
        (.error (.recoverable error), m₁) := ⟨_, rfl⟩
  obtain ⟨m₂, overflow⟩ : ∃ m₂, execute (n + 6) a.inRecovery overflowCaught
      (m₁.inRecovery error) = (.ok .normal, m₂) := ⟨_, rfl⟩
  have attempt : Alongside bodies ⟨n + 8, a, .program nestedRecovery.statements none, m⟩
      (.start nestedRecovery store)
      ⟨n + 8, a, .execute (.attempt loopingForever readBehindOverflow default), m⟩
      ⟨.topLevel, .start store, .execute (.attempt loopingForever readBehindOverflow default)⟩
      none :=
    .step .start (.topStatement (by rintro _ _ ⟨⟩)) (.part .topStatement rfl rfl (by rintro _ ⟨⟩))
  have recovery : Alongside bodies _ _
      ⟨n + 7, a.inRecovery, .executeAll readBehindOverflow.statements, m₁.inRecovery error⟩
      ⟨c, recovering store, .executeAll readBehindOverflow.statements⟩ (some error) :=
    attempt.step (.recovery tried (define_errorAccessor ..))
      (.recovery (.intro tried (define_errorAccessor ..)) .recovery rfl rfl)
  have behind : Alongside bodies _ _
      ⟨n + 6, a.inRecovery, .executeAll [.print readMessage default], m₂⟩
      ⟨c, checkStatement c overflowCaught (recovering store),
        .executeAll [.print readMessage default]⟩ (some error) :=
    recovery.step (.next overflow) (.part .next rfl rfl (by rintro _ ⟨⟩))
  have print : Alongside bodies _ _
      ⟨n + 5, a.inRecovery, .execute (.print readMessage default), m₂⟩
      ⟨c, checkStatement c overflowCaught (recovering store),
        .execute (.print readMessage default)⟩ (some error) :=
    behind.step .first (.part .first rfl rfl (by rintro _ ⟨⟩))
  exact ⟨m₂, print.step .printed (.part .printed rfl rfl (by rintro _ ⟨⟩))⟩

/-- The deadline passes before the third round of the loop. The overflow that was caught later is
forgotten: the message is that of the deadline. -/
theorem message_of_innermost_recovery_nested :
    let calls : List Call := [.run "int x = 1 / 0;" .still]
    let s := afterCalls .standard calls
    (checkProgram nestedRecovery s.store).passed = true ∧ ∃ fuel a m p error,
      Alongside (fun f p => CheckedIn .standard calls f p ∨ BodyIn nestedRecovery s.store f p)
        (.afterCheck s.limits lateClock nestedRecovery s.store) (.start nestedRecovery s.store)
        ⟨fuel, a, .evaluate readMessage, m⟩ p (some error) ∧
      p.checking.store.typesAccessor readMessage = true ∧
      evaluate fuel a readMessage m =
        (.ok (.str "loop exceeded limit: timeout of 5s reached"), m) := by
  intro calls s
  have passed : (checkProgram nestedRecovery s.store).passed = true := by decide +kernel
  have standard : s.limits = .standard := by decide +kernel
  obtain ⟨n, enough⟩ : ∃ n, sufficientFuel s.limits nestedRecovery
      (checkProgram nestedRecovery s.store).store = n + 8 :=
    Nat.exists_eq_add_of_le' (by decide +kernel)
  obtain ⟨-, yields⟩ := (message_of_innermost_recovery .standard calls).2 nestedRecovery passed
    lateClock
  rw [Moment.afterCheck, Moment.start, enough, standard] at yields
  rw [Moment.afterCheck, Moment.start, enough, standard]
  obtain ⟨m, alongside⟩ := alongside_nestedRecovery
    (fun f p => CheckedIn .standard calls f p ∨ BodyIn nestedRecovery s.store f p) n
    (checkProgram nestedRecovery s.store).store s.store
  have accessor : (checkStatement CheckContext.topLevel.inRecoverBlock overflowCaught
      (recovering s.store)).store.typesAccessor readMessage = true := by decide +kernel
  obtain ⟨_, ⟨⟩, yielded⟩ := yields _ _ _ _ _ _ alongside accessor
  have said : (Fault.loopLimitExceeded (.timeout (.ofSeconds 5))).message =
      "loop exceeded limit: timeout of 5s reached" := by decide +kernel
  rw [RuntimeError.message, said] at yielded
  exact ⟨passed, _, _, m, _, _, alongside, accessor, yielded⟩

end Session

end CheckedScript
