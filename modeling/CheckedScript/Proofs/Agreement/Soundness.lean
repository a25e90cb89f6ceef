import CheckedScript.Proofs.Agreement.Statements

/-!
# Runs of checked programs are sound

Every task that is tracked is sound: by induction on its rank, with the tasks that it performs as
the smaller ones. So all that a run of a checked program comes to is tracked.
-/

namespace CheckedScript

open Check Checking Execution Run

variable {V : Ty → Value → Prop} {program : Program} {store : Store} {fuel : Nat}
  {a : Activation} {m m₁ : Machine} {c : CheckContext} {s : Checking} {span : Span}

section

variable (closed : store.Closed) (passed : (checkProgram program store).passed = true)
  (admissible : Admissible V)

include closed passed

/-- Where a statement binds no name, only its signal is to be looked at. -/
theorem sound_of_silent {statement : Statement}
    (tracked : Tracked V program store ⟨fuel, a, .execute statement, m⟩ c s)
    (silent : statement.runtimeName? = none) (declares : statement.declarations s.store = [])
    (yields : (execute fuel a statement).Yields V m fun signal _ => signal.Fits V c) :
    Sound V ⟨fuel, a, .execute statement, m⟩ c s :=
  yields.mono fun _ _ ended fits =>
    ⟨fits, fun _ => tracked.agrees_of_silent closed passed silent declares ended⟩

include admissible

theorem sound_variable {type : TypeName} {name : Identifier} {initializer : Option Expression}
    (tracked : Tracked V program store ⟨fuel + 1, a, .execute (.variable type name initializer span),
      m⟩ c s)
    (below : SoundBelow V program store ⟨fuel + 1, a, .execute (.variable type name initializer span),
      m⟩) :
    Sound V ⟨fuel + 1, a, .execute (.variable type name initializer span), m⟩ c s := by
  have initial : (initialValue fuel a type initializer).Yields V m fun v _ =>
      V (.ofTypeName type) v := by
    cases initializer with
    | none => exact .pure tracked.holds (admissible.initial _)
    | some e =>
      have clean := tracked.accepted closed passed
      unfold Point.Accepted checkStatement at clean
      exact (below .initializer (tracked.part .initializer trivial)).mono fun v m₁ _ fits =>
        fits _ (types_of_clean_declaration clean)
  show (execute (fuel + 1) a (.variable type name initializer span)).Yields V m _
  rw [execute_variable]
  refine initial.bind fun v m₁ known holds₁ fits => ?_
  obtain ⟨-, agrees⟩ := tracked.declare closed passed name.name
    (.variable (.ofTypeName type) (Ty.ofTypeName type).defaultValue)
    (.variable (.ofTypeName type) v) rfl rfl rfl
    ((frame_initialValue (framesAt fuel) a type initializer).after known)
  have defined : (define a name.name (.variable (.ofTypeName type) v) name.span).Yields V m₁
      fun _ m₂ => (checkStatement c (.variable type name initializer span) s).store.Agrees
        m₂.store := yields_define holds₁ fits fun _ => agrees
  exact defined.bind fun _ m₂ _ holds₂ agrees₂ => .pure holds₂ ⟨trivial, fun _ => agrees₂⟩

theorem sound_recordInstance {type name : Identifier}
    (tracked : Tracked V program store ⟨fuel + 1, a, .execute (.recordInstance type name span), m⟩
      c s) :
    Sound V ⟨fuel + 1, a, .execute (.recordInstance type name span), m⟩ c s := by
  have clean := tracked.accepted closed passed
  unfold Point.Accepted checkStatement at clean
  obtain ⟨r, found⟩ := of_clean_recordInstance clean
  obtain ⟨-, agrees⟩ := tracked.declare closed passed name.name
    (.recordInstance r.instantiate) (.recordInstance r.instantiate) rfl
    (by simp [Statement.declarations, found, Declarations.bindings]) rfl (.refl _)
  have instantiated : (instantiate a type name span).Yields V m fun _ m₁ =>
      (checkStatement c (.recordInstance type name span) s).store.Agrees m₁.store := by
    refine yields_instantiate tracked.holds admissible.null fun r' found' _ => ?_
    cases (tracked.agrees.lookup?_recordType found).symm.trans found'
    exact agrees
  show (execute (fuel + 1) a (.recordInstance type name span)).Yields V m _
  unfold execute
  exact instantiated.bind fun _ m₁ _ holds₁ agrees₁ => .pure holds₁ ⟨trivial, fun _ => agrees₁⟩

omit admissible in
theorem sound_assignment {name : Identifier} {value : Expression}
    (tracked : Tracked V program store ⟨fuel + 1, a, .execute (.assignment name value span), m⟩ c s)
    (below : SoundBelow V program store ⟨fuel + 1, a, .execute (.assignment name value span), m⟩) :
    Sound V ⟨fuel + 1, a, .execute (.assignment name value span), m⟩ c s := by
  have clean := tracked.accepted closed passed
  unfold Point.Accepted checkStatement at clean
  obtain ⟨type, held, found, typed⟩ := of_clean_assignment clean
  refine sound_of_silent closed passed tracked rfl rfl ?_
  unfold execute
  refine (below .assigned (tracked.part .assigned trivial)).bind fun v m₁ known holds₁ fits => ?_
  -- The value can have changed the store, but not what the name is declared as.
  have tracked₁ : Tracked V program store ⟨fuel, a, .evaluate value, m₁⟩ c s :=
    tracked.part_after .assigned (.refl _) (((framesAt fuel).evaluate a value).after known) holds₁
      trivial
  obtain ⟨held', found'⟩ := tracked₁.agrees.lookup?_variable found
  have assigned : (assign a name.name (.value v) span).Yields V m₁ fun _ _ => True := by
    refine yields_assign holds₁ ?_ (by rintro _ _ ⟨⟩) fun _ _ => trivial
    rintro _ ⟨⟩ type' old here
    cases found'.symm.trans here
    exact fits type typed
  exact assigned.bind fun _ m₂ _ holds₂ _ => .pure holds₂ trivial

omit admissible in
theorem sound_fieldAssignment {record field : Identifier} {value : Expression}
    (tracked : Tracked V program store
      ⟨fuel + 1, a, .execute (.fieldAssignment record field value span), m⟩ c s)
    (below : SoundBelow V program store
      ⟨fuel + 1, a, .execute (.fieldAssignment record field value span), m⟩) :
    Sound V ⟨fuel + 1, a, .execute (.fieldAssignment record field value span), m⟩ c s := by
  have clean := tracked.accepted closed passed
  unfold Point.Accepted checkStatement at clean
  obtain ⟨r, slot, found, present, typed⟩ := of_clean_fieldAssignment clean
  refine sound_of_silent closed passed tracked rfl rfl ?_
  unfold execute
  refine (below .fieldAssigned (tracked.part .fieldAssigned trivial)).bind
    fun v m₁ known holds₁ fits => ?_
  have tracked₁ : Tracked V program store ⟨fuel, a, .evaluate value, m₁⟩ c s :=
    tracked.part_after .fieldAssigned (.refl _) (((framesAt fuel).evaluate a value).after known)
      holds₁ trivial
  obtain ⟨held, old, found', present'⟩ := tracked₁.agrees.lookup?_field found present
  have assigned : (assign a record.name (.field field.name v) span).Yields V m₁ fun _ _ => True := by
    refine yields_assign holds₁ (by rintro _ ⟨⟩) ?_ fun _ _ => trivial
    rintro _ _ ⟨⟩ r' slot' here there
    cases found'.symm.trans here
    cases present'.symm.trans there
    exact fits slot.type typed
  exact assigned.bind fun _ m₂ _ holds₂ _ => .pure holds₂ trivial

theorem sound_attempt {guarded recovery : Block}
    (tracked : Tracked V program store ⟨fuel + 1, a, .execute (.attempt guarded recovery span), m⟩
      c s)
    (below : SoundBelow V program store ⟨fuel + 1, a, .execute (.attempt guarded recovery span),
      m⟩) :
    Sound V ⟨fuel + 1, a, .execute (.attempt guarded recovery span), m⟩ c s := by
  refine sound_of_silent closed passed tracked rfl rfl ?_
  unfold execute
  have tried := Yields.inScope (below .guarded (tracked.enter .guarded))
  -- Where the guarded block is left by an error, the values in the store are still allowed.
  refine (tried.mono ?_).recover fun error m₁ caught holds₁ => ?_
  · rintro signal m' - ⟨left, -, fits, -⟩
    exact fits.of_inBlock
  · obtain ⟨m₂, s', bound, inRecovery⟩ := tracked.recovery caught holds₁ (admissible.str _)
    have handled : (executeAll fuel a.inRecovery recovery.statements).Yields V m₂ fun signal _ =>
      signal.Fits V c.inRecoverBlock := below (.recovery caught bound) inRecovery
    refine (Yields.inScope (.bind_of_ok bound handled)).mono ?_
    rintro signal m' - ⟨left, -, fits, -⟩
    exact fits.of_inRecoverBlock

theorem sound_return {value : Option Expression}
    (tracked : Tracked V program store ⟨fuel + 1, a, .execute (.return value span), m⟩ c s)
    (below : SoundBelow V program store ⟨fuel + 1, a, .execute (.return value span), m⟩) :
    Sound V ⟨fuel + 1, a, .execute (.return value span), m⟩ c s := by
  have clean := tracked.accepted closed passed
  unfold Point.Accepted checkStatement at clean
  obtain ⟨f, inside, typed⟩ := of_clean_returning clean
  refine sound_of_silent closed passed tracked rfl rfl ?_
  unfold execute
  cases value with
  | none => exact .pure tracked.holds ⟨f, inside, admissible.null _⟩
  | some e =>
    refine (below .returned (tracked.part .returned trivial)).bind fun v m₁ _ holds₁ fits => ?_
    exact .pure holds₁ ⟨f, inside, fits _ (typed e rfl)⟩

theorem sound_execute {statement : Statement}
    (tracked : Tracked V program store ⟨fuel + 1, a, .execute statement, m⟩ c s)
    (below : SoundBelow V program store ⟨fuel + 1, a, .execute statement, m⟩) :
    Sound V ⟨fuel + 1, a, .execute statement, m⟩ c s := by
  have holds : m.store.Holds V := tracked.holds
  have clean : (checkStatement c statement s).Clean := tracked.accepted closed passed
  cases statement with
  | «variable» type name initializer span =>
    exact sound_variable closed passed admissible tracked below
  | recordInstance type name span => exact sound_recordInstance closed passed admissible tracked
  | assignment name value span => exact sound_assignment closed passed tracked below
  | fieldAssignment record field value span =>
    exact sound_fieldAssignment closed passed tracked below
  | attempt guarded recovery span => exact sound_attempt closed passed admissible tracked below
  | «return» value span => exact sound_return closed passed admissible tracked below
  | function name parameters returnType body span =>
    exact .pure holds ⟨trivial, fun _ => tracked.agrees_of_registered closed passed rfl rfl⟩
  | recordType name fields span =>
    exact .pure holds ⟨trivial, fun _ => tracked.agrees_of_registered closed passed rfl rfl⟩
  | block body span =>
    refine sound_of_silent closed passed tracked rfl rfl ?_
    unfold execute
    refine (Yields.inScope (below .block (tracked.enter .block))).mono ?_
    rintro signal m' - ⟨left, -, fits, -⟩
    exact fits.of_inBlock
  | conditional branches otherwise span =>
    refine sound_of_silent closed passed tracked rfl rfl ?_
    unfold execute
    exact below .conditional (tracked.part .conditional trivial)
  | «while» condition body span =>
    refine sound_of_silent closed passed tracked rfl rfl ?_
    unfold execute
    exact (below .while (tracked.part .while trivial)).mono fun _ _ _ fits => fits.1
  | «break» span =>
    refine sound_of_silent closed passed tracked rfl rfl (.pure holds ?_)
    unfold checkStatement at clean
    split at clean
    · next inside => exact inside
    · exact absurd clean (not_clean_report rfl)
  | «continue» span =>
    refine sound_of_silent closed passed tracked rfl rfl (.pure holds ?_)
    unfold checkStatement at clean
    split at clean
    · next inside => exact inside
    · exact absurd clean (not_clean_report rfl)
  | print e span =>
    refine sound_of_silent closed passed tracked rfl rfl ?_
    unfold execute
    refine (below .printed (tracked.part .printed trivial)).bind fun v m₁ _ holds₁ _ => ?_
    exact .bind_of_ok rfl (.pure holds₁ trivial)
  | expression e span =>
    refine sound_of_silent closed passed tracked rfl rfl ?_
    rw [execute_expression]
    exact (below .discarded (tracked.part .discarded trivial)).bind fun v m₁ _ holds₁ _ =>
      .pure holds₁ trivial

omit admissible in
theorem sound_executeAll {statements : List Statement}
    (tracked : Tracked V program store ⟨fuel + 1, a, .executeAll statements, m⟩ c s)
    (below : SoundBelow V program store ⟨fuel + 1, a, .executeAll statements, m⟩) :
    Sound V ⟨fuel + 1, a, .executeAll statements, m⟩ c s := by
  show (executeAll (fuel + 1) a statements).Yields V m fun signal _ => signal.Fits V c
  unfold executeAll
  cases statements with
  | nil => exact .pure tracked.holds trivial
  | cons statement rest =>
    refine (below .first (tracked.first closed passed)).bind fun signal m₁ done holds₁ fits => ?_
    cases signal with
    | normal => exact below (.next done) (tracked.next (fits.2 rfl) holds₁)
    | _ => exact .pure holds₁ fits.1

omit closed passed admissible in
theorem sound_branches {branches : List Branch} {otherwise : Option Block}
    (tracked : Tracked V program store ⟨fuel + 1, a, .branches branches otherwise, m⟩ c s)
    (below : SoundBelow V program store ⟨fuel + 1, a, .branches branches otherwise, m⟩) :
    Sound V ⟨fuel + 1, a, .branches branches otherwise, m⟩ c s := by
  show (executeBranches (fuel + 1) a branches otherwise).Yields V m fun signal _ =>
    signal.Fits V c
  unfold executeBranches
  cases branches with
  | nil =>
    cases otherwise with
    | none => exact .pure tracked.holds trivial
    | some otherwise =>
      refine (Yields.inScope (below .otherwise (tracked.enter .otherwise))).mono ?_
      rintro signal m' - ⟨left, -, fits, -⟩
      exact fits.of_inBlock
  | cons branch rest =>
    obtain ⟨condition, body, span⟩ := branch
    refine (below .branchCondition (tracked.part .branchCondition trivial)).bind
      fun taken m₁ known holds₁ _ => ?_
    have kept := ((framesAt fuel).condition a condition).after known
    cases taken with
    | true =>
      have inBody := below (.branchBody known)
        (tracked.enter_after .branchBody (grows_condition ..).sameScopes kept holds₁)
      refine (Yields.inScope inBody).mono ?_
      rintro signal m' - ⟨left, -, fits, -⟩
      exact fits.of_inBlock
    | false =>
      exact below (.nextBranch known) (tracked.part_after .nextBranch
        ((grows_condition ..).sameScopes.trans (grows_scopedBlock ..).sameScopes) kept holds₁
        trivial)

omit closed passed admissible in
theorem sound_loop {condition : Expression} {body : Block} {completed : Nat}
    (tracked : Tracked V program store ⟨fuel + 1, a, .loop condition body span completed, m⟩ c s)
    (below : SoundBelow V program store ⟨fuel + 1, a, .loop condition body span completed, m⟩) :
    Sound V ⟨fuel + 1, a, .loop condition body span completed, m⟩ c s := by
  show (executeLoop (fuel + 1) a condition body span completed).Yields V m fun signal _ =>
    signal.Fits V c ∧ signal ≠ .break ∧ signal ≠ .continue
  unfold executeLoop
  refine (below .loopCondition (tracked.part .loopCondition trivial)).bind
    fun again m₁ known holds₁ _ => ?_
  have kept := ((framesAt fuel).condition a condition).after known
  cases again with
  | false => exact .pure holds₁ ⟨trivial, by rintro ⟨⟩, by rintro ⟨⟩⟩
  | true =>
    rw [if_pos rfl]
    refine (yields_exceededLimit? holds₁).bind fun limit m₂ allowed holds₂ asked => ?_
    obtain ⟨deadline, rfl⟩ := asked
    cases limit with
    | some limit => exact yields_fail holds₂ _
    | none =>
      have inBody : (executeAll fuel a body.statements).Yields V
          (Machine.enter { m₁ with deadline := deadline } "while" .loop)
          fun signal _ => signal.Fits V c.inLoopBody := below (.loopBody known allowed)
        (tracked.enter_after .loopBody (grows_condition ..).sameScopes kept holds₂)
      refine (Yields.inScope inBody).bind fun signal m₃ done holds₃ ended => ?_
      -- The next iteration is followed by the one check of the loop, for its scope has been closed.
      have onward : Tracked V program store ⟨fuel, a, .loop condition body span (completed + 1), m₃⟩
          c s := tracked.part_after .nextIteration (.refl _) (sameOutline_of_iteration known done)
        holds₃ trivial
      cases signal with
      | normal => exact below (.nextIteration known allowed done (.inl rfl)) onward
      | «continue» => exact below (.nextIteration known allowed done (.inr rfl)) onward
      | «break» => exact .pure holds₃ ⟨trivial, by rintro ⟨⟩, by rintro ⟨⟩⟩
      | «return» value =>
        obtain ⟨left, -, fits, -⟩ := ended
        exact .pure holds₃ ⟨fits, by rintro ⟨⟩, by rintro ⟨⟩⟩

omit admissible in
theorem sound_program {statements : List Statement} {last : Option Value}
    (tracked : Tracked V program store ⟨fuel, a, .program statements last, m⟩ c s)
    (below : SoundBelow V program store ⟨fuel, a, .program statements last, m⟩) :
    Sound V ⟨fuel, a, .program statements last, m⟩ c s := by
  show (runStatements fuel a statements last).Yields V m fun _ _ => True
  unfold runStatements
  split
  · exact .pure tracked.holds trivial
  · next last e span rest =>
    refine (below .topExpression (tracked.part .topExpression trivial)).bind
      fun v m₁ known holds₁ _ => ?_
    exact below (.afterTopExpression known)
      (tracked.afterTopExpression closed passed known holds₁)
  · next last statement rest other =>
    refine (below (.topStatement other) (tracked.topStatement closed passed)).bind
      fun signal m₁ done holds₁ fits => ?_
    cases signal with
    | normal =>
      exact below (.afterTopStatement other done)
        (tracked.afterTopStatement closed passed done (fits.2 rfl) holds₁)
    | _ => exact .unwind holds₁

/-- Every task that is tracked is sound. -/
theorem Tracked.sound {x : Moment} (tracked : Tracked V program store x c s) : Sound V x c s := by
  induction rank : x.rank using Nat.strongRecOn generalizing x c s with
  | ind n ih =>
    -- Each task leaves less fuel to what it performs; the statements of a program, which share
    -- theirs, get fewer.
    have below : SoundBelow V program store x := fun entered tracked =>
      ih _ (rank ▸ entered.rank_lt) tracked rfl
    obtain ⟨fuel, a, task, m⟩ := x
    cases fuel with
    | zero =>
      cases task with
      | program statements last => exact sound_program closed passed tracked below
      | _ => exact .unwind tracked.holds
    | succ fuel =>
      cases task with
      | evaluate e => exact sound_evaluate closed passed admissible tracked below
      | evaluateAll es => exact sound_evaluateAll tracked below
      | call name arguments span => exact sound_call closed passed admissible tracked below
      | condition e => exact sound_condition tracked below
      | execute statement => exact sound_execute closed passed admissible tracked below
      | executeAll statements => exact sound_executeAll closed passed tracked below
      | branches branches otherwise => exact sound_branches tracked below
      | loop condition body span completed => exact sound_loop tracked below
      | program statements last => exact sound_program closed passed tracked below

/-- Whatever a task that is tracked performs is tracked. -/
theorem Tracked.enters {x y : Moment} (tracked : Tracked V program store x c s)
    (entered : Enters x y) : ∃ c' s', Tracked V program store y c' s' := by
  have sound : ∀ {y c s}, Tracked V program store y c s → Sound V y c s :=
    fun tracked => tracked.sound closed passed admissible
  cases entered with
  | position => exact ⟨c, s, tracked.part .position trivial⟩
  | called function => exact ⟨c, s, tracked.part (.called (not_errorAccessor function)) trivial⟩
  | operand => exact ⟨c, s, tracked.part .operand trivial⟩
  | left => exact ⟨c, s, tracked.part .left trivial⟩
  | @right fuel a m m₁ operator left right v span known undecided =>
    have before : Tracked V program store ⟨fuel, a, .evaluate left, m⟩ c s :=
      tracked.part .left trivial
    exact ⟨c, s, tracked.part_after .right (.refl _) (((framesAt fuel).evaluate a left).after known)
      ((sound before).of_ok known).1 trivial⟩
  | inner => exact ⟨c, s, tracked.part .inner trivial⟩
  | firstArgument => exact ⟨c, s, tracked.part .firstArgument trivial⟩
  | @nextArguments fuel a m m₁ e rest v known =>
    have before : Tracked V program store ⟨fuel, a, .evaluate e, m⟩ c s :=
      tracked.part .firstArgument trivial
    exact ⟨c, s, tracked.part_after .nextArguments (.refl _)
      (((framesAt fuel).evaluate a e).after known) ((sound before).of_ok known).1 trivial⟩
  | arguments found => exact ⟨c, s, tracked.part .arguments trivial⟩
  | @body fuel a m m₁ m₂ name arguments f values span found known allowed bound =>
    have before : Tracked V program store ⟨fuel, a, .evaluateAll arguments, m⟩ c s :=
      tracked.part .arguments trivial
    obtain ⟨holds, typed⟩ := (sound before).of_ok known
    obtain ⟨m₂', s', bound', inBody⟩ := tracked.body closed passed found known holds typed
    cases bound.symm.trans bound'
    exact ⟨_, s', inBody⟩
  | truth => exact ⟨c, s, tracked.part .truth trivial⟩
  | initializer => exact ⟨c, s, tracked.part .initializer trivial⟩
  | assigned => exact ⟨c, s, tracked.part .assigned trivial⟩
  | fieldAssigned => exact ⟨c, s, tracked.part .fieldAssigned trivial⟩
  | block => exact ⟨_, _, tracked.enter .block⟩
  | conditional => exact ⟨c, s, tracked.part .conditional trivial⟩
  | «while» => exact ⟨c, s, tracked.part .while trivial⟩
  | returned => exact ⟨c, s, tracked.part .returned trivial⟩
  | printed => exact ⟨c, s, tracked.part .printed trivial⟩
  | guarded => exact ⟨_, _, tracked.enter .guarded⟩
  | @recovery fuel a m m₁ m₂ guarded recovery error span caught bound =>
    have tried : Tracked V program store
        ⟨fuel, a.inGuard, .executeAll guarded.statements, m.enter "try" .guarded⟩ c.inBlock _ :=
      tracked.enter .guarded
    have holds := (Yields.inScope (sound tried)).of_error caught
    obtain ⟨m₂', s', bound', inRecovery⟩ := tracked.recovery caught holds (admissible.str _)
    cases bound.symm.trans bound'
    exact ⟨_, s', inRecovery⟩
  | discarded => exact ⟨c, s, tracked.part .discarded trivial⟩
  | first => exact ⟨c, s, tracked.first closed passed⟩
  | @next fuel a m m₁ statement rest done =>
    have before : Tracked V program store ⟨fuel, a, .execute statement, m⟩ c s :=
      tracked.first closed passed
    obtain ⟨holds, -, agrees⟩ := (sound before).of_ok done
    exact ⟨c, _, tracked.next (agrees rfl) holds⟩
  | otherwise => exact ⟨_, _, tracked.enter .otherwise⟩
  | branchCondition => exact ⟨c, s, tracked.part .branchCondition trivial⟩
  | @branchBody fuel a m m₁ condition body rest otherwise span taken =>
    have before : Tracked V program store ⟨fuel, a, .condition condition, m⟩ c s :=
      tracked.part .branchCondition trivial
    exact ⟨_, _, tracked.enter_after .branchBody (grows_condition ..).sameScopes
      (((framesAt fuel).condition a condition).after taken) ((sound before).of_ok taken).1⟩
  | @nextBranch fuel a m m₁ condition body rest otherwise span fails =>
    have before : Tracked V program store ⟨fuel, a, .condition condition, m⟩ c s :=
      tracked.part .branchCondition trivial
    exact ⟨c, _, tracked.part_after .nextBranch
      ((grows_condition ..).sameScopes.trans (grows_scopedBlock ..).sameScopes)
      (((framesAt fuel).condition a condition).after fails) ((sound before).of_ok fails).1 trivial⟩
  | loopCondition => exact ⟨c, s, tracked.part .loopCondition trivial⟩
  | @loopBody fuel a m m₁ m₂ condition body completed span again allowed =>
    obtain ⟨-, -, rfl⟩ := exceededLimit?_eq_none_iff.mp allowed
    have before : Tracked V program store ⟨fuel, a, .condition condition, m⟩ c s :=
      tracked.part .loopCondition trivial
    have kept := ((framesAt fuel).condition a condition).after again
    exact ⟨_, _, tracked.enter_after .loopBody (grows_condition ..).sameScopes kept
      ((sound before).of_ok again).1⟩
  | @nextIteration fuel a m m₁ m₂ m₃ condition body completed signal span again allowed done
      onward =>
    obtain ⟨-, -, rfl⟩ := exceededLimit?_eq_none_iff.mp allowed
    have before : Tracked V program store ⟨fuel, a, .condition condition, m⟩ c s :=
      tracked.part .loopCondition trivial
    have kept := ((framesAt fuel).condition a condition).after again
    have inBody : Tracked V program store
        ⟨fuel, a, .executeAll body.statements,
          Machine.enter { m₁ with deadline := m₁.deadline.later } "while" .loop⟩ c.inLoopBody _ :=
      tracked.enter_after .loopBody (grows_condition ..).sameScopes kept
        ((sound before).of_ok again).1
    exact ⟨c, s, tracked.part_after .nextIteration (.refl _) (sameOutline_of_iteration again done)
      ((Yields.inScope (sound inBody)).of_ok done).1 trivial⟩
  | topExpression => exact ⟨c, s, tracked.part .topExpression trivial⟩
  | @afterTopExpression fuel a m m₁ e rest last v span known =>
    have before : Tracked V program store ⟨fuel, a, .evaluate e, m⟩ c s :=
      tracked.part .topExpression trivial
    exact ⟨c, _, tracked.afterTopExpression closed passed known ((sound before).of_ok known).1⟩
  | topStatement other => exact ⟨c, s, tracked.topStatement closed passed⟩
  | @afterTopStatement fuel a m m₁ statement rest last other done =>
    have before : Tracked V program store ⟨fuel, a, .execute statement, m⟩ c s :=
      tracked.topStatement closed passed
    obtain ⟨holds, -, agrees⟩ := (sound before).of_ok done
    exact ⟨c, _, tracked.afterTopStatement closed passed done (agrees rfl) holds⟩

theorem Tracked.reaches {x y : Moment} (tracked : Tracked V program store x c s)
    (reached : Reaches x y) : ∃ c' s', Tracked V program store y c' s' := by
  induction reached generalizing c s with
  | refl => exact ⟨c, s, tracked⟩
  | step entered _ ih =>
    obtain ⟨c', s', onward⟩ := tracked.enters closed passed admissible entered
    exact ih onward

end

end CheckedScript
