import CheckedScript.Proofs.Agreement.Presence

/-!
# Runs that keep their stores filled

A statement that is tracked leaves a filled store filled: what it puts into a variable is the value
of an expression, or the value that a variable of the type starts with. By induction on the rank of
a task, all that a run comes to finds its store filled, as far as no field is read
(`Tracked.filled_of_reaches`).
-/

namespace CheckedScript

open Check Checking Execution Run

variable {program : Program} {store : Store} {fuel : Nat} {a : Activation} {m : Machine}
  {c : CheckContext} {s : Checking} {span : Span}

/-- Behind a block, its signal is one for the context around it. -/
theorem fills_inBlock {x : Run Signal} {name : String} {kind : ScopeKind}
    (body : x.Ensures Store.Filled (m.enter name kind) fun signal _ =>
      signal.Fits Present c.inBlock) :
    (inScope name kind x).Ensures Store.Filled m fun signal _ => signal.Fits Present c := by
  refine (Ensures.inScope Store.Filled.truncate body).mono ?_
  rintro signal m' - ⟨left, -, fits, -⟩
  exact fits.of_inBlock

section

variable (closed : store.Closed) (passed : (checkProgram program store).passed = true)

include closed passed

/-- Where a statement leaves the store filled, only its signal is to be looked at. -/
theorem fills_of_signal {statement : Statement}
    (tracked : Tracked Unrestricted program store ⟨fuel, a, .execute statement, m⟩ c s)
    (ensures : (execute fuel a statement).Ensures Store.Filled m fun signal _ =>
      signal.Fits Present c) :
    Fills ⟨fuel, a, .execute statement, m⟩ c s :=
  ensures.mono fun _ _ ended fits =>
    ⟨fits, ((tracked.sound closed passed admissible_unrestricted).of_ok ended).2.2⟩

theorem fills_variable {type : TypeName} {name : Identifier} {initializer : Option Expression}
    (tracked : Tracked Unrestricted program store
      ⟨fuel + 1, a, .execute (.variable type name initializer span), m⟩ c s)
    (filled : m.store.Filled)
    (below : FillsBelow program store
      ⟨fuel + 1, a, .execute (.variable type name initializer span), m⟩) :
    Fills ⟨fuel + 1, a, .execute (.variable type name initializer span), m⟩ c s := by
  have initial : (initialValue fuel a type initializer).Ensures Store.Filled m fun v _ =>
      Present (.ofTypeName type) v := by
    cases initializer with
    | none => exact .pure filled (Present.defaultValue _)
    | some e =>
      have clean := tracked.accepted closed passed
      unfold Point.Accepted checkStatement at clean
      exact (below .initializer (tracked.part .initializer trivial) filled).mono
        fun v m₁ _ fits => fits _ (types_of_clean_declaration clean)
  refine fills_of_signal closed passed tracked ?_
  rw [execute_variable]
  refine initial.bind fun v m₁ _ filled₁ present => ?_
  have defined : (define a name.name (.variable (.ofTypeName type) v) name.span).Ensures
    Store.Filled m₁ fun _ _ => True := fills_define filled₁ present
  exact defined.bind fun _ m₂ _ filled₂ _ => .pure filled₂ trivial

theorem fills_assignment {name : Identifier} {value : Expression}
    (tracked : Tracked Unrestricted program store
      ⟨fuel + 1, a, .execute (.assignment name value span), m⟩ c s)
    (filled : m.store.Filled)
    (below : FillsBelow program store ⟨fuel + 1, a, .execute (.assignment name value span), m⟩) :
    Fills ⟨fuel + 1, a, .execute (.assignment name value span), m⟩ c s := by
  have clean := tracked.accepted closed passed
  unfold Point.Accepted checkStatement at clean
  obtain ⟨type, held, found, typed⟩ := of_clean_assignment clean
  refine fills_of_signal closed passed tracked ?_
  unfold execute
  refine (below .assigned (tracked.part .assigned trivial) filled).bind
    fun v m₁ known filled₁ fits => ?_
  have kept := ((framesAt fuel).evaluate a value).after known
  obtain ⟨held', found'⟩ := (tracked.agrees.of_sameOutline kept).lookup?_variable found
  have assigned : (assign a name.name (.value v) span).Ensures Store.Filled m₁ fun _ _ => True := by
    refine ensures_assign filled₁ fun store updated => ⟨filled₁.update updated ?_, trivial⟩
    rintro _ ⟨⟩ type' old here
    cases found'.symm.trans here
    exact fits type typed
  exact assigned.bind fun _ m₂ _ filled₂ _ => .pure filled₂ trivial

theorem fills_attempt {guarded recovery : Block}
    (tracked : Tracked Unrestricted program store
      ⟨fuel + 1, a, .execute (.attempt guarded recovery span), m⟩ c s)
    (filled : m.store.Filled)
    (below : FillsBelow program store
      ⟨fuel + 1, a, .execute (.attempt guarded recovery span), m⟩) :
    Fills ⟨fuel + 1, a, .execute (.attempt guarded recovery span), m⟩ c s := by
  refine fills_of_signal closed passed tracked ?_
  unfold execute
  have tried := fills_inBlock (below .guarded (tracked.enter .guarded) (filled.push _ _))
  refine tried.recover fun error m₁ caught filled₁ => ?_
  -- Inside the recover block the message is there.
  obtain ⟨m₂, s', bound, inRecovery⟩ := tracked.recovery caught (holds_unrestricted _) trivial
  obtain ⟨filled₂, -⟩ := (fills_define (filled₁.push _ _) (Symbol.isFilled_str _)).of_ok bound
  have handled : (executeAll fuel a.inRecovery recovery.statements).Ensures Store.Filled m₂
      fun signal _ => signal.Fits Present c.inRecoverBlock :=
    below (.recovery caught bound) inRecovery filled₂
  refine (Ensures.inScope Store.Filled.truncate (.bind_of_ok bound handled)).mono ?_
  rintro signal m' - ⟨left, -, fits, -⟩
  exact fits.of_inRecoverBlock

theorem fills_return {value : Option Expression}
    (tracked : Tracked Unrestricted program store ⟨fuel + 1, a, .execute (.return value span), m⟩
      c s)
    (filled : m.store.Filled)
    (below : FillsBelow program store ⟨fuel + 1, a, .execute (.return value span), m⟩) :
    Fills ⟨fuel + 1, a, .execute (.return value span), m⟩ c s := by
  have clean := tracked.accepted closed passed
  unfold Point.Accepted checkStatement at clean
  refine fills_of_signal closed passed tracked ?_
  unfold execute
  cases value with
  | none =>
    obtain ⟨f, inside, void⟩ := of_clean_returning_none clean
    exact .pure filled ⟨f, inside, .inl void⟩
  | some e =>
    obtain ⟨f, inside, typed⟩ := of_clean_returning clean
    refine (below .returned (tracked.part .returned trivial) filled).bind
      fun v m₁ _ filled₁ fits => ?_
    exact .pure filled₁ ⟨f, inside, fits _ (typed e rfl)⟩

theorem fills_execute {statement : Statement}
    (tracked : Tracked Unrestricted program store ⟨fuel + 1, a, .execute statement, m⟩ c s)
    (filled : m.store.Filled)
    (below : FillsBelow program store ⟨fuel + 1, a, .execute statement, m⟩) :
    Fills ⟨fuel + 1, a, .execute statement, m⟩ c s := by
  cases statement with
  | «variable» type name initializer span => exact fills_variable closed passed tracked filled below
  | assignment name value span => exact fills_assignment closed passed tracked filled below
  | attempt guarded recovery span => exact fills_attempt closed passed tracked filled below
  | «return» value span => exact fills_return closed passed tracked filled below
  | recordInstance type name span =>
    refine fills_of_signal closed passed tracked ?_
    unfold execute
    have instantiated : (instantiate a type name span).Ensures Store.Filled m fun _ _ => True :=
      ensures_instantiate filled fun r _ _ =>
        ⟨filled.extend (List.forall_mem_singleton.mpr trivial), trivial⟩
    exact instantiated.bind fun _ m₁ _ filled₁ _ => .pure filled₁ trivial
  | fieldAssignment record field value span =>
    refine fills_of_signal closed passed tracked ?_
    unfold execute
    refine (below .fieldAssigned (tracked.part .fieldAssigned trivial) filled).bind
      fun v m₁ _ filled₁ _ => ?_
    have assigned : (assign a record.name (.field field.name v) span).Ensures Store.Filled m₁
        fun _ _ => True :=
      ensures_assign filled₁ fun store updated =>
        ⟨filled₁.update updated (by rintro _ ⟨⟩), trivial⟩
    exact assigned.bind fun _ m₂ _ filled₂ _ => .pure filled₂ trivial
  | block body span =>
    refine fills_of_signal closed passed tracked ?_
    unfold execute
    exact fills_inBlock (below .block (tracked.enter .block) (filled.push _ _))
  | conditional branches otherwise span =>
    refine fills_of_signal closed passed tracked ?_
    unfold execute
    exact below .conditional (tracked.part .conditional trivial) filled
  | «while» condition body span =>
    refine fills_of_signal closed passed tracked ?_
    unfold execute
    exact (below .while (tracked.part .while trivial) filled).mono fun _ _ _ fits => fits.1
  | print e span =>
    refine fills_of_signal closed passed tracked ?_
    unfold execute
    refine (below .printed (tracked.part .printed trivial) filled).bind
      fun v m₁ _ filled₁ _ => ?_
    exact .bind_of_ok rfl (.pure filled₁ trivial)
  | expression e span =>
    refine fills_of_signal closed passed tracked ?_
    rw [execute_expression]
    exact (below .discarded (tracked.part .discarded trivial) filled).bind
      fun v m₁ _ filled₁ _ => .pure filled₁ trivial
  -- What remains touches no store, and its signal is the one of a sound run.
  | «break» span | «continue» span =>
    refine fills_of_signal closed passed tracked (.pure filled ?_)
    exact ((tracked.sound closed passed admissible_unrestricted).of_ok rfl).2.1
  | function name parameters returnType body span =>
    exact fills_of_signal closed passed tracked (.pure filled trivial)
  | recordType name fields span =>
    exact fills_of_signal closed passed tracked (.pure filled trivial)

theorem fills_executeAll {statements : List Statement}
    (tracked : Tracked Unrestricted program store ⟨fuel + 1, a, .executeAll statements, m⟩ c s)
    (filled : m.store.Filled)
    (below : FillsBelow program store ⟨fuel + 1, a, .executeAll statements, m⟩) :
    Fills ⟨fuel + 1, a, .executeAll statements, m⟩ c s := by
  show (executeAll (fuel + 1) a statements).Ensures Store.Filled m fun signal _ =>
    signal.Fits Present c
  unfold executeAll
  cases statements with
  | nil => exact .pure filled trivial
  | cons statement rest =>
    refine (below .first (tracked.first closed passed) filled).bind
      fun signal m₁ done filled₁ fits => ?_
    cases signal with
    | normal =>
      exact below (.next done) (tracked.next (fits.2 rfl) (holds_unrestricted _)) filled₁
    | _ => exact .pure filled₁ fits.1

omit closed passed in
theorem fills_branches {branches : List Branch} {otherwise : Option Block}
    (tracked : Tracked Unrestricted program store ⟨fuel + 1, a, .branches branches otherwise, m⟩
      c s)
    (filled : m.store.Filled)
    (below : FillsBelow program store ⟨fuel + 1, a, .branches branches otherwise, m⟩) :
    Fills ⟨fuel + 1, a, .branches branches otherwise, m⟩ c s := by
  show (executeBranches (fuel + 1) a branches otherwise).Ensures Store.Filled m fun signal _ =>
    signal.Fits Present c
  unfold executeBranches
  cases branches with
  | nil =>
    cases otherwise with
    | none => exact .pure filled trivial
    | some otherwise =>
      exact fills_inBlock (below .otherwise (tracked.enter .otherwise) (filled.push _ _))
  | cons branch rest =>
    obtain ⟨condition, body, span⟩ := branch
    refine (below .branchCondition (tracked.part .branchCondition trivial) filled).bind
      fun taken m₁ known filled₁ _ => ?_
    have kept := ((framesAt fuel).condition a condition).after known
    cases taken with
    | true =>
      have inBody := below (.branchBody known)
        (tracked.enter_after .branchBody (grows_condition ..).sameScopes kept
          (holds_unrestricted _)) (filled₁.push _ _)
      exact fills_inBlock inBody
    | false =>
      exact below (.nextBranch known) (tracked.part_after .nextBranch
        ((grows_condition ..).sameScopes.trans (grows_scopedBlock ..).sameScopes) kept
        (holds_unrestricted _) trivial) filled₁

omit closed passed in
theorem fills_loop {condition : Expression} {body : Block} {completed : Nat}
    (tracked : Tracked Unrestricted program store
      ⟨fuel + 1, a, .loop condition body span completed, m⟩ c s)
    (filled : m.store.Filled)
    (below : FillsBelow program store ⟨fuel + 1, a, .loop condition body span completed, m⟩) :
    Fills ⟨fuel + 1, a, .loop condition body span completed, m⟩ c s := by
  show (executeLoop (fuel + 1) a condition body span completed).Ensures Store.Filled m
    fun signal _ => signal.Fits Present c ∧ signal ≠ .break ∧ signal ≠ .continue
  unfold executeLoop
  refine (below .loopCondition (tracked.part .loopCondition trivial) filled).bind
    fun again m₁ known filled₁ _ => ?_
  have kept := ((framesAt fuel).condition a condition).after known
  cases again with
  | false => exact .pure filled₁ ⟨trivial, by rintro ⟨⟩, by rintro ⟨⟩⟩
  | true =>
    rw [if_pos rfl]
    refine (ensures_exceededLimit? filled₁).bind fun limit m₂ allowed filled₂ asked => ?_
    obtain ⟨deadline, rfl⟩ := asked
    cases limit with
    | some limit => exact ensures_fail filled₂ _
    | none =>
      have inBody : (executeAll fuel a body.statements).Ensures Store.Filled
          (Machine.enter { m₁ with deadline := deadline } "while" .loop)
          fun signal _ => signal.Fits Present c.inLoopBody :=
        below (.loopBody known allowed)
          (tracked.enter_after .loopBody (grows_condition ..).sameScopes kept
            (holds_unrestricted _)) (filled₂.push _ _)
      refine (Ensures.inScope Store.Filled.truncate inBody).bind
        fun signal m₃ done filled₃ ended => ?_
      have onward : Tracked Unrestricted program store
          ⟨fuel, a, .loop condition body span (completed + 1), m₃⟩ c s :=
        tracked.part_after .nextIteration (.refl _) (sameOutline_of_iteration known done)
          (holds_unrestricted _) trivial
      cases signal with
      | normal => exact below (.nextIteration known allowed done (.inl rfl)) onward filled₃
      | «continue» => exact below (.nextIteration known allowed done (.inr rfl)) onward filled₃
      | «break» => exact .pure filled₃ ⟨trivial, by rintro ⟨⟩, by rintro ⟨⟩⟩
      | «return» value =>
        obtain ⟨left, -, fits, -⟩ := ended
        exact .pure filled₃ ⟨fits, by rintro ⟨⟩, by rintro ⟨⟩⟩

theorem fills_program {statements : List Statement} {last : Option Value}
    (tracked : Tracked Unrestricted program store ⟨fuel, a, .program statements last, m⟩ c s)
    (filled : m.store.Filled)
    (below : FillsBelow program store ⟨fuel, a, .program statements last, m⟩) :
    Fills ⟨fuel, a, .program statements last, m⟩ c s := by
  show (runStatements fuel a statements last).Ensures Store.Filled m fun _ _ => True
  unfold runStatements
  split
  · exact .pure filled trivial
  · next last e span rest =>
    refine (below .topExpression (tracked.part .topExpression trivial) filled).bind
      fun v m₁ known filled₁ _ => ?_
    exact below (.afterTopExpression known)
      (tracked.afterTopExpression closed passed known (holds_unrestricted _)) filled₁
  · next last statement rest other =>
    refine (below (.topStatement other) (tracked.topStatement closed passed) filled).bind
      fun signal m₁ done filled₁ fits => ?_
    cases signal with
    | normal =>
      exact below (.afterTopStatement other done)
        (tracked.afterTopStatement closed passed done (fits.2 rfl) (holds_unrestricted _)) filled₁
    | _ => exact .unwind filled₁

/-- Every task that is tracked and reads no field leaves a filled store filled. -/
theorem Tracked.fills {x : Moment} (tracked : Tracked Unrestricted program store x c s)
    (filled : x.machine.store.Filled) (safe : x.IsSafe) : Fills x c s := by
  induction rank : x.rank using Nat.strongRecOn generalizing x c s with
  | ind n ih =>
    have below : FillsBelow program store x := fun entered tracked filled =>
      ih _ (rank ▸ entered.rank_lt) tracked filled (entered.isSafe safe) rfl
    obtain ⟨fuel, a, task, m⟩ := x
    cases fuel with
    | zero =>
      cases task with
      | program statements last => exact fills_program closed passed tracked filled below
      | _ => exact .unwind filled
    | succ fuel =>
      cases task with
      | evaluate e => exact fills_evaluate closed passed tracked filled safe.unread below
      | evaluateAll es => exact fills_evaluateAll tracked filled below
      | call name arguments span =>
        exact fills_call closed passed tracked filled safe.functions below
      | condition e => exact fills_condition tracked filled below
      | execute statement => exact fills_execute closed passed tracked filled below
      | executeAll statements => exact fills_executeAll closed passed tracked filled below
      | branches branches otherwise => exact fills_branches tracked filled below
      | loop condition body span completed => exact fills_loop tracked filled below
      | program statements last => exact fills_program closed passed tracked filled below

/-- Whatever such a task performs finds its store filled. -/
theorem Tracked.filled_of_enters {x y : Moment} (tracked : Tracked Unrestricted program store x c s)
    (filled : x.machine.store.Filled) (safe : x.IsSafe) (entered : Enters x y) :
    y.machine.store.Filled := by
  have fills : FillsBelow program store x := fun entered tracked filled =>
    tracked.fills closed passed filled (entered.isSafe safe)
  cases entered with
  | right known => exact ((fills .left (tracked.part .left trivial) filled).of_ok known).1
  | nextArguments known =>
    exact ((fills .firstArgument (tracked.part .firstArgument trivial) filled).of_ok known).1
  | body found known allowed bound =>
    obtain ⟨f, -, found', fits⟩ := tracked.callee closed passed rfl
    cases found.symm.trans found'
    obtain ⟨filled₁, typed⟩ :=
      (fills (.arguments found) (tracked.part .arguments trivial) filled).of_ok known
    exact ((fills_bindParameters (filled₁.push _ _) (forall₂_of_arguments fits typed)).of_ok
      bound).1
  | block => exact filled.push _ _
  | guarded => exact filled.push _ _
  | recovery caught bound =>
    have filled₁ := (Ensures.inScope Store.Filled.truncate
      (fills .guarded (tracked.enter .guarded) (filled.push _ _))).of_error caught
    exact ((fills_define (filled₁.push _ _) (Symbol.isFilled_str _)).of_ok bound).1
  | next done => exact ((fills .first (tracked.first closed passed) filled).of_ok done).1
  | otherwise => exact filled.push _ _
  | branchBody taken =>
    exact ((fills .branchCondition (tracked.part .branchCondition trivial) filled).of_ok
      taken).1.push _ _
  | nextBranch fails =>
    exact ((fills .branchCondition (tracked.part .branchCondition trivial) filled).of_ok fails).1
  | loopBody again allowed =>
    obtain ⟨-, -, rfl⟩ := exceededLimit?_eq_none_iff.mp allowed
    exact ((fills .loopCondition (tracked.part .loopCondition trivial) filled).of_ok
      again).1.push _ _
  | @nextIteration fuel a m m₁ m₂ m₃ condition body completed signal span again allowed done =>
    obtain ⟨-, -, rfl⟩ := exceededLimit?_eq_none_iff.mp allowed
    have kept := ((framesAt fuel).condition a condition).after again
    obtain ⟨filled₁, -⟩ :=
      (fills .loopCondition (tracked.part .loopCondition trivial) filled).of_ok again
    exact ((Ensures.inScope Store.Filled.truncate (fills (.loopBody again allowed)
      (tracked.enter_after .loopBody (grows_condition ..).sameScopes kept (holds_unrestricted _))
      (filled₁.push _ _))).of_ok done).1
  | afterTopExpression known =>
    exact ((fills .topExpression (tracked.part .topExpression trivial) filled).of_ok known).1
  | afterTopStatement other done =>
    exact ((fills (.topStatement other) (tracked.topStatement closed passed) filled).of_ok done).1
  | _ => exact filled

theorem Tracked.filled_of_reaches {x y : Moment}
    (tracked : Tracked Unrestricted program store x c s) (filled : x.machine.store.Filled)
    (safe : x.IsSafe) (reached : Reaches x y) : y.machine.store.Filled := by
  induction reached generalizing c s with
  | refl => exact filled
  | step entered _ ih =>
    obtain ⟨c', s', onward⟩ := tracked.enters closed passed admissible_unrestricted entered
    exact ih onward (tracked.filled_of_enters closed passed filled safe entered)
      (entered.isSafe safe)

end

end CheckedScript
