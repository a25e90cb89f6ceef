import CheckedScript.Proofs.Agreement.Messages

/-!
# The caught message does not leak

Every task that a run comes to alongside its check is attuned: by induction on the rank, the tasks
before it leave the messages as they are, so it finds the one of the innermost recover block around
it. An expression that the check has typed as the error accessor therefore reads this message.
-/

namespace CheckedScript

open Check Checking Execution Run Store

variable {bodies : FunctionSymbol → Point → Prop} {x y : Moment} {p q : Point}
  {caught caught' : Option RuntimeError}

/-- Whether the check types the expression as the error accessor. -/
def Store.typesAccessor (s : Store) : Expression → Bool
  | .identifier name _ => s.isErrorAccessor name.name
  | .call name arguments _ => arguments.isEmpty && s.isErrorAccessor name.name
  | _ => false

theorem Check.typeOf_of_typesAccessor {store : Store} {e : Expression}
    (accessor : store.typesAccessor e = true) (c : CheckContext) :
    ∃ span, Check.typeOf store c e = typeOfErrorAccessor c span := by
  cases e with
  | identifier name span =>
    have reads : store.isErrorAccessor name.name = true := accessor
    exact ⟨name.span, by rw [Check.typeOf, typeOfIdentifier, if_pos reads]⟩
  | call name arguments span =>
    have reads : (arguments.isEmpty && store.isErrorAccessor name.name) = true := accessor
    exact ⟨name.span, by rw [Check.typeOf, if_pos reads]⟩
  | _ => cases accessor

/-- The error accessor has a type without an error in recover blocks only. -/
theorem Check.inRecovery_of_typesAccessor {store : Store} {e : Expression} {c : CheckContext}
    {type : Ty} (accessor : store.typesAccessor e = true) (typed : Types store c e type) :
    c.inRecovery = true := by
  obtain ⟨span, same⟩ := typeOf_of_typesAccessor accessor c
  rw [Types, same, typeOfErrorAccessor] at typed
  split at typed
  · next inside => exact inside
  · simp [SemanticError.isWarning] at typed

namespace Attuned

/-! ## What a task leaves as it was -/

/-- An assignment that passes its check does not reach a message. -/
theorem isErrorAccessor_eq_false (attuned : Attuned bodies x p caught) {name : Identifier}
    {value : Expression} {span : Span} (task : x.task = .execute (.assignment name value span)) :
    x.machine.store.isErrorAccessor name.name = false := by
  obtain ⟨c, s, task'⟩ := p
  obtain rfl : task' = .execute (.assignment name value span) := attuned.task.trans task
  have clean : (checkStatement c (.assignment name value span) s).Clean := attuned.accepted
  unfold checkStatement at clean
  obtain ⟨type, held, found, -⟩ := of_clean_assignment clean
  refine isErrorAccessor_eq_false_of_marks attuned.marks attuned.placed.stands.kind
    (Option.isSome_of_eq_some found) ?_
  unfold assignment at clean
  dsimp only at clean
  split at clean
  · exact absurd clean (not_clean_report rfl)
  · next other => exact Bool.eq_false_iff.mpr other

/-- The body of the function that is called. -/
theorem of_calls (attuned : Attuned bodies x p caught)
    (below : ∀ {y q caught}, Enters x y → Attuned bodies y q caught → y.Spares)
    {f : FunctionSymbol} (calls : Calls x f y) (checked : f.CheckedAt q) :
    Attuned bodies y q none := by
  obtain ⟨c, s, task⟩ := p
  obtain rfl : task = x.task := attuned.task
  cases calls with
  | intro found known allowed bound =>
    have before := attuned.part (.arguments found) .arguments rfl (.refl _) rfl
    have messages := (below (.arguments found) before).after attuned.shielded known
    exact attuned.body found known allowed bound messages checked

/-- A part of the program that is performed at once. -/
theorem pursues_part (attuned : Attuned bodies x p caught) (entered : Enters x y)
    (walks : Walks p q) (same : q.task = y.task)
    (scopes : p.checking.store.SameScopes q.checking.store) (machine : y.machine = x.machine)
    (level : q.context.recoverDepth = p.context.recoverDepth)
    (ordinary : ∀ error, ¬ Recovers x error y) :
    ∃ q caught', Pursues bodies x p caught y q caught' ∧ Attuned bodies y q caught' :=
  ⟨q, caught, .part walks same level ordinary, attuned.part entered walks same scopes machine⟩

/-- Whatever an attuned task performs is attuned, if what it performs before leaves the messages as
they are. -/
theorem pursues (checked : ∀ f q, bodies f q → f.CheckedAt q)
    (attuned : Attuned bodies x p caught)
    (below : ∀ {y q caught}, Enters x y → Attuned bodies y q caught → y.Spares)
    (entered : Enters x y) :
    ∃ q caught', Pursues bodies x p caught y q caught' ∧ Attuned bodies y q caught' := by
  obtain ⟨c, s, task⟩ := p
  obtain rfl : task = x.task := attuned.task
  have shielded := attuned.shielded
  cases entered with
  | position =>
    exact attuned.pursues_part .position .position rfl (.refl _) rfl rfl (by rintro _ ⟨⟩)
  | called function =>
    exact attuned.pursues_part (.called function) (.called (not_errorAccessor function)) rfl
      (.refl _) rfl rfl (by rintro _ ⟨⟩)
  | operand =>
    exact attuned.pursues_part .operand .operand rfl (.refl _) rfl rfl (by rintro _ ⟨⟩)
  | left => exact attuned.pursues_part .left .left rfl (.refl _) rfl rfl (by rintro _ ⟨⟩)
  | @right fuel a m m₁ operator left right v span known undecided =>
    have before := attuned.part .left .left rfl (.refl _) rfl
    have messages := (below .left before).after shielded known
    exact ⟨_, _, .part .right rfl rfl (by rintro _ ⟨⟩), attuned.part_after (.right known undecided)
      .right rfl (.refl _) (((framesAt fuel).evaluate a left).after known) messages⟩
  | inner => exact attuned.pursues_part .inner .inner rfl (.refl _) rfl rfl (by rintro _ ⟨⟩)
  | firstArgument =>
    exact attuned.pursues_part .firstArgument .firstArgument rfl (.refl _) rfl rfl
      (by rintro _ ⟨⟩)
  | @nextArguments fuel a m m₁ e rest v known =>
    have before := attuned.part .firstArgument .firstArgument rfl (.refl _) rfl
    have messages := (below .firstArgument before).after shielded known
    exact ⟨_, _, .part .nextArguments rfl rfl (by rintro _ ⟨⟩), attuned.part_after
      (.nextArguments known) .nextArguments rfl (.refl _) (((framesAt fuel).evaluate a e).after known)
      messages⟩
  | arguments found =>
    exact attuned.pursues_part (.arguments found) .arguments rfl (.refl _) rfl rfl
      (by rintro _ ⟨⟩)
  | body found known allowed bound =>
    have calls := Calls.intro found known allowed bound
    obtain ⟨q, inside⟩ := attuned.functions.of_lookup? found _ rfl
    exact ⟨q, none, .body calls inside, attuned.of_calls below calls (checked _ q inside)⟩
  | truth => exact attuned.pursues_part .truth .truth rfl (.refl _) rfl rfl (by rintro _ ⟨⟩)
  | initializer =>
    exact attuned.pursues_part .initializer .initializer rfl (.refl _) rfl rfl (by rintro _ ⟨⟩)
  | assigned =>
    exact attuned.pursues_part .assigned .assigned rfl (.refl _) rfl rfl (by rintro _ ⟨⟩)
  | fieldAssigned =>
    exact attuned.pursues_part .fieldAssigned .fieldAssigned rfl (.refl _) rfl rfl
      (by rintro _ ⟨⟩)
  | block =>
    exact ⟨_, _, .part .block rfl rfl (by rintro _ ⟨⟩), attuned.enter_after .block .block rfl rfl rfl
      rfl (by decide) (.refl _) (.refl _) (.refl _)⟩
  | conditional =>
    exact attuned.pursues_part .conditional .conditional rfl (.refl _) rfl rfl (by rintro _ ⟨⟩)
  | «while» =>
    exact attuned.pursues_part .while .while rfl (.refl _) rfl rfl (by rintro _ ⟨⟩)
  | returned =>
    exact attuned.pursues_part .returned .returned rfl (.refl _) rfl rfl (by rintro _ ⟨⟩)
  | printed =>
    exact attuned.pursues_part .printed .printed rfl (.refl _) rfl rfl (by rintro _ ⟨⟩)
  | guarded =>
    refine ⟨_, _, .part .guarded rfl rfl ?_, attuned.enter_after .guarded .guarded rfl rfl rfl rfl
      (by decide) (.refl _) (.refl _) (.refl _)⟩
    exact fun _ recovers => Bool.false_ne_true recovers.unguarded.symm
  | @recovery fuel a m m₁ m₂ guarded recovery error span caught bound =>
    have before : Attuned bodies
        ⟨fuel, a.inGuard, .executeAll guarded.statements, m.enter "try" .guarded⟩ _ _ :=
      attuned.enter_after .guarded .guarded rfl rfl rfl rfl (by decide) (.refl _) (.refl _) (.refl _)
    have tried : (Run.inScope "try" .guarded (executeAll fuel a.inGuard guarded.statements)).Spares
      m := Spares.inScope rfl (below .guarded before)
    exact ⟨_, _, .recovery (.intro caught bound) .recovery rfl rfl,
      attuned.recovery caught bound (tried.after shielded caught)⟩
  | discarded =>
    exact attuned.pursues_part .discarded .discarded rfl (.refl _) rfl rfl (by rintro _ ⟨⟩)
  | first => exact attuned.pursues_part .first .first rfl (.refl _) rfl rfl (by rintro _ ⟨⟩)
  | @next fuel a m m₁ statement rest done =>
    have before := attuned.part .first .first rfl (.refl _) rfl
    exact ⟨_, _, .part .next rfl rfl (by rintro _ ⟨⟩),
      attuned.next done ((below .first before).after shielded done)⟩
  | otherwise =>
    exact ⟨_, _, .part .otherwise rfl rfl (by rintro _ ⟨⟩), attuned.enter_after .otherwise .otherwise
      rfl rfl rfl rfl (by decide) (.refl _) (.refl _) (.refl _)⟩
  | branchCondition =>
    exact attuned.pursues_part .branchCondition .branchCondition rfl (.refl _) rfl rfl
      (by rintro _ ⟨⟩)
  | @branchBody fuel a m m₁ condition body rest otherwise span taken =>
    have before := attuned.part .branchCondition .branchCondition rfl (.refl _) rfl
    have messages := (below .branchCondition before).after shielded taken
    exact ⟨_, _, .part .branchBody rfl rfl (by rintro _ ⟨⟩), attuned.enter_after (.branchBody taken)
      .branchBody rfl rfl rfl rfl (by decide) (grows_condition ..).sameScopes
      (((framesAt fuel).condition a condition).after taken) messages⟩
  | @nextBranch fuel a m m₁ condition body rest otherwise span fails =>
    have before := attuned.part .branchCondition .branchCondition rfl (.refl _) rfl
    have messages := (below .branchCondition before).after shielded fails
    exact ⟨_, _, .part .nextBranch rfl rfl (by rintro _ ⟨⟩), attuned.part_after (.nextBranch fails)
      .nextBranch rfl ((grows_condition ..).sameScopes.trans (grows_scopedBlock ..).sameScopes)
      (((framesAt fuel).condition a condition).after fails) messages⟩
  | loopCondition =>
    exact attuned.pursues_part .loopCondition .loopCondition rfl (.refl _) rfl rfl
      (by rintro _ ⟨⟩)
  | @loopBody fuel a m m₁ m₂ condition body completed span again allowed =>
    obtain ⟨-, -, rfl⟩ := exceededLimit?_eq_none_iff.mp allowed
    have before := attuned.part .loopCondition .loopCondition rfl (.refl _) rfl
    have messages := (below .loopCondition before).after shielded again
    have kept := ((framesAt fuel).condition a condition).after again
    exact ⟨_, _, .part .loopBody rfl rfl (by rintro _ ⟨⟩), attuned.enter_after
      (.loopBody again allowed) .loopBody rfl rfl rfl rfl (by decide) (grows_condition ..).sameScopes
      kept messages⟩
  | @nextIteration fuel a m m₁ m₂ m₃ condition body completed signal span again allowed done
      onward =>
    obtain ⟨-, -, rfl⟩ := exceededLimit?_eq_none_iff.mp allowed
    have before := attuned.part .loopCondition .loopCondition rfl (.refl _) rfl
    have messages := (below .loopCondition before).after shielded again
    have kept := ((framesAt fuel).condition a condition).after again
    have entered := attuned.enter_after (.loopBody again allowed) .loopBody rfl rfl rfl rfl
      (by decide) (grows_condition ..).sameScopes kept messages
    have iterated : (Run.inScope "while" .loop (executeAll fuel a body.statements)).Spares
        { m₁ with deadline := m₁.deadline.later } :=
      Spares.inScope rfl (below (.loopBody again allowed) entered)
    have spared := iterated.after (messages.shielded shielded) done
    exact ⟨_, _, .part .nextIteration rfl rfl (by rintro _ ⟨⟩), attuned.part_after
      (.nextIteration again allowed done onward) .nextIteration rfl (.refl _)
      (sameOutline_of_iteration again done) (messages.trans spared)⟩
  | topExpression =>
    exact attuned.pursues_part .topExpression .topExpression rfl (.refl _) rfl rfl
      (by rintro _ ⟨⟩)
  | @afterTopExpression fuel a m m₁ e rest last v span known =>
    have before := attuned.part .topExpression .topExpression rfl (.refl _) rfl
    exact ⟨_, _, .part .afterTop rfl rfl (by rintro _ ⟨⟩), attuned.afterTop
      (.afterTopExpression known) (((framesAt fuel).evaluate a e).after known).locals_eq_nil_iff
      ((below .topExpression before).after shielded known)⟩
  | @topStatement fuel a m statement rest last other =>
    exact attuned.pursues_part (.topStatement other) .topStatement rfl (.refl _) rfl rfl
      (by rintro _ ⟨⟩)
  | @afterTopStatement fuel a m m₁ statement rest last other done =>
    have before := attuned.part (.topStatement other) .topStatement rfl (.refl _) rfl
    obtain ⟨added, binds⟩ := binds_execute done
    exact ⟨_, _, .part .afterTop rfl rfl (by rintro _ ⟨⟩), attuned.afterTop
      (.afterTopStatement other done)
      (binds.kept.locals_eq_nil_iff.trans extend_locals_eq_nil_iff)
      ((below (.topStatement other) before).after shielded done)⟩

/-- Every attuned task leaves the messages as they are. -/
theorem spares (checked : ∀ f q, bodies f q → f.CheckedAt q)
    (attuned : Attuned bodies x p caught) : x.Spares := by
  induction rank : x.rank using Nat.strongRecOn generalizing x p caught with
  | ind n ih =>
    have below : ∀ {y q caught}, Enters x y → Attuned bodies y q caught → y.Spares :=
      fun entered attuned => ih _ (rank ▸ entered.rank_lt) attuned rfl
    refine Moment.spares (fun name value span => attuned.isErrorAccessor_eq_false) ?_
    intro y entered
    obtain ⟨q, caught', -, attuned'⟩ := attuned.pursues checked below entered
    exact below entered attuned'

/-- Wherever the check is said to stand at a task that is entered, the task is attuned there. -/
theorem pursued (checked : ∀ f q, bodies f q → f.CheckedAt q)
    (attuned : Attuned bodies x p caught) (entered : Enters x y)
    (pursues : Pursues bodies x p caught y q caught') : Attuned bodies y q caught' := by
  have below : ∀ {y q caught}, Enters x y → Attuned bodies y q caught → y.Spares :=
    fun _ attuned => attuned.spares checked
  obtain ⟨q', caught'', found, attuned'⟩ := attuned.pursues checked below entered
  cases pursues with
  | part walks same level ordinary =>
    cases found with
    | part walks' same' level' _ =>
      rwa [walks'.eq_of_task walks (same.trans same'.symm) (level.trans level'.symm)]
    | recovery recovers => exact absurd recovers (ordinary _)
    | body calls => exact absurd same (calls.task_ne attuned.task walks)
  | recovery recovers walks same deeper =>
    cases found with
    | part _ _ _ ordinary => exact absurd recovers (ordinary _)
    | recovery recovers' walks' same' deeper' =>
      rw [recovers'.eq recovers]
      rwa [walks'.eq_of_task walks (same.trans same'.symm) (deeper.trans deeper'.symm)]
    | body calls => exact absurd recovers (calls.not_recovers _ _)
  | body calls inside => exact attuned.of_calls below calls (checked _ _ inside)

/-! ## What an expression reads -/

/-- The name that the check has typed as the error accessor is bound to the message of the error that
the innermost recover block has caught. -/
theorem lookup?_of_accessor (attuned : Attuned bodies x p caught) {name : String}
    (accessor : p.checking.store.isErrorAccessor name = true)
    (inside : p.context.inRecovery = true) :
    ∃ error, caught = some error ∧ x.machine.store.lookup? name = some error.symbol := by
  obtain ⟨rfl, scope, resolved, holds⟩ := isErrorAccessor_iff.mp accessor
  have stands := attuned.placed.stands
  obtain ⟨innermost, found⟩ := Option.isSome_iff_exists.mp (stands.message inside)
  rw [Store.resolve?, found] at resolved
  obtain rfl : innermost = scope := Option.some.inj resolved
  -- No local scope is global, so the check has found the scope of a recover block.
  have recovery : innermost.kind = .recovery := by
    have nested := (stands.locals innermost (mem_of_findLocal?_eq_some found)).kind
    cases kind : innermost.kind with
    | recovery => rfl
    | global => exact absurd kind nested
    | _ => simp [kind, ScopeKind.holdsMessage] at holds
  obtain ⟨scope', found', kinds⟩ := kind_findLocal?_of_marks attuned.marks.symm found
  have bound := contains_of_findLocal?_eq_some found'
  have held := find?_of_findLocal?
    (fun scope active => attuned.shielded scope (List.mem_cons_of_mem _ active)) found'
    (kinds.trans recovery)
  rw [attuned.message] at held
  cases caught with
  | none =>
    rw [Bindings.contains, held] at bound
    cases bound
  | some error =>
    refine ⟨error, rfl, ?_⟩
    simp [Store.lookup?, Store.resolve?, found', held]

/-- What the check has typed as the error accessor reads the message of the error that the innermost
recover block has caught. -/
theorem evaluate_of_typesAccessor {fuel : Nat} {a : Activation} {m : Machine} {e : Expression}
    (attuned : Attuned bodies ⟨fuel + 1, a, .evaluate e, m⟩ p caught)
    (accessor : p.checking.store.typesAccessor e = true) :
    ∃ error, caught = some error ∧
      evaluate (fuel + 1) a e m = (.ok (.str error.message), m) := by
  obtain ⟨c, s, task⟩ := p
  obtain rfl : task = .evaluate e := attuned.task
  obtain ⟨type, typed⟩ : ∃ type, Types s.store c e type := attuned.accepted
  have inside := inRecovery_of_typesAccessor accessor typed
  cases e with
  | identifier name span =>
    obtain ⟨error, caught, bound⟩ := attuned.lookup?_of_accessor accessor inside
    refine ⟨error, caught, ?_⟩
    rw [evaluate, readVariable_apply, bound]
    rfl
  | call name arguments span =>
    obtain ⟨given, named⟩ := (Bool.and_eq_true _ _).mp accessor
    obtain ⟨error, caught, bound⟩ := attuned.lookup?_of_accessor named inside
    refine ⟨error, caught, ?_⟩
    have reads : (name.name == errorAccessor && arguments.isEmpty) = true := by
      rw [given, Bool.and_true, beq_iff_eq]
      exact (isErrorAccessor_iff.mp named).1
    rw [evaluate, if_pos reads, readVariable_apply, bound]
    rfl
  | _ => cases accessor

end Attuned

/-! ## Whole runs -/

namespace Execution

variable {start : Moment} {begun : Point}

theorem Alongside.attuned (checked : ∀ f q, bodies f q → f.CheckedAt q)
    (attuned : Attuned bodies start begun none)
    (alongside : Alongside bodies start begun x p caught) : Attuned bodies x p caught := by
  induction alongside with
  | start => exact attuned
  | step _ entered pursues ih => exact ih.pursued checked entered pursues

/-- A check stands alongside every task that a run comes to. -/
theorem Alongside.exists_of_reaches (checked : ∀ f q, bodies f q → f.CheckedAt q)
    (attuned : Attuned bodies start begun none)
    (alongside : Alongside bodies start begun x p caught) (reached : Reaches x y) :
    ∃ q caught', Alongside bodies start begun y q caught' := by
  induction reached generalizing p caught with
  | refl => exact ⟨p, caught, alongside⟩
  | step entered _ ih =>
    obtain ⟨q, caught', pursues, -⟩ := (alongside.attuned checked attuned).pursues checked
      (fun _ attuned => attuned.spares checked) entered
    exact ih (alongside.step entered pursues)

end Execution

end CheckedScript
