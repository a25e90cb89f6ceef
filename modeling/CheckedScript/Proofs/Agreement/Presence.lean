import CheckedScript.Proofs.Agreement.Filled
import CheckedScript.Proofs.Agreement.Programs
import CheckedScript.Proofs.Execution.Returning
import CheckedScript.Proofs.Execution.Safe

/-!
# Expressions that yield values

Where a store is filled and no field is read, an expression that is tracked yields a value of its
type, and the store stays filled. A value could be missing after a call whose body has run to its
end, which complete functions rule out, and in the builtin that stands for the caught message, which
the check lets nobody read: inside a recover block the name is bound to a message.
-/

namespace CheckedScript

open Check Checking Execution Run

namespace Present

variable {type found found' : Ty} {span : Span} {v w u : Value}

theorem numberArray (elements : List NumberLiteral) :
    Present (numberArrayType elements) (Execution.numberArray elements) :=
  .inr ((Conforms.numberArray elements).resolve_left nofun)

theorem mapped {α : Type} {f : α → Value} (typed : ∀ x, (f x).HasType type) (elements : List α) :
    Present (.array type) (.array (elements.map f)) :=
  .inr ((Conforms.mapped typed elements).resolve_left nofun)

theorem element {elements : List Value} (present : Present (.array type) (.array elements))
    (inside : v ∈ elements) : Present type v := by
  cases present.hasType nofun with
  | array each => exact .inr (each v inside)

/-- The operand of an operator is a value of the type that was found for it. -/
theorem hasType_of_unary {operator : UnaryOperator}
    (gives : (typeOfUnary operator found span).Gives type) (present : Present found v) :
    v.HasType found := by
  refine present.hasType ?_
  rintro rfl
  cases operator <;> simp [typeOfUnary, Ty.isNumeric, SemanticError.isWarning] at gives

theorem applyUnary {operator : UnaryOperator}
    (gives : (typeOfUnary operator found span).Gives type) (present : Present found v)
    (applied : Value.applyUnary operator v = .ok u) : Present type u := by
  rcases Value.applyUnary_typed gives (hasType_of_unary gives present) with
    ⟨u', result, typed⟩ | overflow
  · cases result.symm.trans applied
    exact .inr typed
  · cases overflow.symm.trans applied

/-- So are the operands of a binary operator. -/
theorem hasType_of_binary {operator : BinaryOperator}
    (gives : (typeOfBinary operator (some found) (some found') span).Gives type)
    (present : Present found v) (present' : Present found' w) :
    v.HasType found ∧ w.HasType found' :=
  let ⟨nonvoid, nonvoid', _⟩ := gives_typeOfBinary gives
  ⟨present.hasType nonvoid, present'.hasType nonvoid'⟩

theorem applyBinary {operator : BinaryOperator}
    (gives : (typeOfBinary operator (some found) (some found') span).Gives type)
    (present : Present found v) (present' : Present found' w)
    (applied : Value.applyBinary operator v w = .ok u) : Present type u :=
  let ⟨typed, typed'⟩ := hasType_of_binary gives present present'
  .inr ((Value.applyBinary_typed gives typed typed').1 u applied)

end Present

variable {program : Program} {store : Store} {fuel : Nat} {a : Activation} {m m₁ : Machine}
  {c : CheckContext} {s : Checking} {span : Span}

/-- What is to be shown of a task in a store that is filled. -/
def Fills (x : Moment) (c : CheckContext) (s : Checking) : Prop :=
  (x.task.perform x.fuel x.activation).Ensures Store.Filled x.machine
    (Task.Fits Present c s x.task)

/-- The tasks that this one performs fill where they are tracked. -/
def FillsBelow (program : Program) (store : Store) (x : Moment) : Prop :=
  ∀ {y : Moment} {c : CheckContext} {s : Checking}, Enters x y →
    Tracked Unrestricted program store y c s → y.machine.store.Filled → Fills y c s

/-- A part that is performed after the evaluation of an expression is tracked. -/
theorem Tracked.part_after_evaluate {task task' : Task} {e : Expression} {v : Value}
    (tracked : Tracked Unrestricted program store ⟨fuel + 1, a, task, m⟩ c s)
    (walks : Walks ⟨c, s, task⟩ ⟨c, s, task'⟩) (known : evaluate fuel a e m = (.ok v, m₁))
    (ready : task'.Ready s.store m₁.store) :
    Tracked Unrestricted program store ⟨fuel, a, task', m₁⟩ c s :=
  tracked.part_after walks (.refl _) (((framesAt fuel).evaluate a e).after known)
    (holds_unrestricted _) ready

/-! ## Names -/

/-- An expression of the name of the error accessor has found it in a local scope. -/
theorem isSome_findLocal?_of_types {t : Store} {name : Identifier} {type : Ty} (stands : c.Stands t)
    (typed : Types t c (.identifier name span) type) (named : name.name = errorAccessor) :
    (Store.findLocal? name.name t.locals).isSome := by
  unfold Types Check.typeOf typeOfIdentifier at typed
  split at typed
  · rw [named]
    refine stands.message ?_
    unfold typeOfErrorAccessor at typed
    split at typed
    · next inside => exact inside
    · simp [SemanticError.isWarning] at typed
  -- What is not the builtin is bound in no other place than a local scope.
  · next ordinary =>
    by_contra outside
    rw [Bool.not_eq_true, Option.isSome_eq_false_iff, Option.isNone_iff_eq_none] at outside
    split at typed
    · next declared value bound =>
      have global := Store.contains_global_of_lookup? (by rw [bound]; rfl) outside
      have resolved : t.resolve? name.name = some t.global := by
        simp [Store.resolve?, outside, global]
      refine ordinary ?_
      rw [Store.isErrorAccessor, Store.resolvingKind?, resolved]
      simp [named, stands.kind]
    · exact absurd typed Typing.not_gives_unknown
    · exact absurd typed Typing.not_gives_unknown

section

variable {x : Moment} {name : Identifier} {declared type : Ty} {v : Value}
  (tracked : Tracked Unrestricted program store x c s) (filled : x.machine.store.Filled)
  (found : x.machine.store.lookup? name.name = some (.variable declared v))

include tracked filled found

/-- A name that the check has found in a local scope is not the builtin. -/
theorem Tracked.present_of_local (active : (Store.findLocal? name.name s.store.locals).isSome) :
    Present declared v := by
  obtain ⟨scope, active⟩ := Option.isSome_iff_exists.mp active
  obtain ⟨scope', active', -⟩ := tracked.agrees.locals.findLocal?_eq_some active
  exact filled.of_findLocal? active' found

variable (closed : store.Closed) (passed : (checkProgram program store).passed = true)

include closed passed

theorem Tracked.present_identifier (typed : Types s.store c (.identifier name span) type) :
    Present type v := by
  obtain ⟨value, found'⟩ := tracked.identifier closed passed typed
  cases found.symm.trans found'
  by_cases named : name.name = errorAccessor
  · exact tracked.present_of_local filled found
      (isSome_findLocal?_of_types (tracked.stands closed passed) typed named)
  · exact filled.of_lookup? found fun builtin => named builtin.1

/-- The message that a call reads is the one that a recover block has bound. -/
theorem Tracked.present_message {arguments : List Expression}
    (accessor : (name.name == errorAccessor && arguments.isEmpty) = true)
    (typed : Types s.store c (.call name arguments span) type) : Present type v := by
  have stands := tracked.stands closed passed
  obtain ⟨value, found'⟩ := tracked.message closed passed accessor typed
  cases found.symm.trans found'
  obtain ⟨named, none⟩ := Bool.and_eq_true_iff.mp accessor
  have inside : c.inRecovery = true := by
    cases builtin : s.store.isErrorAccessor name.name with
    | true => exact (types_errorAccessor (by simp [none, builtin]) typed).1
    | false =>
      obtain ⟨f, bound, -, -⟩ := types_call (by simp [builtin]) typed
      rw [stands.isErrorAccessor_of_function bound, named] at builtin
      cases builtin
  exact tracked.present_of_local filled found (beq_iff_eq.mp named ▸ stands.message inside)

end

/-! ## Expressions -/

section

variable (closed : store.Closed) (passed : (checkProgram program store).passed = true)

include closed passed

theorem fills_evaluate {e : Expression}
    (tracked : Tracked Unrestricted program store ⟨fuel + 1, a, .evaluate e, m⟩ c s)
    (filled : m.store.Filled) (unread : e.readsField = false)
    (below : FillsBelow program store ⟨fuel + 1, a, .evaluate e, m⟩) :
    Fills ⟨fuel + 1, a, .evaluate e, m⟩ c s := by
  show (evaluate (fuel + 1) a e).Ensures Store.Filled m fun v _ =>
    ∀ type, Types s.store c e type → Present type v
  unfold evaluate
  cases e with
  | integer w => exact .pure filled fun type typed => Typing.gives_known.mp typed ▸ .inr (.int w)
  | float x => exact .pure filled fun type typed => Typing.gives_known.mp typed ▸ .inr (.float x)
  | str text => exact .pure filled fun type typed => Typing.gives_known.mp typed ▸ .inr (.str text)
  | char x => exact .pure filled fun type typed => Typing.gives_known.mp typed ▸ .inr (.char x)
  | boolean b => exact .pure filled fun type typed => Typing.gives_known.mp typed ▸ .inr (.bool b)
  | numberArray elements =>
    exact .pure filled fun type typed =>
      Typing.gives_known.mp typed ▸ Present.numberArray elements
  | charArray elements =>
    exact .pure filled fun type typed =>
      Typing.gives_known.mp typed ▸ Present.mapped Value.HasType.char elements
  | strArray elements =>
    exact .pure filled fun type typed =>
      Typing.gives_known.mp typed ▸ Present.mapped Value.HasType.str elements
  | identifier name span =>
    exact ensures_readVariable filled fun _ value found type typed =>
      tracked.present_identifier filled found closed passed typed
  | fieldAccess record field span => cases unread
  | index array index span =>
    refine (below .position (tracked.part .position trivial) filled).bind
      fun i m₁ known filled₁ _ => ?_
    cases i with
    | int w =>
      refine ensures_readElement filled₁ fun declared elements element found inside type typed => ?_
      have tracked₁ : Tracked Unrestricted program store ⟨fuel, a, .evaluate index, m₁⟩ c s :=
        tracked.part_after_evaluate .position known trivial
      obtain ⟨value', found'⟩ := tracked₁.array typed
      cases found.symm.trans found'
      exact (filled₁.present_array found).element inside
    | _ => exact ensures_fail filled₁ _
  | call name arguments span =>
    dsimp only
    split
    · next accessor =>
      exact ensures_readVariable filled fun _ value found type typed =>
        tracked.present_message filled found closed passed accessor typed
    · next function =>
      rw [Bool.not_eq_true] at function
      have onward : Walks ⟨c, s, .evaluate (.call name arguments span)⟩
          ⟨c, s, .call name arguments span⟩ := .called (not_errorAccessor function)
      refine (below (.called function) (tracked.part onward trivial) filled).mono
        fun v m' _ fits type typed => ?_
      obtain ⟨f, found, rfl, -⟩ := types_call (not_errorAccessor function) typed
      exact fits f found
  | unary operator operand span =>
    refine (below .operand (tracked.part .operand trivial) filled).bind
      fun v m₁ known filled₁ fits => ?_
    refine ensures_yield filled₁ fun w applied type typed => ?_
    obtain ⟨found, operandTyped, gives⟩ := types_unary typed
    exact Present.applyUnary gives (fits found operandTyped) applied
  | binary operator left right span =>
    refine (below .left (tracked.part .left trivial) filled).bind fun v m₁ known filled₁ fits => ?_
    split
    · next decided =>
      refine .pure filled₁ fun type typed => ?_
      obtain ⟨found, found', -, -, gives⟩ := types_binary typed
      obtain ⟨rfl, b, rfl⟩ := types_bool_of_decides decided gives
      exact .inr (.bool b)
    · next undecided =>
      rw [Bool.not_eq_true] at undecided
      have tracked₁ : Tracked Unrestricted program store ⟨fuel, a, .evaluate right, m₁⟩ c s :=
        tracked.part_after_evaluate .right known trivial
      refine (below (.right known undecided) tracked₁ filled₁).bind
        fun v' m₂ known' filled₂ fits' => ?_
      refine ensures_yield filled₂ fun w applied type typed => ?_
      obtain ⟨found, found', leftTyped, rightTyped, gives⟩ := types_binary typed
      exact Present.applyBinary gives (fits found leftTyped) (fits' found' rightTyped) applied
  | parenthesized inner span =>
    exact (below .inner (tracked.part .inner trivial) filled).mono
      fun v m' _ fits type typed => fits type typed

omit closed passed in
theorem fills_evaluateAll {es : List Expression}
    (tracked : Tracked Unrestricted program store ⟨fuel + 1, a, .evaluateAll es, m⟩ c s)
    (filled : m.store.Filled) (below : FillsBelow program store ⟨fuel + 1, a, .evaluateAll es, m⟩) :
    Fills ⟨fuel + 1, a, .evaluateAll es, m⟩ c s := by
  show (evaluateAll (fuel + 1) a es).Ensures Store.Filled m fun vs _ =>
    List.Forall₂ (fun e v => ∀ type, Types s.store c e type → Present type v) es vs
  unfold evaluateAll
  cases es with
  | nil => exact .pure filled .nil
  | cons e rest =>
    refine (below .firstArgument (tracked.part .firstArgument trivial) filled).bind
      fun v m₁ known filled₁ fits => ?_
    have tracked₁ : Tracked Unrestricted program store ⟨fuel, a, .evaluateAll rest, m₁⟩ c s :=
      tracked.part_after_evaluate .nextArguments known trivial
    refine (below (.nextArguments known) tracked₁ filled₁).bind fun vs m₂ _ filled₂ fits' => ?_
    exact .pure filled₂ (.cons fits fits')

omit closed passed in
theorem fills_condition {e : Expression}
    (tracked : Tracked Unrestricted program store ⟨fuel + 1, a, .condition e, m⟩ c s)
    (filled : m.store.Filled) (below : FillsBelow program store ⟨fuel + 1, a, .condition e, m⟩) :
    Fills ⟨fuel + 1, a, .condition e, m⟩ c s := by
  show (evaluateCondition (fuel + 1) a e).Ensures Store.Filled m fun _ _ => True
  unfold evaluateCondition
  refine (below .truth (tracked.part .truth trivial) filled).bind fun v m₁ known filled₁ _ => ?_
  cases v with
  | bool b => exact .pure filled₁ trivial
  | _ => exact ensures_fail filled₁ _

theorem fills_call {name : Identifier} {arguments : List Expression}
    (tracked : Tracked Unrestricted program store ⟨fuel + 1, a, .call name arguments span, m⟩ c s)
    (filled : m.store.Filled) (functions : m.store.EveryFunction FunctionSymbol.IsSafe)
    (below : FillsBelow program store ⟨fuel + 1, a, .call name arguments span, m⟩) :
    Fills ⟨fuel + 1, a, .call name arguments span, m⟩ c s := by
  obtain ⟨f, declared, found, fits⟩ := tracked.callee closed passed rfl
  show (call (fuel + 1) a name arguments span).Ensures Store.Filled m fun v _ =>
    ∀ f, s.store.lookup? name.name = some (.function f) → Present f.returnType v
  unfold call
  refine .bind_of_ok (calledFunction_eq_ok_iff.mpr ⟨found, rfl⟩) ?_
  refine (below (.arguments found) (tracked.part .arguments trivial) filled).bind
    fun values m₁ known filled₁ typed => ?_
  cases allowed : callFault? a f values with
  | some fault => exact ensures_fail filled₁ fault
  | none =>
    obtain ⟨m₂, s', bound, inBody⟩ := tracked.body closed passed found known (holds_unrestricted _)
      (typed.imp fun _ _ _ _ _ => trivial)
    obtain ⟨filled₂, -⟩ := (fills_bindParameters (filled₁.push f.name .function)
      (forall₂_of_arguments fits typed)).of_ok bound
    have body : (executeAll fuel a.inCall f.body.statements).Ensures Store.Filled m₂ fun signal _ =>
      signal.Fits Present f.context := below (.body found known allowed bound) inBody filled₂
    refine (Ensures.inScope Store.Filled.truncate (.bind_of_ok bound body)).bind
      fun signal m₃ _ filled₃ ended => ?_
    obtain ⟨left, done, fits, -⟩ := ended
    cases signal with
    | normal =>
      refine .pure filled₃ fun f' declared' => ?_
      cases declared.symm.trans declared'
      rcases (functions.of_lookup? found f rfl).complete with void | returns
      · exact .inl void
      · obtain ⟨_, m₂', -, ended⟩ := bind_eq_ok_iff.mp done
        exact absurd ended
          (diverts_of_anyReturns fuel a.inCall (Block.anyReturns_statements returns) m₂' left)
    | «return» value =>
      refine .pure filled₃ fun f' declared' => ?_
      cases declared.symm.trans declared'
      obtain ⟨_, ⟨⟩, fits⟩ := fits
      exact fits
    | «break» => exact ensures_fail filled₃ _
    | «continue» => exact ensures_fail filled₃ _

end

end CheckedScript
