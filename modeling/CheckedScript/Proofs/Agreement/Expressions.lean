import CheckedScript.Proofs.Agreement.Tracking

/-!
# Expressions that are tracked

An expression that is tracked yields a value that is allowed for its type, if the tasks that it
performs do what is to be shown of them. A call performs the body of the function that the check has
found under its name, in a scope that declares what the check has declared there.
-/

namespace CheckedScript

open Check Checking Execution Run

/-- The tasks that this one performs are sound where they are tracked. -/
def SoundBelow (V : Ty → Value → Prop) (program : Program) (store : Store) (x : Moment) : Prop :=
  ∀ {y : Moment} {c : CheckContext} {s : Checking}, Enters x y →
    Tracked V program store y c s → Sound V y c s

variable {V : Ty → Value → Prop} {program : Program} {store : Store} {fuel : Nat}
  {a : Activation} {m m₁ : Machine} {c : CheckContext} {s : Checking} {span : Span}

/-- Where a call does not read the caught message, the check has not taken it for that either. -/
theorem not_errorAccessor {t : Store} {name : Identifier} {arguments : List Expression}
    (function : (name.name == errorAccessor && arguments.isEmpty) = false) :
    (arguments.isEmpty && t.isErrorAccessor name.name) = false := by
  unfold Store.isErrorAccessor
  rw [Bool.and_eq_false_iff] at function ⊢
  rcases function with other | given
  · exact .inr (by rw [other, Bool.false_and])
  · exact .inl given

/-- Where the left operand decides, it is the result. -/
theorem types_bool_of_decides {operator : BinaryOperator} {found found' type : Ty} {v : Value}
    (decided : decides operator v = true)
    (gives : (typeOfBinary operator (some found) (some found') span).Gives type) :
    type = .bool ∧ ∃ b, v = .bool b := by
  obtain ⟨logical, b, rfl⟩ : operator.isLogical = true ∧ ∃ b, v = .bool b := by
    unfold decides at decided
    split at decided
    · exact ⟨rfl, false, rfl⟩
    · exact ⟨rfl, true, rfl⟩
    · cases decided
  refine ⟨?_, b, rfl⟩
  obtain ⟨-, -, ⟨arithmetic, -⟩ | ⟨-, -, same⟩ | ⟨-, -, -, same⟩⟩ := gives_typeOfBinary gives
  · cases operator <;>
      first
      | exact absurd arithmetic Bool.false_ne_true
      | exact absurd logical Bool.false_ne_true
  · exact same
  · exact same

/-- Arguments of the types of the parameters yield values that are allowed for these. -/
theorem forall₂_of_arguments {arguments : List Expression} {parameters : List FunctionParameter}
    {values : List Value} {t : Store}
    (fits : List.Forall₂ (fun e (p : FunctionParameter) => Types t c e p.type) arguments parameters)
    (typed : List.Forall₂ (fun e v => ∀ type, Types t c e type → V type v) arguments values) :
    List.Forall₂ (fun (p : FunctionParameter) v => V p.type v) parameters values := by
  induction fits generalizing values with
  | nil =>
    cases typed
    exact .nil
  | cons fit _ ih =>
    cases typed with
    | cons first rest => exact .cons (first _ fit) (ih rest)

section

variable (closed : store.Closed) (passed : (checkProgram program store).passed = true)

include closed passed

/-- The parameters of a function can be bound, and then its body is tracked. -/
theorem Tracked.body {name : Identifier} {arguments : List Expression} {f : FunctionSymbol}
    {values : List Value}
    (tracked : Tracked V program store ⟨fuel + 1, a, .call name arguments span, m⟩ c s)
    (found : m.store.lookup? name.name = some (.function f))
    (known : evaluateAll fuel a arguments m = (.ok values, m₁)) (holds : m₁.store.Holds V)
    (typed : List.Forall₂ (fun e v => ∀ type, Types s.store c e type → V type v) arguments
      values) :
    ∃ m₂ s', bindParameters a span f.parameters values (m₁.enter f.name .function) = (.ok (), m₂) ∧
      Tracked V program store ⟨fuel, a.inCall, .executeAll f.body.statements, m₂⟩ f.context s' := by
  obtain ⟨_, declared, found', fits⟩ := tracked.callee closed passed rfl
  cases found.symm.trans found'
  obtain ⟨global, -⟩ := (tracked.stands closed passed).find?_global_of_function declared
  -- Not the check of the call is followed in the body, but the one where the function was declared.
  obtain ⟨⟨context, s', task⟩, visited, isBody, precedes⟩ :=
    tracked.visited.provided closed passed _ _ global
  obtain rfl : task = .executeAll f.body.statements := isBody.task
  obtain rfl : context = f.context := isBody.context
  have number : values.length = f.parameters.length :=
    typed.length_eq.symm.trans fits.length_eq
  have distinct : (f.parameters.map (·.name)).Nodup := by
    have names := isBody.distinct
    simpa [FunctionSymbol.parameterBindings, Bindings.names, Function.comp_def] using names
  have bound : bindParameters a span f.parameters values (m₁.enter f.name .function) = _ :=
    bindParameters_eq number distinct fun _ _ => rfl
  have outline := ((framesAt fuel).evaluateAll a arguments).after known
  obtain ⟨scope, locals, function, symbols⟩ := isBody.scope
  have declared : (argumentBindings f.parameters values).mapValues Symbol.declaration =
      scope.symbols.mapValues Symbol.declaration := by
    rw [symbols, mapValues_argumentBindings number]
    simp [FunctionSymbol.parameterBindings, Bindings.mapValues, Symbol.declaration]
  have agrees := (tracked.agrees.of_sameOutline outline).call f.name precedes locals function declared
  exact ⟨_, s', bound, visited, agrees, Store.Every.extend (Store.Every.push holds _ _)
    (holds_argumentBindings (forall₂_of_arguments fits typed)), trivial⟩

variable (admissible : Admissible V)

include admissible

theorem sound_evaluate {e : Expression}
    (tracked : Tracked V program store ⟨fuel + 1, a, .evaluate e, m⟩ c s)
    (below : SoundBelow V program store ⟨fuel + 1, a, .evaluate e, m⟩) :
    Sound V ⟨fuel + 1, a, .evaluate e, m⟩ c s := by
  have holds : m.store.Holds V := tracked.holds
  show (evaluate (fuel + 1) a e).Yields V m fun v _ => ∀ type, Types s.store c e type → V type v
  unfold evaluate
  cases e with
  | integer w => exact .pure holds fun type typed => Typing.gives_known.mp typed ▸ admissible.int w
  | float x => exact .pure holds fun type typed => Typing.gives_known.mp typed ▸ admissible.float x
  | str text => exact .pure holds fun type typed => Typing.gives_known.mp typed ▸ admissible.str text
  | char x => exact .pure holds fun type typed => Typing.gives_known.mp typed ▸ admissible.char x
  | boolean b => exact .pure holds fun type typed => Typing.gives_known.mp typed ▸ admissible.bool b
  | numberArray elements =>
    exact .pure holds fun type typed => Typing.gives_known.mp typed ▸ admissible.numbers elements
  | charArray elements =>
    exact .pure holds fun type typed => Typing.gives_known.mp typed ▸ admissible.chars elements
  | strArray elements =>
    exact .pure holds fun type typed => Typing.gives_known.mp typed ▸ admissible.strs elements
  | identifier name span =>
    refine yields_readVariable holds fun _ value found fits type typed => ?_
    obtain ⟨value', found'⟩ := tracked.identifier closed passed typed
    cases found.symm.trans found'
    exact fits
  | fieldAccess record field span =>
    refine yields_readField holds fun r slot found present fits type typed => ?_
    obtain ⟨r', value', found', present'⟩ := tracked.field typed
    cases found.symm.trans found'
    cases present.symm.trans present'
    exact fits
  | index array index span =>
    refine (below .position (tracked.part .position trivial)).bind fun i m₁ known holds₁ _ => ?_
    cases i with
    | int w =>
      refine yields_readElement holds₁ fun declared elements element found fits inside type typed => ?_
      have tracked₁ : Tracked V program store ⟨fuel, a, .evaluate index, m₁⟩ c s :=
        tracked.part_after .position (.refl _) (((framesAt fuel).evaluate a index).after known)
          holds₁ trivial
      obtain ⟨value', found'⟩ := tracked₁.array typed
      cases found.symm.trans found'
      exact admissible.element type elements fits element inside
    | _ => exact yields_fail holds₁ _
  | call name arguments span =>
    dsimp only
    split
    · next accessor =>
      refine yields_readVariable holds fun _ value found fits type typed => ?_
      obtain ⟨value', found'⟩ := tracked.message closed passed accessor typed
      cases found.symm.trans found'
      exact fits
    · next function =>
      rw [Bool.not_eq_true] at function
      have onward : Walks ⟨c, s, .evaluate (.call name arguments span)⟩
          ⟨c, s, .call name arguments span⟩ := .called (not_errorAccessor function)
      refine (below (.called function) (tracked.part onward trivial)).mono
        fun v m' _ fits type typed => ?_
      obtain ⟨f, found, rfl, -⟩ := types_call (not_errorAccessor function) typed
      exact fits f found
  | unary operator operand span =>
    refine (below .operand (tracked.part .operand trivial)).bind fun v m₁ known holds₁ fits => ?_
    refine yields_yield holds₁ fun w applied type typed => ?_
    obtain ⟨found, known, gives⟩ := types_unary typed
    exact admissible.unary operator found operand.span type v w gives (fits found known) applied
  | binary operator left right span =>
    refine (below .left (tracked.part .left trivial)).bind fun v m₁ known holds₁ fits => ?_
    split
    · next decided =>
      refine .pure holds₁ fun type typed => ?_
      obtain ⟨found, found', -, -, gives⟩ := types_binary typed
      obtain ⟨rfl, b, rfl⟩ := types_bool_of_decides decided gives
      exact admissible.bool b
    · next undecided =>
      rw [Bool.not_eq_true] at undecided
      have tracked₁ : Tracked V program store ⟨fuel, a, .evaluate right, m₁⟩ c s :=
        tracked.part_after .right (.refl _) (((framesAt fuel).evaluate a left).after known) holds₁
          trivial
      refine (below (.right known undecided) tracked₁).bind fun v' m₂ known' holds₂ fits' => ?_
      refine yields_yield holds₂ fun w applied type typed => ?_
      obtain ⟨found, found', left, right, gives⟩ := types_binary typed
      exact admissible.binary operator found found' span type v v' w gives (fits found left)
        (fits' found' right) applied
  | parenthesized inner span =>
    refine (below .inner (tracked.part .inner trivial)).mono fun v m' _ fits type typed => ?_
    exact fits type typed

omit admissible closed passed in
theorem sound_evaluateAll {es : List Expression}
    (tracked : Tracked V program store ⟨fuel + 1, a, .evaluateAll es, m⟩ c s)
    (below : SoundBelow V program store ⟨fuel + 1, a, .evaluateAll es, m⟩) :
    Sound V ⟨fuel + 1, a, .evaluateAll es, m⟩ c s := by
  have holds : m.store.Holds V := tracked.holds
  show (evaluateAll (fuel + 1) a es).Yields V m fun vs _ =>
    List.Forall₂ (fun e v => ∀ type, Types s.store c e type → V type v) es vs
  unfold evaluateAll
  cases es with
  | nil => exact .pure holds .nil
  | cons e rest =>
    refine (below .firstArgument (tracked.part .firstArgument trivial)).bind
      fun v m₁ known holds₁ fits => ?_
    have tracked₁ : Tracked V program store ⟨fuel, a, .evaluateAll rest, m₁⟩ c s :=
      tracked.part_after .nextArguments (.refl _) (((framesAt fuel).evaluate a e).after known)
        holds₁ trivial
    refine (below (.nextArguments known) tracked₁).bind fun vs m₂ _ holds₂ fits' => ?_
    exact .pure holds₂ (.cons fits fits')

omit admissible closed passed in
theorem sound_condition {e : Expression}
    (tracked : Tracked V program store ⟨fuel + 1, a, .condition e, m⟩ c s)
    (below : SoundBelow V program store ⟨fuel + 1, a, .condition e, m⟩) :
    Sound V ⟨fuel + 1, a, .condition e, m⟩ c s := by
  show (evaluateCondition (fuel + 1) a e).Yields V m fun _ _ => True
  unfold evaluateCondition
  refine (below .truth (tracked.part .truth trivial)).bind fun v m₁ known holds₁ _ => ?_
  cases v with
  | bool b => exact .pure holds₁ trivial
  | _ => exact yields_fail holds₁ _

theorem sound_call {name : Identifier} {arguments : List Expression}
    (tracked : Tracked V program store ⟨fuel + 1, a, .call name arguments span, m⟩ c s)
    (below : SoundBelow V program store ⟨fuel + 1, a, .call name arguments span, m⟩) :
    Sound V ⟨fuel + 1, a, .call name arguments span, m⟩ c s := by
  obtain ⟨f, declared, found, -⟩ := tracked.callee closed passed rfl
  show (call (fuel + 1) a name arguments span).Yields V m fun v _ =>
    ∀ f, s.store.lookup? name.name = some (.function f) → V f.returnType v
  unfold call
  refine .bind_of_ok (calledFunction_eq_ok_iff.mpr ⟨found, rfl⟩) ?_
  refine (below (.arguments found) (tracked.part .arguments trivial)).bind
    fun values m₁ known holds₁ typed => ?_
  cases allowed : callFault? a f values with
  | some fault => exact yields_fail holds₁ fault
  | none =>
    obtain ⟨m₂, s', bound, inBody⟩ := tracked.body closed passed found known holds₁ typed
    have body : (executeAll fuel a.inCall f.body.statements).Yields V m₂ fun signal _ =>
      signal.Fits V f.context := below (.body found known allowed bound) inBody
    refine (Yields.inScope (.bind_of_ok bound body)).bind fun signal m₃ _ holds₃ ended => ?_
    obtain ⟨left, -, fits, -⟩ := ended
    cases signal with
    | normal =>
      refine .pure holds₃ fun f' declared' => ?_
      exact admissible.null f'.returnType
    | «return» value =>
      refine .pure holds₃ fun f' declared' => ?_
      cases declared.symm.trans declared'
      obtain ⟨_, ⟨⟩, fits⟩ := fits
      exact fits
    | «break» => exact yields_fail holds₃ _
    | «continue» => exact yields_fail holds₃ _

end

end CheckedScript
