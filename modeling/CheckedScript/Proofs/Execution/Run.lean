import CheckedScript.Execution.Program

/-!
# Computations on the machine

How the combinators of a run and the primitives that read and write the store end, as equations on
the machine that they start with.
-/

namespace CheckedScript

/-- The machine in a scope that was just opened. -/
def Machine.enter (m : Machine) (name : String) (kind : ScopeKind) : Machine :=
  { m with store := m.store.push name kind }

/-- How a fault that is raised in this activation unwinds. -/
def Activation.unwinding (a : Activation) (fault : Fault) (span : Span) : Unwind :=
  if a.guarded && fault.isRecoverable then .recoverable ⟨fault, span⟩ else .fatal ⟨fault, span⟩

/-- What went wrong where something unwinds, unless it was the fuel that ran out. -/
def Unwind.fault? : Unwind → Option Fault
  | .recoverable error | .fatal error => some error.fault
  | .outOfFuel => none

@[simp] theorem Activation.fault?_unwinding (a : Activation) (fault : Fault) (span : Span) :
    (a.unwinding fault span).fault? = some fault := by
  unfold unwinding
  split <;> rfl

@[simp] theorem Activation.unwinding_ne_outOfFuel (a : Activation) (fault : Fault) (span : Span) :
    a.unwinding fault span ≠ .outOfFuel := by
  unfold unwinding
  split <;> exact nofun

namespace Deadline

/-- The deadline that does not pass while a run is on: it has passed before, or it never does. -/
def always (expired : Bool) : Deadline := ⟨fun _ => expired, fun _ passed => passed⟩

/-- The deadline that a run meets however long it takes. -/
def never : Deadline := always false

/-- The answers of the second deadline are what some questions have left of the first one. -/
def LeadsTo (d d' : Deadline) : Prop := ∃ n, ∀ k, d'.passed k = d.passed (n + k)

variable {d d' : Deadline}

theorem LeadsTo.refl (d : Deadline) : d.LeadsTo d := ⟨0, fun k => by rw [Nat.zero_add]⟩

theorem LeadsTo.later (led : d.LeadsTo d') : d.LeadsTo d'.later := by
  obtain ⟨n, same⟩ := led
  refine ⟨n + 1, fun k => ?_⟩
  rw [Nat.add_assoc, Nat.add_comm 1 k]
  exact same (k + 1)

theorem LeadsTo.eq_always {expired : Bool} (led : d.LeadsTo d') (steady : d = always expired) :
    d' = always expired := by
  obtain ⟨n, same⟩ := led
  exact Deadline.ext (funext fun k => by rw [same, steady]; rfl)

/-- Once the deadline has passed, every later question finds that it has. -/
theorem LeadsTo.passed (led : d.LeadsTo d') (expired : d.passed 0 = true) : d'.passed 0 = true := by
  obtain ⟨n, same⟩ := led
  rw [same]
  clear same
  induction n with
  | zero => exact expired
  | succ n ih =>
    rw [Nat.add_right_comm]
    exact d.stays _ ih

end Deadline

namespace Run

variable {α β : Type}

theorem store_bind (f : Store → Run α) (m : Machine) : (Run.store >>= f) m = f m.store m := rfl

theorem bind_apply (x : Run α) (f : α → Run β) (m : Machine) :
    (x >>= f) m =
      match x m with
      | (.ok a, m₁) => f a m₁
      | (.error u, m₁) => (.error u, m₁) := rfl

theorem return_bind (a : α) (f : α → Run β) : (return a : Run α) >>= f = f a := rfl

theorem bind_bind {γ : Type} (x : Run α) (f : α → Run β) (g : β → Run γ) :
    x >>= f >>= g = x >>= fun a => f a >>= g := by
  funext m
  simp only [bind_apply]
  rcases x m with ⟨_ | a, m₁⟩ <;> rfl

theorem bind_eq_ok_iff {x : Run α} {f : α → Run β} {m m' : Machine} {b : β} :
    (x >>= f) m = (.ok b, m') ↔ ∃ a m₁, x m = (.ok a, m₁) ∧ f a m₁ = (.ok b, m') := by
  change Run.bind x f m = _ ↔ _
  unfold Run.bind
  rcases x m with ⟨_ | a, m₁⟩
  · simp
  · refine ⟨fun ends => ⟨a, m₁, rfl, ends⟩, ?_⟩
    rintro ⟨_, _, same, ends⟩
    cases same
    exact ends

theorem bind_eq_error_iff {x : Run α} {f : α → Run β} {m m' : Machine} {u : Unwind} :
    (x >>= f) m = (.error u, m') ↔
      x m = (.error u, m') ∨ ∃ a m₁, x m = (.ok a, m₁) ∧ f a m₁ = (.error u, m') := by
  change Run.bind x f m = _ ↔ _
  unfold Run.bind
  rcases x m with ⟨_ | a, m₁⟩
  · simp
  · refine ⟨fun unwound => .inr ⟨a, m₁, rfl, unwound⟩, ?_⟩
    rintro (impossible | ⟨_, _, same, unwound⟩)
    · cases impossible
    · cases same
      exact unwound

theorem bind_cases {x : Run α} {f : α → Run β} {m m' : Machine} {result : Except Unwind β}
    (ended : (x >>= f) m = (result, m')) :
    (∃ u, x m = (.error u, m') ∧ result = .error u) ∨
      ∃ a m₁, x m = (.ok a, m₁) ∧ f a m₁ = (result, m') := by
  cases result with
  | ok b => exact .inr (bind_eq_ok_iff.mp ended)
  | error u => exact (bind_eq_error_iff.mp ended).imp_left fun raised => ⟨u, raised, rfl⟩

section

variable {name : String} {kind : ScopeKind} {body : Run α} {m m' : Machine}

theorem inScope_apply (name : String) (kind : ScopeKind) (body : Run α) (m : Machine) :
    inScope name kind body m =
      ((body (m.enter name kind)).1,
        { (body (m.enter name kind)).2 with
          store := (body (m.enter name kind)).2.store.truncate m.store.depth }) := rfl

theorem inScope_eq_ok_iff {a : α} :
    inScope name kind body m = (.ok a, m') ↔
      ∃ left, body (m.enter name kind) = (.ok a, left) ∧
        m' = { left with store := left.store.truncate m.store.depth } := by
  unfold inScope Machine.enter
  rcases body { m with store := m.store.push name kind } with ⟨_ | _, left⟩
  · simp
  · simp [eq_comm, and_assoc]

theorem inScope_eq_error_iff {u : Unwind} :
    inScope name kind body m = (.error u, m') ↔
      ∃ left, body (m.enter name kind) = (.error u, left) ∧
        m' = { left with store := left.store.truncate m.store.depth } := by
  unfold inScope Machine.enter
  rcases body { m with store := m.store.push name kind } with ⟨_ | _, left⟩
  · simp [eq_comm, and_assoc]
  · simp

/-- Either the body ends like the whole, or the handler takes its error. -/
theorem recover_cases {handler : RuntimeError → Run α} {ending : Except Unwind α × Machine}
    (ended : recover body handler m = ending) :
    body m = ending ∨
      ∃ error m₁, body m = (.error (.recoverable error), m₁) ∧ handler error m₁ = ending := by
  unfold recover at ended
  split at ended
  · next error m₁ caught => exact .inr ⟨error, m₁, caught, ended⟩
  · exact .inl ended

end

end Run

namespace Execution

theorem readVariable_apply (a : Activation) (name : Identifier) (m : Machine) :
    readVariable a name m =
      (match m.store.lookup? name.name with
        | some (.variable _ value) => .ok value
        | some other => .error (a.unwinding (.notAValue name.name other.kindName) name.span)
        | none => .error (a.unwinding (.undefinedVariable name.name) name.span), m) := by
  unfold readVariable
  rw [Run.store_bind]
  cases m.store.lookup? name.name with
  | none => rfl
  | some symbol => cases symbol <;> rfl

theorem readElement_apply (a : Activation) (name : String) (index : Word) (span : Span)
    (m : Machine) :
    readElement a name index span m =
      (match m.store.lookup? name with
        | some (.variable _ (.array elements)) =>
          match if 0 ≤ index.toInt then elements[index.toInt.toNat]? else none with
          | some element => .ok element
          | none =>
            .error (a.unwinding (.indexOutOfBounds name index.toInt elements.length) span)
        | some _ => .error (a.unwinding (.notAnArray name) span)
        | none => .error (a.unwinding (.undefinedVariable name) span), m) := by
  unfold readElement
  rw [Run.store_bind]
  rcases m.store.lookup? name with _ | (⟨type, _ | _ | _ | _ | _ | elements | _⟩ | _ | _ | _)
  case some.variable.array =>
    dsimp only
    cases (if 0 ≤ index.toInt then elements[index.toInt.toNat]? else none) <;> rfl
  all_goals rfl

theorem readField_apply (a : Activation) (record field : Identifier) (m : Machine) :
    readField a record field m =
      (match m.store.lookup? record.name with
        | some (.recordInstance r) =>
          match r.fields.find? field.name with
          | some slot => .ok slot.value
          | none => .error (a.unwinding (.fieldNotFound r.recordType field.name) field.span)
        | some _ => .error (a.unwinding (.notARecord record.name) field.span)
        | none => .error (a.unwinding (.undefinedVariable record.name) field.span), m) := by
  unfold readField
  rw [Run.store_bind]
  rcases m.store.lookup? record.name with _ | (_ | _ | _ | r)
  case some.recordInstance =>
    dsimp only
    cases r.fields.find? field.name <;> rfl
  all_goals rfl

theorem calledFunction_apply (a : Activation) (name : Identifier) (m : Machine) :
    calledFunction a name m =
      (match m.store.lookup? name.name with
        | some (.function f) => .ok f
        | some other => .error (a.unwinding (.notAFunction name.name other.kindName) name.span)
        | none => .error (a.unwinding (.undefinedFunction name.name) name.span), m) := by
  unfold calledFunction
  rw [Run.store_bind]
  cases m.store.lookup? name.name with
  | none => rfl
  | some symbol => cases symbol <;> rfl

theorem calledFunction_eq_ok_iff {a : Activation} {name : Identifier} {m m' : Machine}
    {f : FunctionSymbol} :
    calledFunction a name m = (.ok f, m') ↔
      m.store.lookup? name.name = some (.function f) ∧ m' = m := by
  rw [calledFunction_apply]
  rcases m.store.lookup? name.name with _ | (_ | _ | _ | _) <;> simp [eq_comm]

theorem define_apply (a : Activation) (name : String) (symbol : Symbol) (span : Span)
    (m : Machine) :
    define a name symbol span m =
      match m.store.define name symbol with
      | .ok store => (.ok (), { m with store := store })
      | .error e => (.error (a.unwinding (.internal e.message) span), m) := by
  unfold define
  rw [Run.store_bind]
  cases m.store.define name symbol <;> rfl

theorem assign_apply (a : Activation) (name : String) (change : SymbolUpdate) (span : Span)
    (m : Machine) :
    assign a name change span m =
      match m.store.update name change with
      | .ok store => (.ok (), { m with store := store })
      | .error e => (.error (a.unwinding (assignmentFault name e) span), m) := by
  unfold assign
  rw [Run.store_bind]
  cases m.store.update name change <;> rfl

theorem instantiate_apply (a : Activation) (type name : Identifier) (span : Span) (m : Machine) :
    instantiate a type name span m =
      match m.store.lookup? type.name with
      | some (.recordType r) => define a name.name (.recordInstance r.instantiate) name.span m
      | _ => (.error (a.unwinding (.internal s!"record type '{type.name}' is not registered")
          span), m) := by
  unfold instantiate
  rw [Run.store_bind]
  cases m.store.lookup? type.name with
  | none => rfl
  | some symbol => cases symbol <;> rfl

theorem define_faults {a : Activation} {name : String} {symbol : Symbol} {span : Span}
    {m m' : Machine} {u : Unwind} (raised : define a name symbol span m = (.error u, m')) :
    u ≠ .outOfFuel := by
  rw [define_apply] at raised
  split at raised
  · cases raised
  · cases raised
    exact a.unwinding_ne_outOfFuel _ span

theorem bindParameters_faults {a : Activation} {span : Span} {parameters : List FunctionParameter}
    {values : List Value} {m m' : Machine} {u : Unwind}
    (raised : bindParameters a span parameters values m = (.error u, m')) : u ≠ .outOfFuel := by
  induction parameters generalizing values m with
  | nil => cases raised
  | cons p parameters ih =>
    cases values with
    | nil => cases raised
    | cons value values =>
      unfold bindParameters at raised
      rcases Run.bind_eq_error_iff.mp raised with early | ⟨_, m₁, -, late⟩
      · exact define_faults early
      · exact ih late

theorem exceededLimit?_apply (limits : Limits) (completed : Nat) (m : Machine) :
    exceededLimit? limits completed m =
      if limits.maxIterations ≤ completed then (.ok (some (.iterations limits.maxIterations)), m)
      else (.ok (if m.deadline.passed 0 then some (.timeout limits.timeout) else none),
        { m with deadline := m.deadline.later }) := by
  unfold exceededLimit?
  split
  · rfl
  · rw [Run.bind_apply]
    unfold Run.deadlinePassed
    cases m.deadline.passed 0 <;> rfl

/-- Asking for the limits of a loop changes nothing but what is left to be told of the deadline. -/
theorem exists_exceededLimit?_eq_ok (limits : Limits) (completed : Nat) (m : Machine) :
    ∃ limit deadline, exceededLimit? limits completed m =
      (.ok limit, { m with deadline := deadline }) := by
  rw [exceededLimit?_apply]
  split
  · exact ⟨_, m.deadline, rfl⟩
  · exact ⟨_, m.deadline.later, rfl⟩

theorem exceededLimit?_ne_error {limits : Limits} {completed : Nat} {m m' : Machine} {u : Unwind} :
    exceededLimit? limits completed m ≠ (.error u, m') := by
  obtain ⟨limit, deadline, asked⟩ := exists_exceededLimit?_eq_ok limits completed m
  rw [asked]
  exact nofun

theorem exceededLimit?_eq_none_iff {limits : Limits} {completed : Nat} {m m' : Machine} :
    exceededLimit? limits completed m = (.ok none, m') ↔
      completed < limits.maxIterations ∧ m.deadline.passed 0 = false ∧
        m' = { m with deadline := m.deadline.later } := by
  rw [exceededLimit?_apply]
  by_cases exhausted : limits.maxIterations ≤ completed
  · simp [exhausted, Nat.not_lt.mpr exhausted]
  · rw [if_neg exhausted]
    cases m.deadline.passed 0 <;> simp [Nat.lt_of_not_le exhausted, eq_comm]

/-- The value that a variable starts with. -/
def initialValue (fuel : Nat) (a : Activation) (type : TypeName) : Option Expression → Run Value
  | some e => evaluate fuel a e
  | none => pure (Ty.ofTypeName type).defaultValue

theorem execute_variable (fuel : Nat) (a : Activation) (type : TypeName) (name : Identifier)
    (initializer : Option Expression) (span : Span) :
    execute (fuel + 1) a (.variable type name initializer span) = do
      let value ← initialValue fuel a type initializer
      define a name.name (.variable (.ofTypeName type) value) name.span
      return .normal := by
  cases initializer <;> rfl

theorem execute_expression (fuel : Nat) (a : Activation) (e : Expression) (span : Span) :
    execute (fuel + 1) a (.expression e span) = do
      let _ ← evaluate fuel a e
      return .normal := by
  funext m
  change Run.bind (Run.bind (evaluate fuel a e) _) _ m = Run.bind (evaluate fuel a e) _ m
  unfold Run.bind
  rcases evaluate fuel a e m with ⟨_ | _, _⟩ <;> rfl

end Execution

end CheckedScript
