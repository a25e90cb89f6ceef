import CheckedScript.Proofs.Agreement.Scopes
import CheckedScript.Proofs.Agreement.Values
import CheckedScript.Proofs.Execution.Frame

/-!
# Following a run through its check

A task of a run is tracked by a point of the check where the same part of the program was visited,
with scopes that agree. The relation between types and values is left open: it has to allow what a
program without errors computes, and nothing else is asked of it.
-/

namespace CheckedScript

open Check Checking Execution

/-- The values that are allowed for a type comprise whatever is computed from allowed values where
the check finds no error. -/
structure Admissible (V : Ty → Value → Prop) : Prop where
  null : ∀ type, V type .null
  initial : ∀ type : Ty, V type type.defaultValue
  int : ∀ w, V .int (.int w)
  float : ∀ x, V .float (.float x)
  str : ∀ text, V .str (.str text)
  char : ∀ c, V .char (.char c)
  bool : ∀ b, V .bool (.bool b)
  numbers : ∀ elements, V (numberArrayType elements) (numberArray elements)
  chars : ∀ elements : List Char, V (.array .char) (.array (elements.map .char))
  strs : ∀ elements : List String, V (.array .str) (.array (elements.map .str))
  element : ∀ type elements, V (.array type) (.array elements) → ∀ v ∈ elements, V type v
  unary : ∀ operator found span type v w, (typeOfUnary operator found span).Gives type →
    V found v → Value.applyUnary operator v = .ok w → V type w
  binary : ∀ operator found found' span type v v' w,
    (typeOfBinary operator (some found) (some found') span).Gives type →
    V found v → V found' v' → Value.applyBinary operator v v' = .ok w → V type w

/-- How control may leave a statement in this context. -/
def Signal.Fits (V : Ty → Value → Prop) (c : CheckContext) : Signal → Prop
  | .normal => True
  | .return value => ∃ f, c.function = some f ∧ V f.returnType value
  | .break | .continue => c.inLoop = true

namespace Execution

/-- What a task may end with, if the check has come to it in this context and state. -/
def Task.Fits (V : Ty → Value → Prop) (c : CheckContext) (s : Checking) :
    (task : Task) → task.Result → Machine → Prop
  | .evaluate e => fun v _ => ∀ type, Types s.store c e type → V type v
  | .evaluateAll es => fun vs _ =>
    List.Forall₂ (fun e v => ∀ type, Types s.store c e type → V type v) es vs
  | .call name _ _ => fun v _ =>
    ∀ f, s.store.lookup? name.name = some (.function f) → V f.returnType v
  | .condition _ => fun _ _ => True
  | .execute statement => fun signal m => signal.Fits V c ∧
    (signal = .normal → (checkStatement c statement s).store.Agrees m.store)
  | .executeAll _ | .branches _ _ => fun signal _ => signal.Fits V c
  | .loop _ _ _ _ => fun signal _ => signal.Fits V c ∧ signal ≠ .break ∧ signal ≠ .continue
  | .program _ _ => fun _ _ => True

/-- The names that a task of the top level is to bind are free in the global scope of the run, and
the functions and record types of the statements that follow are bound there already. -/
def Task.Ready (c m : Store) : Task → Prop
  | .execute statement => c.locals = [] →
    (∀ name, statement.runtimeName? = some name → m.global.symbols.contains name = false) ∧
    ∀ b, statement.registration? = some b → m.global.symbols.find? b.1 = some b.2
  | .program statements _ =>
    (∀ b ∈ statements.filterMap Statement.registration?, m.global.symbols.find? b.1 = some b.2) ∧
    ∀ name ∈ m.global.symbols.names,
      name ∈ (c.global.extend (statements.filterMap Statement.registration?)).symbols.names
  | _ => True

end Execution

/-- The check has visited the task, in this context and in this state, and the run agrees. -/
structure Tracked (V : Ty → Value → Prop) (program : Program) (store : Store) (x : Moment)
    (c : CheckContext) (s : Checking) : Prop where
  visited : Visited program store ⟨c, s, x.task⟩
  agrees : s.store.Agrees x.machine.store
  holds : x.machine.store.Holds V
  ready : x.task.Ready s.store x.machine.store

/-- What is to be shown of a task that is tracked. -/
def Sound (V : Ty → Value → Prop) (x : Moment) (c : CheckContext) (s : Checking) : Prop :=
  (x.task.perform x.fuel x.activation).Yields V x.machine (Task.Fits V c s x.task)

theorem Signal.Fits.of_inBlock {V : Ty → Value → Prop} {c : CheckContext} {signal : Signal}
    (fits : signal.Fits V c.inBlock) : signal.Fits V c := by
  cases signal <;> exact fits

theorem Signal.Fits.of_inRecoverBlock {V : Ty → Value → Prop} {c : CheckContext} {signal : Signal}
    (fits : signal.Fits V c.inRecoverBlock) : signal.Fits V c := by
  cases signal <;> exact fits

namespace Tracked

variable {V : Ty → Value → Prop} {program : Program} {store : Store} {fuel fuel' : Nat}
  {a a' : Activation} {m m₁ : Machine} {c c' : CheckContext} {s s' : Checking} {task task' : Task}

/-- A part that is performed at once. -/
theorem part (tracked : Tracked V program store ⟨fuel, a, task, m⟩ c s)
    (walks : Walks ⟨c, s, task⟩ ⟨c, s, task'⟩) (ready : task'.Ready s.store m.store) :
    Tracked V program store ⟨fuel', a', task', m⟩ c s :=
  ⟨.walk tracked.visited walks, tracked.agrees, tracked.holds, ready⟩

/-- A part that is performed after others, which have left the outline of the store. -/
theorem part_after (tracked : Tracked V program store ⟨fuel, a, task, m⟩ c s)
    (walks : Walks ⟨c, s, task⟩ ⟨c', s', task'⟩) (same : s.store.SameScopes s'.store)
    (kept : m.store.SameOutline m₁.store) (holds : m₁.store.Holds V)
    (ready : task'.Ready s'.store m₁.store) :
    Tracked V program store ⟨fuel', a', task', m₁⟩ c' s' :=
  ⟨.walk tracked.visited walks, (tracked.agrees.of_sameOutline kept).of_sameScopes same, holds,
    ready⟩

/-- The statements of a block that is entered after other parts. -/
theorem enter_after {name : String} {kind : ScopeKind} {statements : List Statement}
    (tracked : Tracked V program store ⟨fuel, a, task, m⟩ c s)
    (walks : Walks ⟨c, s, task⟩ ⟨c', s'.push name kind, .executeAll statements⟩)
    (same : s.store.SameScopes s'.store) (kept : m.store.SameOutline m₁.store)
    (holds : m₁.store.Holds V) :
    Tracked V program store ⟨fuel', a', .executeAll statements, m₁.enter name kind⟩ c'
      (s'.push name kind) :=
  ⟨.walk tracked.visited walks,
    ((tracked.agrees.of_sameOutline kept).of_sameScopes same).push name kind,
    Store.Every.push holds name kind, trivial⟩

theorem enter {name : String} {kind : ScopeKind} {statements : List Statement}
    (tracked : Tracked V program store ⟨fuel, a, task, m⟩ c s)
    (walks : Walks ⟨c, s, task⟩ ⟨c', s.push name kind, .executeAll statements⟩) :
    Tracked V program store ⟨fuel', a', .executeAll statements, m.enter name kind⟩ c'
      (s.push name kind) :=
  tracked.enter_after walks (.refl _) (.refl _) tracked.holds

/-! ## What the names of a part stand for -/

section

variable {x : Moment} (tracked : Tracked V program store x c s) (closed : store.Closed)
  (passed : (checkProgram program store).passed = true)

include tracked closed passed

theorem accepted : Point.Accepted ⟨c, s, x.task⟩ := tracked.visited.accepted closed passed

theorem stands : c.Stands s.store := (tracked.visited.placed closed passed).stands

theorem identifier {name : Identifier} {span : Span} {type : Ty}
    (typed : Types s.store c (.identifier name span) type) :
    ∃ value, x.machine.store.lookup? name.name = some (.variable type value) := by
  rcases types_identifier typed with ⟨accessor, inside, rfl⟩ | ⟨value, found⟩
  · exact tracked.agrees.lookup?_variable
      ((tracked.stands closed passed).lookup?_errorAccessor accessor inside)
  · exact tracked.agrees.lookup?_variable found

/-- A call without arguments of the name of the error accessor reads the caught message. -/
theorem message {name : Identifier} {arguments : List Expression} {span : Span} {type : Ty}
    (accessor : (name.name == errorAccessor && arguments.isEmpty) = true)
    (typed : Types s.store c (.call name arguments span) type) :
    ∃ value, x.machine.store.lookup? name.name = some (.variable type value) := by
  rw [Bool.and_eq_true] at accessor
  have stands := tracked.stands closed passed
  cases builtin : s.store.isErrorAccessor name.name with
  | true =>
    obtain ⟨inside, rfl⟩ := types_errorAccessor (by simp [accessor.2, builtin]) typed
    exact tracked.agrees.lookup?_variable (stands.lookup?_errorAccessor builtin inside)
  | false =>
    obtain ⟨f, found, -, -⟩ := types_call (by simp [builtin]) typed
    rw [stands.isErrorAccessor_of_function found, accessor.1] at builtin
    cases builtin

omit closed passed in
theorem array {name : Identifier} {index : Expression} {span : Span} {type : Ty}
    (typed : Types s.store c (.index name index span) type) :
    ∃ value, x.machine.store.lookup? name.name = some (.variable (.array type) value) := by
  obtain ⟨-, value, found⟩ := types_index typed
  exact tracked.agrees.lookup?_variable found

omit closed passed in
theorem field {record field : Identifier} {span : Span} {type : Ty}
    (typed : Types s.store c (.fieldAccess record field span) type) :
    ∃ r value, x.machine.store.lookup? record.name = some (.recordInstance r) ∧
      r.fields.find? field.name = some ⟨type, value⟩ := by
  unfold Types Check.typeOf at typed
  obtain ⟨r, slot, found, present, rfl⟩ := gives_typeOfField typed
  exact tracked.agrees.lookup?_field found present

/-- A call finds the function that the check has found, and its arguments fit. -/
theorem callee {name : Identifier} {arguments : List Expression} {span : Span}
    (task : x.task = .call name arguments span) :
    ∃ f, s.store.lookup? name.name = some (.function f) ∧
      x.machine.store.lookup? name.name = some (.function f) ∧
      List.Forall₂ (fun e (p : FunctionParameter) => Types s.store c e p.type) arguments
        f.parameters := by
  have accepted := tracked.accepted closed passed
  rw [task] at accepted
  obtain ⟨f, found, fits⟩ := accepted
  exact ⟨f, found, tracked.agrees.lookup?_function found, fits⟩

end

end Tracked

end CheckedScript
