import CheckedScript.Proofs.Agreement.Alongside
import CheckedScript.Proofs.Agreement.Expressions
import CheckedScript.Proofs.Execution.Fuel
import CheckedScript.Proofs.Execution.Messages
import CheckedScript.Proofs.Session.Globals

/-!
# The message that a task finds

A task that is performed alongside its check finds the same kinds of scopes as the check, and the
scope of the innermost recover block holds the message of the error that was caught there. This is
so for every task, whatever the tasks before it have done, because no assignment that passes its
check reaches a message. What a function can see of it does not depend on its callers, so nothing is
asked of the store in which the function was checked.
-/

namespace CheckedScript

open Check Checking Execution Run Store

/-- The check has accepted the body of the function at this point. -/
structure FunctionSymbol.CheckedAt (f : FunctionSymbol) (p : Point) : Prop where
  body : p.IsBodyOf f
  accepted : p.Accepted
  kind : p.checking.store.global.kind = .global

/-- The message of an error, as a recover block binds it. -/
def RuntimeError.symbol (error : RuntimeError) : Symbol := .variable .str (.str error.message)

/-- The check has accepted the task where it stands, and the run finds the same kinds of scopes there
and the message of the error that was caught around the task. -/
structure Attuned (bodies : FunctionSymbol → Point → Prop) (x : Moment) (p : Point)
    (caught : Option RuntimeError) : Prop where
  task : p.task = x.task
  accepted : p.Accepted
  placed : p.Placed
  functions : x.machine.store.EveryFunction fun f => ∃ q, bodies f q
  shielded : x.machine.store.Shielded
  marks : marks x.machine.store.locals = marks p.checking.store.locals
  message : heldMessage? x.machine.store.locals = caught.map RuntimeError.symbol

namespace Attuned

variable {bodies : FunctionSymbol → Point → Prop} {x y : Moment} {p q : Point}
  {caught : Option RuntimeError}

/-- The check of the whole goes on to the part that is performed. -/
theorem onward (attuned : Attuned bodies x p caught) (entered : Enters x y) (walks : Walks p q)
    (same : q.task = y.task) {caught' : Option RuntimeError} (shielded : y.machine.store.Shielded)
    (marks' : Store.marks y.machine.store.locals = Store.marks q.checking.store.locals)
    (message : heldMessage? y.machine.store.locals = caught'.map RuntimeError.symbol) :
    Attuned bodies y q caught' :=
  ⟨same, walks.accepted attuned.accepted, walks.placed attuned.accepted attuned.placed,
    entered.everyFunction attuned.functions, shielded, marks', message⟩

/-- A part that is performed after others, which have left the scopes and the messages. -/
theorem part_after (attuned : Attuned bodies x p caught) (entered : Enters x y) (walks : Walks p q)
    (same : q.task = y.task) (scopes : p.checking.store.SameScopes q.checking.store)
    (kept : x.machine.store.SameOutline y.machine.store)
    (messages : x.machine.store.SameMessages y.machine.store) : Attuned bodies y q caught := by
  refine attuned.onward entered walks same (messages.shielded attuned.shielded) ?_ ?_
  · rw [marks_of_outlines kept.locals, scopes.locals]
    exact attuned.marks
  · rw [heldMessage?_of_held messages.locals]
    exact attuned.message

/-- A part that is performed at once. -/
theorem part (attuned : Attuned bodies x p caught) (entered : Enters x y) (walks : Walks p q)
    (same : q.task = y.task) (scopes : p.checking.store.SameScopes q.checking.store)
    (machine : y.machine = x.machine) : Attuned bodies y q caught :=
  attuned.part_after entered walks same scopes (machine ▸ .refl _) (machine ▸ .refl _)

/-- The statements of a block that is entered after other parts. -/
theorem enter_after (attuned : Attuned bodies x p caught) (entered : Enters x y)
    (walks : Walks p q) (same : q.task = y.task) {m₁ : Machine} {s' : Checking} {name : String}
    {kind : ScopeKind} (inside : y.machine = m₁.enter name kind)
    (checking : q.checking = s'.push name kind) (ordinary : kind.holdsMessage = false)
    (block : kind ≠ .function) (scopes : p.checking.store.SameScopes s'.store)
    (kept : x.machine.store.SameOutline m₁.store)
    (messages : x.machine.store.SameMessages m₁.store) : Attuned bodies y q caught := by
  have shielded := (messages.shielded attuned.shielded).push name ordinary
  have marks' : Store.marks m₁.store.locals = Store.marks s'.store.locals := by
    rw [marks_of_outlines kept.locals, scopes.locals]
    exact attuned.marks
  refine attuned.onward entered walks same (inside ▸ shielded) ?_ ?_
  · rw [inside, checking]
    exact marks_push marks' name kind
  · have recovery : kind ≠ .recovery := by
      rintro rfl
      cases ordinary
    rw [inside]
    exact (heldMessage?_push m₁.store name recovery block).trans
      ((heldMessage?_of_held messages.locals).trans attuned.message)

end Attuned

/-! ## What statements declare -/

section

variable {bodies : FunctionSymbol → Point → Prop} {fuel fuel' : Nat} {a a' : Activation}
  {m m₁ : Machine} {c : CheckContext} {s : Checking} {statement : Statement}
  {rest : List Statement} {last last' : Option Value} {caught : Option RuntimeError}

/-- All that a statement in a block declares, it binds when it is executed. -/
theorem runtimeName?_of_declared (nested : statement.registration? = none) {store : Store}
    {name : String} (declared : name ∈ (statement.declarations store).bindings.names) :
    statement.runtimeName? = some name := by
  rw [Declarations.names_bindings] at declared
  obtain ⟨d, inside, rfl⟩ := List.mem_map.mp declared
  refine (statement.of_declared_atRuntime inside ?_).1
  cases statement with
  | «variable» => rw [List.mem_singleton.mp inside]
  | recordInstance =>
    unfold Statement.declarations at inside
    dsimp only at inside
    split at inside
    · rw [List.mem_singleton.mp inside]
    · cases inside
  | function | recordType => cases nested
  | _ => cases inside

/-- A statement in a block that has ended normally has bound the names that its check has
declared. -/
theorem names_of_executed (clean : (checkStatement c statement s).Clean)
    (nested : statement.registration? = none) {added : Bindings Symbol}
    (binds : Binds statement m (.ok .normal) m₁ added) (name : String) :
    name ∈ added.names ↔ name ∈ (statement.declarations s.store).bindings.names := by
  constructor
  · intro bound
    obtain ⟨b, inside, rfl⟩ := List.mem_map.mp bound
    obtain ⟨d, declared, named, -⟩ := binds.declared b inside
    have runtime := (statement.of_declared_atRuntime declared (by rw [named])).1
    have listed := mem_declarations_of_runtimeName? clean runtime
    rw [Declarations.names_bindings]
    obtain ⟨d', inside', same⟩ := List.mem_map.mp listed
    exact List.mem_map.mpr ⟨d', inside', by rw [same, named]⟩
  · intro declared
    exact binds.all rfl name (runtimeName?_of_declared nested declared)

theorem marks_of_executed (clean : (checkStatement c statement s).Clean)
    (nested : statement.registration? = none) (marks' : marks m.store.locals = marks s.store.locals)
    (done : execute fuel a statement m = (.ok .normal, m₁)) :
    marks m₁.store.locals = marks (checkStatement c statement s).store.locals := by
  obtain ⟨added, binds⟩ := binds_execute done
  rw [marks_of_outlines binds.kept.locals, (grows_declarations clean).scopes.locals]
  exact marks_extend_of_eq marks' (names_of_executed clean nested binds errorAccessor)

namespace Attuned

theorem next (attuned : Attuned bodies ⟨fuel + 1, a, .executeAll (statement :: rest), m⟩
      ⟨c, s, .executeAll (statement :: rest)⟩ caught)
    (done : execute fuel a statement m = (.ok .normal, m₁))
    (messages : m.store.SameMessages m₁.store) :
    Attuned bodies ⟨fuel, a, .executeAll rest, m₁⟩
      ⟨c, checkStatement c statement s, .executeAll rest⟩ caught := by
  have clean : (checkStatement c statement s).Clean := Walks.first.accepted attuned.accepted
  have nested : c.isTopLevel = false :=
    attuned.placed.stands.level.trans (attuned.placed.body _ rfl)
  refine attuned.onward (.next done) .next rfl (messages.shielded attuned.shielded) ?_ ?_
  · exact marks_of_executed clean (registration?_eq_none_of_nested nested clean) attuned.marks done
  · exact (heldMessage?_of_held messages.locals).trans attuned.message

/-- Between the statements of a program no local scope is active. -/
theorem afterTop (attuned : Attuned bodies ⟨fuel, a, .program (statement :: rest) last, m⟩
      ⟨c, s, .program (statement :: rest) last⟩ caught)
    (entered : Enters ⟨fuel, a, .program (statement :: rest) last, m⟩
      ⟨fuel, a, .program rest last', m₁⟩)
    (kept : m₁.store.locals = [] ↔ m.store.locals = [])
    (messages : m.store.SameMessages m₁.store) :
    Attuned bodies ⟨fuel, a, .program rest last', m₁⟩
      ⟨c, checkStatement c statement s, .program rest last'⟩ caught := by
  have walks : Walks ⟨c, s, .program (statement :: rest) last⟩
      ⟨c, checkStatement c statement s, .program rest last'⟩ := .afterTop
  have onlyGlobal : s.store.locals = [] :=
    locals_eq_nil_of_isGlobal (attuned.placed.program _ _ rfl)
  have onlyGlobal' : (checkStatement c statement s).store.locals = [] :=
    locals_eq_nil_of_isGlobal
      ((walks.placed attuned.accepted attuned.placed).program _ _ rfl)
  have marks' := attuned.marks
  rw [onlyGlobal] at marks'
  refine attuned.onward entered walks rfl (messages.shielded attuned.shielded) ?_ ?_
  · rw [kept.mpr (eq_nil_of_marks marks'), onlyGlobal']
  · exact (heldMessage?_of_held messages.locals).trans attuned.message

theorem recovery {m₂ : Machine} {guarded recovery : Block} {error : RuntimeError} {span : Span}
    (attuned : Attuned bodies ⟨fuel + 1, a, .execute (.attempt guarded recovery span), m⟩
      ⟨c, s, .execute (.attempt guarded recovery span)⟩ caught)
    (tried : Run.inScope "try" .guarded (executeAll fuel a.inGuard guarded.statements) m =
      (.error (.recoverable error), m₁))
    (bound : define a.inRecovery errorAccessor (.variable .str (.str error.message)) recovery.span
      (m₁.enter "recover" .recovery) = (.ok (), m₂))
    (messages : m.store.SameMessages m₁.store) :
    Attuned bodies ⟨fuel, a.inRecovery, .executeAll recovery.statements, m₂⟩
      ⟨c.inRecoverBlock,
        (((checkBlock c.inBlock guarded (s.push "try" .guarded)).backTo s.store.depth).push
          "recover" .recovery).bindErrorAccessor, .executeAll recovery.statements⟩
      (some error) := by
  have kept : m.store.SameOutline m₁.store :=
    (((framesAt fuel).executeAll a.inGuard guarded.statements).inScope "try" .guarded).after tried
  have entered : Enters ⟨fuel + 1, a, .execute (.attempt guarded recovery span), m⟩
      ⟨fuel, a.inRecovery, .executeAll recovery.statements, m₂⟩ := .recovery tried bound
  rw [define_errorAccessor] at bound
  cases bound
  refine attuned.onward entered .recovery rfl
    ((messages.shielded attuned.shielded).recover "recover" (.str error.message)) ?_ rfl
  rw [bindErrorAccessor_push]
  refine marks_extend_of_eq (marks_push ?_ "recover" .recovery) Iff.rfl
  rw [marks_of_outlines kept.locals, (grows_scopedBlock ..).sameScopes.locals]
  exact attuned.marks

theorem length_eq_of_allowed {f : FunctionSymbol} {values : List Value}
    (allowed : callFault? a f values = none) : values.length = f.parameters.length := by
  unfold callFault? at allowed
  split at allowed
  · cases allowed
  · next same => exact Decidable.not_not.mp same

/-- The body of a function is entered in the scope of its parameters, as it was checked. -/
theorem body {m₂ : Machine} {name : Identifier} {arguments : List Expression} {span : Span}
    {f : FunctionSymbol} {values : List Value} {p q : Point}
    (attuned : Attuned bodies ⟨fuel + 1, a, .call name arguments span, m⟩ p caught)
    (found : m.store.lookup? name.name = some (.function f))
    (known : evaluateAll fuel a arguments m = (.ok values, m₁))
    (allowed : callFault? a f values = none)
    (bound : bindParameters a span f.parameters values (m₁.enter f.name .function) = (.ok (), m₂))
    (messages : m.store.SameMessages m₁.store) (checked : f.CheckedAt q) :
    Attuned bodies ⟨fuel, a.inCall, .executeAll f.body.statements, m₂⟩ q none := by
  have entered := Enters.body found known allowed bound
  have number := length_eq_of_allowed allowed
  have distinct : (f.parameters.map (·.name)).Nodup := by
    have names := checked.body.distinct
    simpa [FunctionSymbol.parameterBindings, Bindings.names, Function.comp_def] using names
  rw [bindParameters_eq number distinct fun _ _ => rfl] at bound
  cases bound
  obtain ⟨scope, locals, function, symbols⟩ := checked.body.scope
  have names : (argumentBindings f.parameters values).names = scope.symbols.names := by
    have declared := congrArg Bindings.names (mapValues_argumentBindings number)
    rw [Bindings.names_mapValues] at declared
    rw [declared, symbols]
    simp [FunctionSymbol.parameterBindings, Bindings.names]
  have shielded : (m₁.enter f.name .function).store.Shielded :=
    (messages.shielded attuned.shielded).push f.name rfl
  refine ⟨checked.body.task, checked.accepted, checked.body.placed checked.kind,
    entered.everyFunction attuned.functions, (shielded.extend _).shielded shielded, ?_, rfl⟩
  have bound : (argumentBindings f.parameters values).contains errorAccessor =
      scope.symbols.contains errorAccessor := by
    rw [Bool.eq_iff_iff, Bindings.contains_eq_true_iff, Bindings.contains_eq_true_iff, names]
  rw [locals]
  simp [Machine.enter, Store.extend, Store.push, Store.marks, Scope.extend, Scope.mark, function,
    bound]

end Attuned

end

end CheckedScript
