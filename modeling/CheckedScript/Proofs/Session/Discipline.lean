import CheckedScript.Proofs.Execution.Registers
import CheckedScript.Proofs.Execution.Isolation
import CheckedScript.Proofs.Session.Sequence

/-!
# Scopes and registers on every path out

A statement may be left by the end of its execution, by a signal or by an error, inside any number of
blocks, loops, `try`s and calls. Whichever it is, the scopes that were active are active again, and
the depth of calls and the guard are the old ones. So no run leaves a session inside a scope.
-/

namespace CheckedScript

open Check Checking Execution Run Store

namespace Run

variable {α β : Type} {P : String × Symbol → Prop}

/-- However the computation ends, it has added one binding to the innermost scope at most. -/
def AddsOne (P : String × Symbol → Prop) (x : Run α) : Prop :=
  ∀ m : Machine, ∃ added : Option (String × Symbol), (∀ binding ∈ added, P binding) ∧
    (m.store.extend added.toList).SameOutline (x m).2.store

theorem Keeps.addsOne {x : Run α} (keeps : x.Keeps) : x.AddsOne P :=
  fun m => ⟨none, nofun, by simpa using keeps m⟩

theorem Keeps.bind_addsOne {x : Run α} {f : α → Run β} (first : x.Keeps)
    (second : ∀ a, (f a).AddsOne P) : (x >>= f).AddsOne P := by
  intro m
  have kept := first m
  rw [bind_apply]
  rcases ended : x m with ⟨u | a, m₁⟩ <;> rw [ended] at kept
  · exact ⟨none, nofun, by simpa using kept⟩
  · obtain ⟨added, allowed, same⟩ := second a m₁
    exact ⟨added, allowed, (kept.extend _).trans same⟩

theorem AddsOne.bind_keeps {x : Run α} {f : α → Run β} (first : x.AddsOne P)
    (second : ∀ a, (f a).Keeps) : (x >>= f).AddsOne P := by
  intro m
  obtain ⟨added, allowed, same⟩ := first m
  refine ⟨added, allowed, ?_⟩
  rw [bind_apply]
  rcases ended : x m with ⟨u | a, m₁⟩ <;> rw [ended] at same
  · exact same
  · exact same.trans (second a m₁)

end Run

namespace Execution

theorem addsOne_define {P : String × Symbol → Prop} (a : Activation) {name : String}
    {symbol : Symbol} (allowed : P (name, symbol)) (span : Span) :
    (define a name symbol span).AddsOne P := by
  intro m
  rw [define_apply]
  cases defined : m.store.define name symbol with
  | ok store =>
    obtain ⟨-, rfl⟩ := Store.define_eq_ok_iff.mp defined
    exact ⟨some (name, symbol), by rintro _ ⟨⟩; exact allowed, .refl _⟩
  | error e => exact ⟨none, nofun, by simpa using SameOutline.refl m.store⟩

/-- Only the declaration of a variable or of a record binds a name, and that one alone. -/
theorem addsOne_execute (fuel : Nat) (a : Activation) (statement : Statement) :
    (execute fuel a statement).AddsOne statement.MayAdd := by
  have silent (unnamed : statement.runtimeName? = none) :
      (execute fuel a statement).AddsOne statement.MayAdd := by
    refine Keeps.addsOne (((framesAt fuel).execute a statement).keeps ?_)
    rintro binding ⟨named, -⟩
    cases unnamed.symm.trans named
  cases fuel with
  | zero => exact Keeps.addsOne (keeps_unwind _)
  | succ fuel =>
    cases statement with
    | «variable» type name initializer span =>
      rw [execute_variable]
      refine (frame_initialValue (framesAt fuel) a type initializer).bind_addsOne fun v => ?_
      exact (addsOne_define a ⟨rfl, trivial⟩ name.span).bind_keeps fun _ => keeps_pure _
    | recordInstance type name span =>
      unfold execute
      refine AddsOne.bind_keeps (fun m => ?_) fun _ => keeps_pure _
      rw [instantiate_apply]
      split
      · exact addsOne_define a ⟨rfl, trivial⟩ name.span m
      · exact ⟨none, fun _ inside => (Option.not_mem_none _ inside).elim,
          by simpa using SameOutline.refl m.store⟩
    | _ => exact silent rfl

theorem adds_runStatements (fuel : Nat) (a : Activation) (statements : List Statement)
    (last : Option Value) : (runStatements fuel a statements last).Adds fun b => b.2.IsData := by
  induction statements, last using runStatements.induct with
  | case1 last => exact (keeps_pure _).adds
  | case2 e span rest last ih =>
    rw [runStatements]
    exact ((framesAt fuel).evaluate a e).adds.bind ih
  | case3 first rest last other ih =>
    rw [runStatements.eq_3 _ _ _ _ _ other]
    refine (((framesAt fuel).execute a first).mono fun b may => may.2).bind fun signal => ?_
    cases signal with
    | normal => exact ih
    | _ => exact (keeps_unwind _).adds

end Execution

/-! ## The depth of the store -/

theorem Store.truncate_locals_of_depth {s : Store} {depth : Nat} (same : s.depth = depth) :
    (s.truncate depth).locals = s.locals := by
  have positive : 1 ≤ depth := same ▸ Nat.le_add_left ..
  rw [truncate_locals, same, Nat.max_eq_left positive, Nat.sub_self, List.drop_zero]

theorem depth_checkProgram (program : Program) (store : Store) :
    (checkProgram program store).store.depth = store.depth := by
  have walked := (continues_checkStatements .topLevel program.statements (.start store)).depth
  have closed := Store.truncate_locals_of_depth walked
  have locals : (checkProgram program store).store.locals =
      (checkStatements .topLevel program.statements (.start store)).store.locals := by
    unfold checkProgram
    dsimp only
    split <;> rw [removeGlobals_locals] <;> exact closed
  rw [Store.depth, locals]
  exact walked

theorem depth_run (limits : Limits) (clock : Clock) (program : Program) (store : Store) :
    (Execution.run limits clock program store).store.depth = store.depth := by
  obtain ⟨added, -, kept⟩ := adds_runStatements (sufficientFuel limits program store)
    (.topLevel limits) program.statements none ⟨store, #[], limits.deadline clock⟩
  have depth : (Moment.start (sufficientFuel limits program store) limits clock program
      store).perform.2.store.depth = store.depth := kept.depth.trans (depth_extend store added)
  rcases run_cases limits clock program store with
    ⟨last, -, -, left⟩ | ⟨error, -, -, left⟩ <;> rw [left]
  · exact depth
  · rw [Store.depth, Store.truncate_locals_of_depth depth]
    exact depth

/-- However a call ends, the session is as deep in its scopes as it was. -/
theorem Session.depth_run (s : Session) (source : String) (clock : Clock) :
    (s.run source clock).2.store.depth = s.store.depth := by
  unfold Session.run
  split
  · rfl
  · next program parsed =>
    dsimp only
    split
    · unfold runChecked
      dsimp only
      split <;> exact (CheckedScript.depth_run ..).trans (depth_checkProgram ..)
    · exact depth_checkProgram ..

/-- An interpreter that keeps the depth of calls and the guard in registers does the same as the
evaluator, and some fuel suffices for every statement. However it leaves a statement, both registers
and the depth of the store are the old ones; the scopes declare what they declared, but for one name
in the innermost one if the statement is a declaration of a variable or of a record; and the printed
lines are still there. So a session is back in its global scope after every call. -/
theorem execution_disciplined (limits : Limits) :
    (∀ statement p, (∃ enough, ∀ more,
        (Stateful.execute limits (enough + more) statement p).1 ≠ .error .outOfFuel) ∧
      ∀ fuel,
        let ended := Stateful.execute limits fuel statement p
        (ended.1, ended.2.machine) = execute fuel (p.activation limits) statement p.machine ∧
        ended.2.callDepth = p.callDepth ∧ ended.2.guarded = p.guarded ∧
        ended.2.machine.store.depth = p.machine.store.depth ∧
        (∃ added : Option (String × Symbol), (∀ binding ∈ added, statement.MayAdd binding) ∧
          (p.machine.store.extend added.toList).SameOutline ended.2.machine.store) ∧
        ∃ lines, ended.2.machine.output = p.machine.output ++ lines) ∧
    (∀ s source clock, (Session.run s source clock).2.store.depth = s.store.depth) ∧
    ∀ requests, (Session.after limits requests).store.depth = 1 := by
  refine ⟨fun statement p => ⟨?_, fun fuel => ?_⟩, Session.depth_run, fun requests => ?_⟩
  · obtain ⟨enough, ends⟩ := exists_sufficient (p.activation limits) (.execute statement) p.machine
    refine ⟨enough, fun more => ?_⟩
    rw [(Stateful.implementsAt limits (enough + more)).execute statement p]
    exact ends more
  · obtain ⟨added, allowed, kept⟩ :=
      addsOne_execute fuel (p.activation limits) statement p.machine
    have depth := kept.depth
    rw [depth_extend] at depth
    have output := exists_output_eq_append
      ⟨fuel, p.activation limits, .execute statement, p.machine⟩
    dsimp only
    rw [(Stateful.implementsAt limits fuel).execute statement p]
    exact ⟨rfl, rfl, rfl, depth, ⟨added, allowed, kept⟩, output⟩
  · rw [Store.depth, (Session.idle_after limits requests).onlyGlobal]
    rfl

end CheckedScript
