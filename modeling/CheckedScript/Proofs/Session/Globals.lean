import CheckedScript.Proofs.Session.Foretold
import CheckedScript.Proofs.Execution.Frame

/-!
# What a run leaves in the global scope

A check declares the variables and records of a program and takes them back; the run binds them
again, one after the other. Wherever the run is stopped, what it has bound is what the check had
declared, and a run that is not stopped has bound all of it.
-/

namespace CheckedScript

open Check Checking Execution Run Store

/-- What the execution of a statement binds, as far as it comes. -/
structure Execution.Binds (statement : Statement) (m : Machine) (result : Except Unwind Signal)
    (m₁ : Machine) (added : Bindings Symbol) : Prop where
  kept : (m.store.extend added).SameOutline m₁.store
  declared : ∀ b ∈ added, ∃ d ∈ statement.declarations m.store,
    d.1 = ⟨b.1, true⟩ ∧ b.2.declaration = d.2.declaration
  all : result = .ok .normal → ∀ name, statement.runtimeName? = some name → name ∈ added.names

namespace Execution

variable {fuel : Nat} {a : Activation} {m m₁ : Machine} {statement : Statement}
  {result : Except Unwind Signal}

/-- Where a statement is left before it could bind its name. -/
theorem Binds.nothing (kept : m.store.SameOutline m₁.store)
    (stopped : result = .ok .normal → statement.runtimeName? = none) :
    Binds statement m result m₁ [] := by
  refine ⟨by simpa using kept, nofun, fun ended name runtime => ?_⟩
  cases (stopped ended).symm.trans runtime

theorem of_bind_pure {x : Run Unit} {signal : Signal}
    (ended : (do x; return signal) m = (result, m₁)) :
    ∃ r, x m = (r, m₁) ∧ (result = .ok .normal → r = .ok ()) := by
  rcases bind_cases ended with ⟨u, raised, rfl⟩ | ⟨⟨⟩, m', known, ended⟩
  · exact ⟨_, raised, nofun⟩
  · cases ended
    exact ⟨_, known, fun _ => rfl⟩

theorem binds_define {name : String} {symbol : Symbol} {span : Span} {ended : Except Unwind Unit}
    (defined : define a name symbol span m = (ended, m₁))
    (finished : result = .ok .normal → ended = .ok ())
    (declared : ∃ d ∈ statement.declarations m.store,
      d.1 = ⟨name, true⟩ ∧ symbol.declaration = d.2.declaration)
    (named : statement.runtimeName? = some name) :
    ∃ added, Binds statement m result m₁ added := by
  rw [define_apply] at defined
  split at defined
  · next store bound =>
    cases defined
    obtain ⟨-, rfl⟩ := Store.define_eq_ok_iff.mp bound
    refine ⟨[(name, symbol)], .refl _, ?_, ?_⟩
    · intro b inside
      rw [List.mem_singleton.mp inside]
      exact declared
    · rintro - other runtime
      cases named.symm.trans runtime
      exact List.mem_singleton_self _
  · cases defined
    exact ⟨[], .nothing (.refl _) fun done => by cases finished done⟩

/-- However the execution of a statement ends, it has bound at most what it declares. -/
theorem binds_execute (ended : execute fuel a statement m = (result, m₁)) :
    ∃ added, Binds statement m result m₁ added := by
  have silent (unnamed : statement.runtimeName? = none) :
      ∃ added, Binds statement m result m₁ added := by
    have keeps : (execute fuel a statement).Keeps := by
      refine ((framesAt fuel).execute a statement).keeps ?_
      rintro binding ⟨named, -⟩
      cases unnamed.symm.trans named
    exact ⟨[], .nothing (keeps.after ended) fun _ => unnamed⟩
  cases fuel with
  | zero =>
    cases ended
    exact ⟨[], .nothing (.refl _) (by rintro ⟨⟩)⟩
  | succ fuel =>
    cases statement with
    | «variable» type name initializer span =>
      have keeps := frame_initialValue (framesAt fuel) a type initializer
      rw [execute_variable] at ended
      rcases bind_cases ended with ⟨u, raised, rfl⟩ | ⟨v, m', known, ended⟩
      · exact ⟨[], .nothing (keeps.after raised) (by rintro ⟨⟩)⟩
      · obtain ⟨r, defined, finished⟩ := of_bind_pure ended
        obtain ⟨added, binds⟩ : ∃ added, Binds (.variable type name initializer span) m' result m₁
            added := binds_define defined finished ⟨_, List.mem_singleton_self _, rfl, rfl⟩ rfl
        exact ⟨added, ((keeps.after known).extend added).trans binds.kept, binds.declared, binds.all⟩
    | recordInstance type name span =>
      have instantiates : (do instantiate a type name span; return Signal.normal) m =
          (result, m₁) := by
        unfold execute at ended
        exact ended
      obtain ⟨r, ended, finished⟩ := of_bind_pure instantiates
      rw [instantiate_apply] at ended
      split at ended
      · next r' found =>
        refine binds_define ended finished
          ⟨(⟨name.name, true⟩, .recordInstance r'.instantiate), ?_, rfl, rfl⟩ rfl
        rw [Statement.declarations, found]
        exact List.mem_singleton_self _
      · cases ended
        exact ⟨[], .nothing (.refl _) fun done => by cases finished done⟩
    | _ => exact silent rfl

/-- What statements of a program leave behind, all of them or those before the run was stopped. -/
structure Leaves (scope : Scope) (statements : List Statement) (m : Machine)
    (result : Except Unwind (Option Value)) (m₁ : Machine) : Prop where
  kept : ∃ added, (∀ b ∈ added, b.2.IsData) ∧ (m.store.extend added).SameOutline m₁.store
  covers : Covers m₁.store.global scope
  all : ∀ last, result = .ok last → ∀ statement ∈ statements, ∀ name,
    statement.runtimeName? = some name → m₁.store.global.symbols.contains name = true

variable {fuel : Nat} {a : Activation} {m m₁ m₂ : Machine} {statement : Statement}
  {statements rest : List Statement} {scope : Scope} {result : Except Unwind (Option Value)}

namespace Binds

variable {ended : Except Unwind Signal} {added : Bindings Symbol}

theorem isData (binds : Binds statement m ended m₁ added) : ∀ b ∈ added, b.2.IsData := by
  intro b new
  obtain ⟨d, inside, named, same⟩ := binds.declared b new
  exact Symbol.isData_of_declaration_eq same
    (statement.of_declared_atRuntime inside (by rw [named])).2

/-- What a statement of the top level binds is bound in the global scope, and foretold. -/
theorem covers (binds : Binds statement m ended m₁ added) (foretold : scope.Foretells statement)
    (onlyGlobal : m.store.locals = []) (covers : Covers m.store.global scope) :
    Covers m₁.store.global scope := by
  have outline := binds.kept.global
  rw [Store.extend_global_of_locals_eq_nil onlyGlobal] at outline
  rw [covers_iff]
  intro name declared found
  rw [Scope.declaration?_of_outline_eq outline, Scope.declaration?_extend] at found
  rcases Option.or_eq_some_iff.mp found with before | ⟨-, new⟩
  · exact covers_iff.mp covers name declared before
  · obtain ⟨symbol, bound, rfl⟩ := Option.map_eq_some_iff.mp new
    obtain ⟨d, inside, named, same⟩ := binds.declared _ (Bindings.mem_of_find?_eq_some bound)
    have expected := foretold m.store onlyGlobal covers d inside (by rw [named])
    rw [named] at expected
    rw [same]
    exact expected

theorem contains (binds : Binds statement m (.ok .normal) m₁ added)
    (onlyGlobal : m.store.locals = []) {name : String} (runtime : statement.runtimeName? = some name) :
    m₁.store.global.symbols.contains name = true := by
  have outline := binds.kept.global
  rw [Store.extend_global_of_locals_eq_nil onlyGlobal] at outline
  rw [Scope.contains_of_outline_eq outline, Bindings.contains_eq_true_iff,
    Scope.mem_names_extend_iff]
  exact .inr (binds.all rfl name runtime)

end Binds

theorem locals_eq_nil_of_kept {added : Bindings Symbol}
    (kept : (m.store.extend added).SameOutline m₁.store) (onlyGlobal : m.store.locals = []) :
    m₁.store.locals = [] :=
  kept.locals_eq_nil_iff.mpr (Store.extend_locals_eq_nil_iff.mpr onlyGlobal)

theorem Leaves.nothing (kept : m.store.SameOutline m₁.store) (covers : Covers m.store.global scope)
    (all : ∀ last, result = .ok last → statements = []) :
    Leaves scope statements m result m₁ := by
  refine ⟨⟨[], nofun, by simpa using kept⟩, ?_, fun last ended statement inside => ?_⟩
  · rw [covers_iff]
    intro name declared found
    rw [Scope.declaration?_of_outline_eq kept.global] at found
    exact covers_iff.mp covers name declared found
  · rw [all last ended] at inside
    cases inside

/-- A name that is bound in the global scope stays bound. -/
theorem Leaves.contains (leaves : Leaves scope rest m result m₁) (onlyGlobal : m.store.locals = [])
    {name : String} (bound : m.store.global.symbols.contains name = true) :
    m₁.store.global.symbols.contains name = true := by
  obtain ⟨added, -, kept⟩ := leaves.kept
  have outline := kept.global
  rw [Store.extend_global_of_locals_eq_nil onlyGlobal] at outline
  rw [Scope.contains_of_outline_eq outline, Bindings.contains_eq_true_iff,
    Scope.mem_names_extend_iff]
  exact .inl (Bindings.contains_eq_true_iff.mp bound)

/-- A first statement that has ended normally, and the statements after it. -/
theorem Leaves.cons {added : Bindings Symbol}
    (binds : Binds statement m (.ok .normal) m₁ added) (onlyGlobal : m.store.locals = [])
    (later : Leaves scope rest m₁ result m₂) : Leaves scope (statement :: rest) m result m₂ := by
  obtain ⟨more, data, kept⟩ := later.kept
  refine ⟨⟨added ++ more, fun b new => ?_, ?_⟩, later.covers, fun last ended other inside => ?_⟩
  · rcases List.mem_append.mp new with first | second
    · exact binds.isData b first
    · exact data b second
  · rw [← Store.extend_extend]
    exact (binds.kept.extend more).trans kept
  · rcases List.mem_cons.mp inside with rfl | further
    -- What the first statement has bound stays bound to the end.
    · intro name runtime
      exact later.contains (locals_eq_nil_of_kept binds.kept onlyGlobal)
        (binds.contains onlyGlobal runtime)
    · exact later.all last ended other further

/-- Wherever the statements of a program are stopped, the global scope binds what was foretold at
most, and all of it if they are not stopped. -/
theorem leaves_runStatements {statements : List Statement} {last : Option Value}
    (foretold : ∀ statement ∈ statements, scope.Foretells statement)
    (onlyGlobal : m.store.locals = []) (covers : Covers m.store.global scope)
    (ended : runStatements fuel a statements last m = (result, m₁)) :
    Leaves scope statements m result m₁ := by
  induction statements, last using runStatements.induct generalizing m with
  | case1 last =>
    cases ended
    exact .nothing (.refl _) covers fun _ _ => rfl
  | case2 e span rest last ih =>
    have keeps := (framesAt fuel).evaluate a e
    rw [runStatements] at ended
    rcases bind_cases ended with ⟨u, raised, rfl⟩ | ⟨v, m', known, onward⟩
    · exact .nothing (keeps.after raised) covers nofun
    · have binds : Binds (.expression e span) m (.ok .normal) m' [] :=
        .nothing (keeps.after known) fun _ => rfl
      exact .cons binds onlyGlobal (ih v
        (fun other inside => foretold other (List.mem_cons_of_mem _ inside))
        (locals_eq_nil_of_kept binds.kept onlyGlobal)
        (binds.covers (foretold _ List.mem_cons_self) onlyGlobal covers) onward)
  | case3 first rest last other ih =>
    rw [runStatements.eq_3 _ _ _ _ _ other] at ended
    -- A statement that is stopped can have bound its name, so it counts like one that ends.
    have stopped {ended : Except Unwind Signal} {m' : Machine} {u : Unwind} {added : Bindings Symbol}
        (binds : Binds first m ended m' added) :
        Leaves scope (first :: rest) m (.error u) m' :=
      ⟨⟨added, binds.isData, binds.kept⟩,
        binds.covers (foretold first List.mem_cons_self) onlyGlobal covers, nofun⟩
    rcases bind_cases ended with ⟨u, raised, rfl⟩ | ⟨signal, m', done, onward⟩
    · obtain ⟨added, binds⟩ := binds_execute raised
      exact stopped binds
    · obtain ⟨added, binds⟩ := binds_execute done
      cases signal with
      | normal =>
        exact .cons binds onlyGlobal (ih
          (fun other inside => foretold other (List.mem_cons_of_mem _ inside))
          (locals_eq_nil_of_kept binds.kept onlyGlobal)
          (binds.covers (foretold first List.mem_cons_self) onlyGlobal covers) onward)
      | _ =>
        cases onward
        exact stopped binds

end Execution

end CheckedScript
