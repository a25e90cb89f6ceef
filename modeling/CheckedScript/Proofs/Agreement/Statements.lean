import CheckedScript.Proofs.Agreement.Expressions

/-!
# Statements that are tracked

A statement that is tracked ends with a signal that its context allows, and if control goes on, the
store declares what the check declares after the statement.
-/

namespace CheckedScript

open Check Checking Execution Run

variable {V : Ty → Value → Prop} {program : Program} {store : Store} {fuel fuel' : Nat}
  {a a' : Activation} {m m₁ : Machine} {c : CheckContext} {s : Checking} {span : Span}
  {statement : Statement} {rest : List Statement} {last last' : Option Value}

namespace Tracked

section

variable (closed : store.Closed) (passed : (checkProgram program store).passed = true)

include closed passed

/-! ## What a statement declares -/

/-- A statement can bind its name, and both stores declare it then. -/
theorem declare (name : String) (symbol symbol' : Symbol)
    (tracked : Tracked V program store ⟨fuel, a, .execute statement, m⟩ c s)
    (runtime : statement.runtimeName? = some name)
    (declares : (statement.declarations s.store).bindings = [(name, symbol)])
    (same : symbol'.declaration = symbol.declaration) (kept : m.store.SameOutline m₁.store) :
    m₁.store.current.symbols.contains name = false ∧
      (checkStatement c statement s).store.Agrees (m₁.store.extend [(name, symbol')]) := by
  have grown := grows_declarations (tracked.accepted closed passed)
  have agrees := tracked.agrees.of_sameOutline kept
  have free : s.store.current.symbols.contains name = false := by
    refine Bindings.contains_eq_false_iff.mpr (grown.fresh name ?_)
    rw [declares]
    exact List.mem_cons_self
  -- Agreement alone says nothing of the names that only the global scope of the run binds.
  have atTop : s.store.locals = [] → m₁.store.global.symbols.contains name = false := by
    intro onlyGlobal
    rw [Scope.contains_of_outline_eq kept.global]
    exact (tracked.ready onlyGlobal).1 name runtime
  constructor
  · by_cases onlyGlobal : s.store.locals = []
    · have current : m₁.store.current = m₁.store.global := by
        rw [Store.current, agrees.locals.eq_nil_iff.mpr onlyGlobal]
        rfl
      exact current ▸ atTop onlyGlobal
    · rw [Scope.contains_of_outline_eq (agrees.current onlyGlobal)]
      exact free
  · have scopes := grown.scopes
    rw [declares] at scopes
    exact (agrees.extend same atTop).of_sameScopes scopes

/-- A function or a record type is bound already where its declaration is executed. -/
theorem agrees_of_registered {b : String × Symbol}
    (tracked : Tracked V program store ⟨fuel, a, .execute statement, m⟩ c s)
    (registered : statement.registration? = some b)
    (declares : (statement.declarations s.store).bindings = [b]) :
    (checkStatement c statement s).store.Agrees m.store := by
  have clean : (checkStatement c statement s).Clean := tracked.accepted closed passed
  have top : c.isTopLevel = true := by
    by_contra nested
    rw [Bool.not_eq_true] at nested
    cases registered.symm.trans (registration?_eq_none_of_nested nested clean)
  have onlyGlobal : s.store.locals = [] :=
    locals_eq_nil_of_isGlobal ((tracked.stands closed passed).level.symm.trans top)
  have scopes := (grows_declarations clean).scopes
  rw [declares] at scopes
  exact (tracked.agrees.register onlyGlobal ((tracked.ready onlyGlobal).2 b registered)).of_sameScopes
    scopes

/-- A statement that declares nothing leaves the stores in agreement. -/
theorem agrees_of_silent {result : Except Unwind Signal}
    (tracked : Tracked V program store ⟨fuel, a, .execute statement, m⟩ c s)
    (silent : statement.runtimeName? = none) (declares : statement.declarations s.store = [])
    (ended : execute fuel a statement m = (result, m₁)) :
    (checkStatement c statement s).store.Agrees m₁.store := by
  have grown := grows_declarations (tracked.accepted closed passed)
  rw [declares] at grown
  have keeps : (execute fuel a statement).Keeps := by
    refine ((framesAt fuel).execute a statement).keeps ?_
    rintro binding ⟨named, -⟩
    cases silent.symm.trans named
  exact (tracked.agrees.of_sameOutline (keeps.after ended)).of_sameScopes grown.sameScopes

theorem first (tracked : Tracked V program store ⟨fuel, a, .executeAll (statement :: rest), m⟩ c s) :
    Tracked V program store ⟨fuel', a', .execute statement, m⟩ c s := by
  refine tracked.part .first fun onlyGlobal => ?_
  have nested := (tracked.visited.placed closed passed).body _ rfl
  rw [Store.isGlobal, onlyGlobal] at nested
  cases nested

end

/-- The caught message can be bound in the scope of a recover block, whose statements are tracked
then. -/
theorem recovery {guarded recovery : Block} {error : RuntimeError}
    (tracked : Tracked V program store ⟨fuel + 1, a, .execute (.attempt guarded recovery span), m⟩
      c s)
    (caught : Run.inScope "try" .guarded (executeAll fuel a.inGuard guarded.statements) m =
      (.error (.recoverable error), m₁))
    (holds : m₁.store.Holds V) (text : V .str (.str error.message)) :
    ∃ m₂ s', define a.inRecovery errorAccessor (.variable .str (.str error.message)) recovery.span
        (m₁.enter "recover" .recovery) = (.ok (), m₂) ∧
      Tracked V program store ⟨fuel, a.inRecovery, .executeAll recovery.statements, m₂⟩
        c.inRecoverBlock s' := by
  have kept := (((framesAt fuel).executeAll a.inGuard guarded.statements).inScope "try"
    .guarded).after caught
  refine ⟨_, _, define_eq rfl, .walk tracked.visited .recovery, ?_, ?_, trivial⟩
  · rw [bindErrorAccessor_push]
    exact (((tracked.agrees.of_sameOutline kept).of_sameScopes
      (grows_scopedBlock ..).sameScopes).push _ _).extend rfl nofun
  · exact Store.Every.extend (Store.Every.push holds _ _) (List.forall_mem_singleton.mpr text)

theorem next (tracked : Tracked V program store ⟨fuel, a, .executeAll (statement :: rest), m⟩ c s)
    (agrees : (checkStatement c statement s).store.Agrees m₁.store) (holds : m₁.store.Holds V) :
    Tracked V program store ⟨fuel', a', .executeAll rest, m₁⟩ c (checkStatement c statement s) :=
  ⟨.walk tracked.visited .next, agrees, holds, trivial⟩

/-! ## The statements of a program -/

section

variable (closed : store.Closed) (passed : (checkProgram program store).passed = true)

include closed passed

theorem clean_program (tracked : Tracked V program store ⟨fuel, a, .program rest last, m⟩ c s) :
    (checkStatements c rest s).Clean ∧ s.store.locals = [] := by
  have placed := tracked.visited.placed closed passed
  exact ⟨tracked.accepted closed passed, locals_eq_nil_of_isGlobal (placed.program _ _ rfl)⟩

theorem topStatement
    (tracked : Tracked V program store ⟨fuel, a, .program (statement :: rest) last, m⟩ c s) :
    Tracked V program store ⟨fuel', a', .execute statement, m⟩ c s := by
  obtain ⟨clean, onlyGlobal⟩ := tracked.clean_program closed passed
  obtain ⟨registered, names⟩ := tracked.ready
  refine tracked.part .topStatement fun _ => ⟨?_, ?_⟩
  · intro name runtime
    obtain ⟨added, grown, lasting, -, declared⟩ := (registers_checkStatements _ clean).added
    have free := contains_lasting_eq_false grown (declared _ List.mem_cons_self name runtime)
    rw [lasting, Bindings.contains_eq_false_iff, Store.current, onlyGlobal] at free
    exact Bindings.contains_eq_false_iff.mpr fun bound => free (names name bound)
  · intro b registration
    exact registered b (by simp [registration])

/-- Whatever a statement has bound, the check has declared. -/
theorem afterTop {added : Bindings Symbol}
    (tracked : Tracked V program store ⟨fuel, a, .program (statement :: rest) last, m⟩ c s)
    (agrees : (checkStatement c statement s).store.Agrees m₁.store) (holds : m₁.store.Holds V)
    (allowed : ∀ binding ∈ added, statement.MayAdd binding)
    (kept : (m.store.extend added).SameOutline m₁.store) :
    Tracked V program store ⟨fuel', a', .program rest last', m₁⟩ c
      (checkStatement c statement s) := by
  obtain ⟨clean, onlyGlobal⟩ := tracked.clean_program closed passed
  have headClean : (checkStatement c statement s).Clean :=
    (continues_checkStatements c rest _).clean clean
  obtain ⟨registered, names⟩ := tracked.ready
  have outline := kept.global
  rw [Store.extend_global_of_locals_eq_nil (tracked.agrees.locals.eq_nil_iff.mpr onlyGlobal)]
    at outline
  refine ⟨.walk tracked.visited .afterTop, agrees, holds, ?_, ?_⟩
  -- What has been added cannot hide a registration, which comes before it in the scope.
  · intro b inside
    obtain ⟨other, later, registration⟩ := List.mem_filterMap.mp inside
    have before := registered b
      (List.mem_filterMap.mpr ⟨other, List.mem_cons_of_mem _ later, registration⟩)
    have kept : (m.store.global.extend added).symbols.find? b.1 = some b.2 :=
      Bindings.within_append _ added b.1 b.2 before
    have declared := Scope.find?_of_outline_eq outline b.1
    rw [kept, Option.map_some] at declared
    obtain ⟨symbol, found, same⟩ := Option.map_eq_some_iff.mp declared
    exact Symbol.eq_of_declaration_eq (Statement.not_isData_of_registration? registration) same ▸
      found
  · intro name bound
    have placed := tracked.visited.placed closed passed
    rw [global_checkStatement_of_top (placed.program _ _ rfl) headClean,
      Scope.mem_names_extend_iff, Scope.mem_names_extend_iff]
    rw [Scope.names_of_outline_eq outline, Scope.mem_names_extend_iff] at bound
    rcases bound with before | new
    · rcases Scope.mem_names_extend_iff.mp (names name before) with old | listed
      · exact .inl (.inl old)
      · obtain ⟨b, inside, rfl⟩ := List.mem_map.mp listed
        obtain ⟨other, further, registration⟩ := List.mem_filterMap.mp inside
        rcases List.mem_cons.mp further with rfl | later
        · exact .inl (.inr (List.mem_map_of_mem
            (Statement.mem_declarations_of_registration? registration s.store)))
        · exact .inr (List.mem_map_of_mem (List.mem_filterMap.mpr ⟨other, later, registration⟩))
    · obtain ⟨binding, inside, rfl⟩ := List.mem_map.mp new
      have declared := mem_declarations_of_runtimeName? headClean (allowed binding inside).1
      refine .inl (.inr ?_)
      rw [Declarations.names_bindings]
      obtain ⟨d, present, same⟩ := List.mem_map.mp declared
      exact List.mem_map.mpr ⟨d, present, by rw [same]⟩

theorem afterTopStatement
    (tracked : Tracked V program store ⟨fuel, a, .program (statement :: rest) last, m⟩ c s)
    (done : execute fuel a statement m = (.ok .normal, m₁))
    (agrees : (checkStatement c statement s).store.Agrees m₁.store) (holds : m₁.store.Holds V) :
    Tracked V program store ⟨fuel', a', .program rest last', m₁⟩ c
      (checkStatement c statement s) := by
  obtain ⟨added, allowed, kept⟩ := (framesAt fuel).execute a statement m
  rw [done] at kept
  exact tracked.afterTop closed passed agrees holds allowed kept

theorem afterTopExpression {e : Expression} {v : Value}
    (tracked : Tracked V program store ⟨fuel, a, .program (.expression e span :: rest) last, m⟩ c s)
    (known : evaluate fuel a e m = (.ok v, m₁)) (holds : m₁.store.Holds V) :
    Tracked V program store ⟨fuel', a', .program rest last', m₁⟩ c
      (checkStatement c (.expression e span) s) := by
  obtain ⟨clean, -⟩ := tracked.clean_program closed passed
  have grown := grows_declarations ((continues_checkStatements c rest _).clean clean)
  have kept := ((framesAt fuel).evaluate a e).after known
  have agrees := (tracked.agrees.of_sameOutline kept).of_sameScopes grown.sameScopes
  exact tracked.afterTop closed passed agrees holds (nofun : ∀ binding ∈ [], _) (by simpa using kept)

end

end Tracked

end CheckedScript
