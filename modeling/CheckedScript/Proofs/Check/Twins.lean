import CheckedScript.Proofs.Check.Dependence

/-!
# Checking against stores that declare the same

A check does not look at the order of the global names and at the values behind them. Against two
stores that look alike to it, it goes in step: it finds the same and leaves them looking alike
(`twin_checkStatements`). How much the stores have in common is left open (`Store.Congruence`).
-/

namespace CheckedScript

namespace Store

/-- Two related stores look alike to a check, and stay related whatever a check does to them. -/
structure Congruence (R : Store → Store → Prop) : Prop where
  looksAlike : ∀ {s t}, R s t → ∀ names, s.LooksAlike names t
  global : ∀ {s t}, R s t → ∀ name,
    Symbol.Alike (s.global.symbols.find? name) (t.global.symbols.find? name)
  depth : ∀ {s t}, R s t → t.depth = s.depth
  contains_current : ∀ {s t}, R s t → ∀ name,
    t.current.symbols.contains name = s.current.symbols.contains name
  push : ∀ {s t}, R s t → ∀ name kind, R (s.push name kind) (t.push name kind)
  extend : ∀ {s t}, R s t → ∀ added, R (s.extend added) (t.extend added)
  truncate : ∀ {s t}, R s t → ∀ depth, R (s.truncate depth) (t.truncate depth)
  of_sameScopes : ∀ {s t s' t'}, R s t → s.SameScopes s' → t.SameScopes t' → R s' t'

/-- The local scopes declare the same one by one, and the global scopes name by name. -/
structure DeclaresAs (s t : Store) : Prop where
  locals : t.locals.map Scope.outline = s.locals.map Scope.outline
  kind : t.global.kind = s.global.kind
  global : ∀ name, t.global.declaration? name = s.global.declaration? name

namespace DeclaresAs

variable {s t s' t' : Store}

theorem toMatches (same : s.DeclaresAs t) (names : List String) : s.Matches names t :=
  ⟨same.locals, same.kind, fun name _ _ => same.global name⟩

theorem of_sameScopes (same : s.DeclaresAs t) (scopes : s.SameScopes s')
    (scopes' : t.SameScopes t') : s'.DeclaresAs t' := by
  obtain ⟨locals, kind, global⟩ := same
  refine ⟨?_, ?_, ?_⟩
  · rw [scopes.locals, scopes'.locals, locals]
  · rw [scopes.global, scopes'.global, kind]
  · rw [scopes.global, scopes'.global]
    exact global

theorem length_locals (same : s.DeclaresAs t) : t.locals.length = s.locals.length := by
  simpa using congrArg List.length same.locals

theorem depth (same : s.DeclaresAs t) : t.depth = s.depth := by
  rw [Store.depth, Store.depth, same.length_locals]

theorem contains_current (same : s.DeclaresAs t) (name : String) :
    t.current.symbols.contains name = s.current.symbols.contains name := by
  have outlines := same.locals
  unfold Store.current
  cases inner : s.locals with
  | nil =>
    rw [inner, List.map_nil, List.map_eq_nil_iff] at outlines
    rw [outlines, List.headD_nil, List.headD_nil, Scope.contains_eq_isSome_declaration?,
      Scope.contains_eq_isSome_declaration?, same.global]
  | cons scope outer =>
    rw [inner] at outlines
    obtain ⟨scope', outer', inner', innermost, -⟩ := List.map_eq_cons_iff.mp outlines
    rw [inner']
    exact Scope.contains_of_outline_eq innermost name

theorem push (same : s.DeclaresAs t) (opened : String) (kind : ScopeKind) :
    (s.push opened kind).DeclaresAs (t.push opened kind) := by
  refine ⟨?_, same.kind, same.global⟩
  rw [push_locals, push_locals, List.map_cons, List.map_cons, same.locals]
  rfl

theorem extend (same : s.DeclaresAs t) (added : Bindings Symbol) :
    (s.extend added).DeclaresAs (t.extend added) := by
  obtain ⟨global, locals, nextId, history⟩ := s
  obtain ⟨global', locals', nextId', history'⟩ := t
  obtain ⟨outlines, kind, names⟩ := same
  cases locals with
  | nil =>
    cases List.map_eq_nil_iff.mp outlines
    refine ⟨rfl, kind, fun name => ?_⟩
    show (global'.extend added).declaration? name = (global.extend added).declaration? name
    rw [Scope.declaration?_extend, Scope.declaration?_extend]
    exact congrArg (Option.or · _) (names name)
  | cons scope outer =>
    obtain ⟨scope', outer', rfl, innermost, below⟩ := List.map_eq_cons_iff.mp outlines
    refine ⟨?_, kind, names⟩
    simp only [Store.extend, List.map_cons, below, Scope.outline_extend_of_eq innermost rfl]

theorem truncate (same : s.DeclaresAs t) (depth : Nat) :
    (s.truncate depth).DeclaresAs (t.truncate depth) := by
  refine ⟨?_, ?_, ?_⟩
  · rw [truncate_locals, truncate_locals, same.depth, List.map_drop, List.map_drop, same.locals]
  · rw [truncate_global, truncate_global, same.kind]
  · rw [truncate_global, truncate_global]
    exact same.global

theorem congruence : Congruence DeclaresAs where
  looksAlike same names := (same.toMatches names).looksAlike
  global same name := Symbol.alike_of_declaration_eq (same.global name)
  depth := depth
  contains_current := contains_current
  push := push
  extend := extend
  truncate := truncate
  of_sameScopes := of_sameScopes

end DeclaresAs

end Store

namespace Checking

open Check

/-- Two walks that have found the same since they began, and whose stores are related. -/
structure Twin (R : Store → Store → Prop) (earlier earlier' : List Diagnostic) (s t : Checking) :
    Prop where
  congruent : Store.Congruence R
  store : R s.store t.store
  found : ∃ found, s.diagnostics = earlier ++ found ∧ t.diagnostics = earlier' ++ found

namespace Twin

variable {R : Store → Store → Prop} {earlier earlier' : List Diagnostic} {s t s' t' : Checking}
  {c : CheckContext}

theorem looksAlike (twin : Twin R earlier earlier' s t) (names : List String) :
    s.store.LooksAlike names t.store :=
  twin.congruent.looksAlike twin.store names

theorem depth (twin : Twin R earlier earlier' s t) : t.store.depth = s.store.depth :=
  twin.congruent.depth twin.store

theorem of_findSame (twin : Twin R earlier earlier' s t) (same : FindSame s s' t t')
    (scopes : s.store.SameScopes s'.store) (scopes' : t.store.SameScopes t'.store) :
    Twin R earlier earlier' s' t' := by
  obtain ⟨found, left, right⟩ := twin.found
  obtain ⟨more, left', right'⟩ := same
  refine ⟨twin.congruent, twin.congruent.of_sameScopes twin.store scopes scopes', found ++ more,
    ?_, ?_⟩
  · rw [left', left, List.append_assoc]
  · rw [right', right, List.append_assoc]

theorem note (twin : Twin R earlier earlier' s t) (found : List Diagnostic) :
    Twin R earlier earlier' (s.note found) (t.note found) :=
  twin.of_findSame (findSame_note found) (.refl _) (.refl _)

theorem report (twin : Twin R earlier earlier' s t) (error : SemanticError) (span : Span) :
    Twin R earlier earlier' (s.report error span) (t.report error span) :=
  twin.note _

theorem push (twin : Twin R earlier earlier' s t) (name : String) (kind : ScopeKind) :
    Twin R earlier earlier' (s.push name kind) (t.push name kind) :=
  ⟨twin.congruent, twin.congruent.push twin.store name kind, twin.found⟩

theorem backTo (twin : Twin R earlier earlier' s t) (depth : Nat) :
    Twin R earlier earlier' (s.backTo depth) (t.backTo depth) :=
  ⟨twin.congruent, twin.congruent.truncate twin.store depth, twin.found⟩

theorem declare (twin : Twin R earlier earlier' s t) (name : Identifier) (symbol : Symbol)
    (atRuntime : Bool) :
    Twin R earlier earlier' (s.declare name symbol atRuntime) (t.declare name symbol atRuntime) := by
  have contained := twin.congruent.contains_current twin.store name.name
  cases taken : s.store.current.symbols.contains name.name with
  | true =>
    rw [declare_of_taken symbol atRuntime taken,
      declare_of_taken symbol atRuntime (contained.trans taken)]
    exact twin.report ..
  | false =>
    rw [declare_of_fresh symbol atRuntime taken,
      declare_of_fresh symbol atRuntime (contained.trans taken)]
    exact ⟨twin.congruent, twin.congruent.extend twin.store _, twin.found⟩

/-! ## Rules -/

theorem typeOf (twin : Twin R earlier earlier' s t) (e : Expression) :
    (t.typeOf c e).1 = (s.typeOf c e).1 ∧
      Twin R earlier earlier' (s.typeOf c e).2 (t.typeOf c e).2 := by
  obtain ⟨known, same⟩ := typeOf_of_looksAlike (c := c) (twin.looksAlike e.names)
  exact ⟨known, twin.of_findSame same (.refl _) (.refl _)⟩

theorem expect (twin : Twin R earlier earlier' s t) (found : Option Ty) (expected : Ty) (span : Span)
    (what : String) :
    Twin R earlier earlier' (s.expect found expected span what) (t.expect found expected span what) :=
  twin.of_findSame (findSame_expect ..) (grows_expect ..).sameScopes (grows_expect ..).sameScopes

theorem condition (twin : Twin R earlier earlier' s t) (construct : String) (e : Expression) :
    Twin R earlier earlier' (s.condition c construct e) (t.condition c construct e) :=
  twin.of_findSame (findSame_condition (twin.looksAlike _) construct)
    (grows_condition ..).sameScopes (grows_condition ..).sameScopes

theorem declaration (twin : Twin R earlier earlier' s t) (type : TypeName) (name : Identifier)
    (initializer : Option Expression) :
    Twin R earlier earlier' (s.declaration c type name initializer)
      (t.declaration c type name initializer) := by
  unfold Checking.declaration
  cases initializer with
  | none => exact twin.declare name _ true
  | some e =>
    obtain ⟨known, typed⟩ := twin.typeOf (c := c) e
    dsimp only
    rw [known]
    exact (typed.expect ..).declare name _ true

theorem recordInstance (twin : Twin R earlier earlier' s t) (type name : Identifier) :
    Twin R earlier earlier' (s.recordInstance type name) (t.recordInstance type name) := by
  have alike := (twin.looksAlike [type.name]).alike _ (List.mem_singleton_self _)
  unfold Checking.recordInstance
  generalize s.store.lookup? type.name = found at alike ⊢
  generalize t.store.lookup? type.name = found' at alike ⊢
  cases alike with
  | recordType r => exact twin.declare name _ true
  | _ => exact twin.report ..

theorem fields (twin : Twin R earlier earlier' s t) (record : String) (declarators : List Declarator)
    (bound : Bindings Ty) :
    (fields record declarators (bound, t)).1 = (fields record declarators (bound, s)).1 ∧
      Twin R earlier earlier' (fields record declarators (bound, s)).2
        (fields record declarators (bound, t)).2 := by
  induction declarators generalizing bound s t with
  | nil => exact ⟨rfl, twin⟩
  | cons field rest ih =>
    unfold Checking.fields
    split
    · exact ih (twin.report ..) bound
    · exact ih twin _

theorem recordType (twin : Twin R earlier earlier' s t) (name : Identifier)
    (declarators : List Declarator) :
    Twin R earlier earlier' (s.recordType c name declarators) (t.recordType c name declarators) := by
  unfold Checking.recordType
  split
  · obtain ⟨same, walked⟩ := twin.fields name.name declarators []
    dsimp only
    rw [same]
    exact walked.declare name _ false
  · exact twin.report ..

theorem parameters (twin : Twin R earlier earlier' s t) (parameters : List Declarator) :
    Twin R earlier earlier' (parameters.foldl parameter s) (parameters.foldl parameter t) := by
  induction parameters generalizing s t with
  | nil => exact twin
  | cons p rest ih => exact ih (twin.declare p.name _ false)

theorem function (twin : Twin R earlier earlier' s t) (name : Identifier) (symbol : FunctionSymbol) :
    Twin R earlier earlier' (s.function name symbol) (t.function name symbol) := by
  have alike := twin.congruent.global twin.store name.name
  unfold Checking.function
  generalize s.store.global.symbols.find? name.name = found at alike ⊢
  generalize t.store.global.symbols.find? name.name = found' at alike ⊢
  cases alike with
  | none => exact twin.declare name _ false
  | _ => exact twin.report ..

theorem bindErrorAccessor (twin : Twin R earlier earlier' s t) :
    Twin R earlier earlier' s.bindErrorAccessor t.bindErrorAccessor := by
  have contained := twin.congruent.contains_current twin.store errorAccessor
  unfold Checking.bindErrorAccessor
  cases taken : s.store.current.symbols.contains errorAccessor with
  | true =>
    rw [Store.define_of_taken _ taken, Store.define_of_taken _ (contained.trans taken)]
    exact twin
  | false =>
    rw [Store.define_of_fresh _ taken, Store.define_of_fresh _ (contained.trans taken)]
    exact ⟨twin.congruent, twin.congruent.extend twin.store _, twin.found⟩

end Twin

end Checking

namespace Check

open Checking

variable {R : Store → Store → Prop}

mutual

/-- Against two stores that look alike, the check of a statement goes in step. -/
theorem twin_checkStatement : (statement : Statement) → {c : CheckContext} →
    {earlier earlier' : List Diagnostic} → {s t : Checking} → Twin R earlier earlier' s t →
    Twin R earlier earlier' (checkStatement c statement s) (checkStatement c statement t)
  | .variable .., _, _, _, _, _, twin => by
    unfold checkStatement
    exact twin.declaration ..
  | .assignment .., _, _, _, _, _, twin => by
    unfold checkStatement
    exact twin.of_findSame (findSame_assignment (twin.looksAlike _))
      (grows_assignment ..).sameScopes (grows_assignment ..).sameScopes
  | .fieldAssignment .., _, _, _, _, _, twin => by
    unfold checkStatement
    exact twin.of_findSame (findSame_fieldAssignment (twin.looksAlike _))
      (grows_fieldAssignment ..).sameScopes (grows_fieldAssignment ..).sameScopes
  | .function name parameters returnType (.mk statements span) _, c, _, _, s, t, twin => by
    unfold checkStatement checkBlock
    split
    · have declared := twin.function name
        (functionSymbol name parameters (.ofReturnType returnType) (.mk statements span))
      have walked := (twin_checkStatements statements
        (c := c.inFunction ⟨name.name, .ofReturnType returnType⟩)
        ((declared.push name.name .function).parameters parameters)).backTo s.store.depth
      dsimp only
      rw [twin.depth]
      split
      · exact walked
      · exact walked.report ..
    · exact twin.report ..
  | .recordType .., _, _, _, _, _, twin => by
    unfold checkStatement
    exact twin.recordType ..
  | .recordInstance .., _, _, _, _, _, twin => by
    unfold checkStatement
    exact twin.recordInstance ..
  | .block (.mk statements _) _, c, _, _, s, t, twin => by
    unfold checkStatement checkBlock
    rw [twin.depth]
    exact (twin_checkStatements statements (twin.push "block" .block)).backTo _
  | .conditional branches none _, _, _, _, _, _, twin => by
    unfold checkStatement
    exact twin_checkBranches branches twin
  | .conditional branches (some (.mk statements _)) _, c, _, _, _, _, twin => by
    have tried := twin_checkBranches branches (c := c) twin
    unfold checkStatement checkBlock
    dsimp only
    rw [tried.depth]
    exact (twin_checkStatements statements (tried.push "else" .branch)).backTo _
  | .while condition (.mk statements _) _, c, _, _, _, _, twin => by
    have tested := twin.condition (c := c) "While" condition
    unfold checkStatement checkBlock
    dsimp only
    rw [tested.depth]
    exact (twin_checkStatements statements (tested.push "while" .loop)).backTo _
  | .break _, _, _, _, _, _, twin => by
    unfold checkStatement
    split
    · exact twin
    · exact twin.report ..
  | .continue _, _, _, _, _, _, twin => by
    unfold checkStatement
    split
    · exact twin
    · exact twin.report ..
  | .return _ span, _, _, _, _, _, twin => by
    unfold checkStatement
    exact twin.of_findSame (findSame_returning (twin.looksAlike _) span)
      (grows_returning ..).sameScopes (grows_returning ..).sameScopes
  | .print value _, c, _, _, _, _, twin => by
    obtain ⟨known, typed⟩ := twin.typeOf (c := c) value
    unfold checkStatement
    dsimp only
    rw [known]
    split
    · exact typed.report ..
    · exact typed
  | .attempt (.mk guarded _) (.mk recovery _) _, c, _, _, s, _, twin => by
    have tried := (twin_checkStatements guarded (c := c.inBlock)
      (twin.push "try" .guarded)).backTo s.store.depth
    unfold checkStatement checkBlock
    dsimp only
    rw [twin.depth]
    exact (twin_checkStatements recovery
      (tried.push "recover" .recovery).bindErrorAccessor).backTo _
  | .expression value _, _, _, _, _, _, twin => by
    unfold checkStatement
    exact (twin.typeOf value).2

theorem twin_checkStatements : (statements : List Statement) → {c : CheckContext} →
    {earlier earlier' : List Diagnostic} → {s t : Checking} → Twin R earlier earlier' s t →
    Twin R earlier earlier' (checkStatements c statements s) (checkStatements c statements t)
  | [], _, _, _, _, _, twin => by
    unfold checkStatements
    exact twin
  | statement :: rest, _, _, _, _, _, twin => by
    unfold checkStatements
    exact twin_checkStatements rest (twin_checkStatement statement twin)

theorem twin_checkBranches : (branches : List Branch) → {c : CheckContext} →
    {earlier earlier' : List Diagnostic} → {s t : Checking} → Twin R earlier earlier' s t →
    Twin R earlier earlier' (checkBranches c branches s) (checkBranches c branches t)
  | [], _, _, _, _, _, twin => by
    unfold checkBranches
    exact twin
  | .mk condition (.mk statements _) _ :: rest, c, _, _, _, _, twin => by
    have tested := twin.condition (c := c) "If" condition
    unfold checkBranches checkBlock
    dsimp only
    rw [tested.depth]
    exact twin_checkBranches rest
      ((twin_checkStatements statements (tested.push "if" .branch)).backTo _)

end

end Check

end CheckedScript
