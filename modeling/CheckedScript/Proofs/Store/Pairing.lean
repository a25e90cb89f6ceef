import CheckedScript.Proofs.Store.Outline

/-!
# Two stores that runs cannot tell apart

A run sees the local scopes down to the innermost activation of a function, and the global scope. Two
stores are paired if the local scopes that are seen hold the same and the global scopes are coupled;
what stands below the activation may differ. Every operation on the one store has its counterpart on
the other, and the results are paired again.
-/

namespace CheckedScript

/-- The same scope, but for the number that only the history reads. -/
structure Scope.Twin (s t : Scope) : Prop where
  name : t.name = s.name
  kind : t.kind = s.kind
  symbols : t.symbols = s.symbols

namespace Store

/-- Two stacks of scopes that hold the same down to the innermost activation of a function. Below it
stand `hidden` and `hidden'`. -/
inductive Facing : (hidden hidden' scopes twins : List Scope) → Prop
  | top : Facing [] [] [] []
  | activation {scope twin : Scope} {outer outer' : List Scope} (same : scope.Twin twin)
      (function : scope.kind = .function) :
      Facing outer outer' (scope :: outer) (twin :: outer')
  | block {scope twin : Scope} {hidden hidden' outer outer' : List Scope} (same : scope.Twin twin)
      (ordinary : scope.kind ≠ .function) (below : Facing hidden hidden' outer outer') :
      Facing hidden hidden' (scope :: outer) (twin :: outer')

namespace Facing

variable {hidden hidden' scopes twins outer outer' : List Scope} {scope twin : Scope}

theorem exists_refl (scopes : List Scope) : ∃ hidden, Facing hidden hidden scopes scopes := by
  induction scopes with
  | nil => exact ⟨[], .top⟩
  | cons scope outer ih =>
    by_cases function : scope.kind = .function
    · exact ⟨outer, .activation ⟨rfl, rfl, rfl⟩ function⟩
    · obtain ⟨hidden, below⟩ := ih
      exact ⟨hidden, .block ⟨rfl, rfl, rfl⟩ function below⟩

theorem of_activation (facing : Facing hidden hidden' (scope :: outer) (twin :: outer'))
    (function : scope.kind = .function) : outer = hidden ∧ outer' = hidden' := by
  cases facing with
  | activation => exact ⟨rfl, rfl⟩
  | block same ordinary below => exact absurd function ordinary

theorem of_block (facing : Facing hidden hidden' (scope :: outer) (twin :: outer'))
    (ordinary : scope.kind ≠ .function) : Facing hidden hidden' outer outer' := by
  cases facing with
  | activation same function => exact absurd function ordinary
  | block same ordinary below => exact below

theorem eq_nil_iff (facing : Facing hidden hidden' scopes twins) : twins = [] ↔ scopes = [] := by
  cases facing <;> simp

theorem contains (same : scope.Twin twin) (name : String) :
    twin.symbols.contains name = scope.symbols.contains name := by
  rw [same.symbols]

/-- A name is found in the same local scope, if in any. -/
theorem symbols_findLocal? (facing : Facing hidden hidden' scopes twins) (name : String) :
    (findLocal? name twins).map Scope.symbols = (findLocal? name scopes).map Scope.symbols := by
  induction facing with
  | top => rfl
  | activation same function =>
    unfold findLocal?
    rw [contains same, same.kind, if_pos function]
    split
    · exact congrArg some same.symbols
    · rfl
  | block same ordinary below ih =>
    unfold findLocal?
    rw [contains same, same.kind, if_neg ordinary]
    split
    · exact congrArg some same.symbols
    · exact ih

theorem modifyLocal (facing : Facing hidden hidden' scopes twins) (name : String)
    (f : Symbol → Symbol) :
    Option.Rel (Facing hidden hidden') (modifyLocal name f scopes) (modifyLocal name f twins) := by
  have changed {scope twin : Scope} (same : scope.Twin twin) :
      ({ scope with symbols := scope.symbols.modify name f } : Scope).Twin
        { twin with symbols := twin.symbols.modify name f } :=
    ⟨same.name, same.kind, congrArg (Bindings.modify name f) same.symbols⟩
  induction facing with
  | top => exact .none
  | activation same function =>
    unfold Store.modifyLocal
    rw [contains same, if_pos function, if_pos (same.kind.trans function)]
    split
    · exact .some (.activation (changed same) function)
    · exact .none
  | @block scope twin hidden hidden' outer outer' same ordinary below ih =>
    unfold Store.modifyLocal
    have ordinary' : twin.kind ≠ .function := same.kind ▸ ordinary
    rw [contains same, if_neg ordinary, if_neg ordinary']
    split
    · exact .some (.block (changed same) ordinary below)
    · generalize Store.modifyLocal name f outer = rest at ih ⊢
      generalize Store.modifyLocal name f outer' = rest' at ih ⊢
      cases ih with
      | none => exact .none
      | some further => exact .some (.block same ordinary further)

theorem extend (facing : Facing hidden hidden' (scope :: outer) (twin :: outer'))
    (added : Bindings Symbol) :
    Facing hidden hidden' (scope.extend added :: outer) (twin.extend added :: outer') := by
  have longer {scope twin : Scope} (same : scope.Twin twin) :
      (scope.extend added).Twin (twin.extend added) :=
    ⟨same.name, same.kind, congrArg (· ++ added) same.symbols⟩
  cases facing with
  | activation same function => exact .activation (longer same) function
  | block same ordinary below => exact .block (longer same) ordinary below

end Facing

/-- A relation of global scopes that runs keep. The second scope finds what the first one finds; the
relation is exact if it finds nothing else. Some names may be bound in both. -/
structure Coupling where
  Related : Scope → Scope → Prop
  exact : Prop
  Admits : String → Prop
  name : ∀ {g g'}, Related g g' → g'.name = g.name
  find? : ∀ {g g' name symbol}, Related g g' → g.symbols.find? name = some symbol →
    g'.symbols.find? name = some symbol
  absent : ∀ {g g' name}, exact → Related g g' → g.symbols.find? name = none →
    g'.symbols.find? name = none
  modify : ∀ {g g' name} (f), Related g g' → g.symbols.contains name = true →
    Related { g with symbols := g.symbols.modify name f }
      { g' with symbols := g'.symbols.modify name f }
  fresh : ∀ {g g' name}, Related g g' → Admits name → g.symbols.contains name = false →
    g'.symbols.contains name = false
  extend : ∀ {g g' name} (symbol), Related g g' → Admits name → g.symbols.contains name = false →
    Related (g.extend [(name, symbol)]) (g'.extend [(name, symbol)])

/-- The global scopes are coupled, and the local scopes that are seen hold the same. -/
structure Paired (C : Coupling) (hidden hidden' : List Scope) (s t : Store) : Prop where
  global : C.Related s.global t.global
  locals : Facing hidden hidden' s.locals t.locals

namespace Paired

variable {C : Coupling} {hidden hidden' : List Scope} {s t s' t' : Store} {name : String}

theorem findLocal?_bind (paired : s.Paired C hidden hidden' t) (name : String) :
    ((findLocal? name t.locals).bind fun scope => scope.symbols.find? name) =
      (findLocal? name s.locals).bind fun scope => scope.symbols.find? name := by
  have same := congrArg (fun found => found.bind (Bindings.find? name))
    (paired.locals.symbols_findLocal? name)
  simpa [Option.bind_map, Function.comp_def] using same

theorem lookup? (paired : s.Paired C hidden hidden' t) {symbol : Symbol}
    (found : s.lookup? name = some symbol) : t.lookup? name = some symbol := by
  rw [lookup?_eq_or] at found ⊢
  rw [paired.findLocal?_bind]
  rcases Option.or_eq_some_iff.mp found with inner | ⟨outside, bound⟩
  · rw [inner]
    rfl
  · rw [outside]
    exact C.find? paired.global bound

/-- A name is looked up alike, unless the first store lacks it and the coupling is not exact. -/
theorem lookup?_cases (paired : s.Paired C hidden hidden' t) (name : String) :
    t.lookup? name = s.lookup? name ∨ ¬ C.exact ∧ s.lookup? name = none := by
  cases found : s.lookup? name with
  | some symbol => exact .inl (paired.lookup? found)
  | none =>
    by_cases exact : C.exact
    · rw [lookup?_eq_or, Option.or_eq_none_iff] at found
      refine .inl ?_
      rw [lookup?_eq_or, paired.findLocal?_bind, found.1, C.absent exact paired.global found.2]
      rfl
    · exact .inr ⟨exact, rfl⟩

theorem modify (paired : s.Paired C hidden hidden' t) (bound : (s.lookup? name).isSome = true)
    (f : Symbol → Symbol) : (s.modify name f).Paired C hidden hidden' (t.modify name f) := by
  have changed := paired.locals.modifyLocal name f
  have outside : modifyLocal name f s.locals = none → s.global.symbols.contains name = true :=
    fun none => contains_global_of_lookup? bound (modifyLocal_eq_none_iff.mp none)
  unfold Store.modify
  generalize modifyLocal name f s.locals = inner at changed outside
  generalize modifyLocal name f t.locals = inner' at changed
  cases changed with
  | none => exact ⟨C.modify f paired.global (outside rfl), paired.locals⟩
  | some locals => exact ⟨paired.global, locals⟩

theorem update_ok (paired : s.Paired C hidden hidden' t) {change : SymbolUpdate}
    (updated : s.update name change = .ok s') :
    ∃ t', t.update name change = .ok t' ∧ s'.Paired C hidden hidden' t' := by
  obtain ⟨symbol, changed, found, rfl, kind⟩ := update_eq_ok updated
  have onward := paired.modify (by rw [found]; rfl) fun _ => changed
  have found' := paired.lookup? found
  unfold Store.update
  rcases kind with ⟨type, old, value, rfl, rfl, rfl⟩ | ⟨r, field, value, rfl, rfl, present, rfl⟩
  · exact ⟨_, by rw [found'], onward⟩
  · exact ⟨_, by rw [found']; dsimp only; rw [if_pos present], onward⟩

theorem update_error (paired : s.Paired C hidden hidden' t) {change : SymbolUpdate}
    {e : ScopeError} (refused : s.update name change = .error e) :
    t.update name change = .error e ∨ ¬ C.exact ∧ e = .undefinedSymbol name := by
  rcases paired.lookup?_cases name with same | ⟨vague, missing⟩
  · left
    unfold Store.update at refused ⊢
    rw [same]
    split at refused
    · exact refused
    · cases refused
    · split at refused
      · cases refused
      · next missing =>
        rw [if_neg missing]
        exact refused
    · exact refused
  · unfold Store.update at refused
    rw [missing] at refused
    cases refused
    exact .inr ⟨vague, rfl⟩

theorem extend (paired : s.Paired C hidden hidden' t) (admitted : s.locals = [] → C.Admits name)
    (fresh : s.current.symbols.contains name = false) (symbol : Symbol) :
    (s.extend [(name, symbol)]).Paired C hidden hidden' (t.extend [(name, symbol)]) := by
  obtain ⟨global, locals, nextId, history⟩ := s
  obtain ⟨global', locals', nextId', history'⟩ := t
  obtain ⟨coupled, facing⟩ := paired
  cases locals with
  | nil =>
    cases facing
    exact ⟨C.extend symbol coupled (admitted rfl) fresh, .top⟩
  | cons scope outer =>
    cases locals' with
    | nil => cases facing
    | cons twin outer' => exact ⟨coupled, facing.extend _⟩

/-- A name can be bound in both stores or in none. -/
theorem define (paired : s.Paired C hidden hidden' t) (admitted : s.locals = [] → C.Admits name)
    (symbol : Symbol) :
    (s.define name symbol = .ok (s.extend [(name, symbol)]) ∧
        t.define name symbol = .ok (t.extend [(name, symbol)]) ∧
        (s.extend [(name, symbol)]).Paired C hidden hidden' (t.extend [(name, symbol)])) ∨
      ∃ e, s.define name symbol = .error e ∧ t.define name symbol = .error e := by
  have sameName : t.current.name = s.current.name ∧
      (s.current.symbols.contains name = false → t.current.symbols.contains name = false) ∧
      (s.current.symbols.contains name = true → t.current.symbols.contains name = true) := by
    obtain ⟨global, locals, nextId, history⟩ := s
    obtain ⟨global', locals', nextId', history'⟩ := t
    obtain ⟨coupled, facing⟩ := paired
    cases facing with
    | top =>
      refine ⟨C.name coupled, C.fresh coupled (admitted rfl), fun bound => ?_⟩
      obtain ⟨symbol, found⟩ := Option.isSome_iff_exists.mp bound
      exact Option.isSome_iff_exists.mpr ⟨symbol, C.find? coupled found⟩
    | activation same | block same =>
      have contained := Facing.contains same name
      exact ⟨same.name, contained.trans, contained.trans⟩
  obtain ⟨named, free, bound⟩ := sameName
  cases taken : s.current.symbols.contains name with
  | false =>
    exact .inl ⟨define_of_fresh symbol taken, define_of_fresh symbol (free taken),
      paired.extend admitted taken symbol⟩
  | true =>
    refine .inr ⟨_, define_of_taken symbol taken, ?_⟩
    rw [define_of_taken symbol (bound taken), named]

theorem push (paired : s.Paired C hidden hidden' t) (opened : String) {kind : ScopeKind}
    (ordinary : kind ≠ .function) :
    (s.push opened kind).Paired C hidden hidden' (t.push opened kind) :=
  ⟨paired.global, .block ⟨rfl, rfl, rfl⟩ ordinary paired.locals⟩

/-- The activation of a function hides the scopes of its caller. -/
theorem activate (paired : s.Paired C hidden hidden' t) (opened : String) :
    (s.push opened .function).Paired C s.locals t.locals (t.push opened .function) :=
  ⟨paired.global, .activation ⟨rfl, rfl, rfl⟩ rfl⟩

end Paired

/-! ## Closing a scope -/

/-- A scope that was opened is the innermost one until it is closed. -/
theorem exists_of_opened {s left : Store} {opened : String} {kind : ScopeKind}
    {added : Bindings Symbol} (same : ((s.push opened kind).extend added).SameOutline left) :
    ∃ scope : Scope, scope.kind = kind ∧ left.locals = scope :: (left.truncate s.depth).locals := by
  have locals := same.locals
  obtain ⟨scope, outer, inner, outline, below⟩ := List.map_eq_cons_iff.mp locals
  have lengths := congrArg List.length below
  rw [List.length_map, List.length_map] at lengths
  refine ⟨scope, Scope.kind_of_outline_eq outline, ?_⟩
  rw [inner, truncate_locals_of_opened inner (by rw [Store.depth, lengths])]

namespace Paired

variable {C : Coupling} {hidden hidden' : List Scope} {s t left left' : Store} {opened : String}
  {kind : ScopeKind} {added added' : Bindings Symbol}

theorem close (after : left.Paired C hidden hidden' left') (ordinary : kind ≠ .function)
    (same : ((s.push opened kind).extend added).SameOutline left)
    (same' : ((t.push opened kind).extend added').SameOutline left') :
    (left.truncate s.depth).Paired C hidden hidden' (left'.truncate t.depth) := by
  obtain ⟨scope, rfl, inner⟩ := exists_of_opened same
  obtain ⟨twin, -, inner'⟩ := exists_of_opened same'
  have facing := after.locals
  rw [inner, inner'] at facing
  refine ⟨?_, facing.of_block ordinary⟩
  rw [truncate_global, truncate_global]
  exact after.global

/-- Below the activation of a function, nothing has changed when it is closed. -/
theorem deactivate (after : left.Paired C s.locals t.locals left')
    (same : ((s.push opened .function).extend added).SameOutline left)
    (same' : ((t.push opened .function).extend added').SameOutline left') :
    C.Related (left.truncate s.depth).global (left'.truncate t.depth).global ∧
      (left.truncate s.depth).locals = s.locals ∧ (left'.truncate t.depth).locals = t.locals := by
  obtain ⟨scope, function, inner⟩ := exists_of_opened same
  obtain ⟨twin, -, inner'⟩ := exists_of_opened same'
  have facing := after.locals
  rw [inner, inner'] at facing
  obtain ⟨restored, restored'⟩ := facing.of_activation function
  refine ⟨?_, restored, restored'⟩
  rw [truncate_global, truncate_global]
  exact after.global

end Paired

/-! ## Couplings -/

/-- Equal global scopes. -/
def Coupling.equal : Coupling where
  Related g g' := g' = g
  exact := True
  Admits _ := True
  name same := congrArg Scope.name same
  find? same found := same ▸ found
  absent _ same missing := same ▸ missing
  modify f same _ := by rw [same]
  fresh same _ free := same ▸ free
  extend symbol same _ _ := by rw [same]

/-- The second scope finds what the first one finds, and otherwise what is bound in `more`, where
the first one binds nothing. -/
structure Shows (more : Bindings Symbol) (g g' : Scope) : Prop where
  name : g'.name = g.name
  find? : ∀ name, g'.symbols.find? name = (g.symbols.find? name).or (more.find? name)
  apart : ∀ name ∈ more.names, g.symbols.find? name = none

namespace Shows

variable {more : Bindings Symbol} {g g' : Scope} {name : String}

theorem extend_self {g : Scope} (fresh : ∀ name ∈ more.names, name ∉ g.symbols.names) :
    Shows more g (g.extend more) :=
  ⟨rfl, fun name => Bindings.find?_append name _ _,
    fun name new => Bindings.find?_eq_none_iff.mpr (fresh name new)⟩

/-- A scope that binds the same names more finds nothing else. -/
theorem extend_more (shows : Shows more g g') : Shows [] (g.extend more) g' := by
  refine ⟨shows.name, fun name => ?_, nofun⟩
  rw [shows.find?, Scope.extend, Bindings.find?_append]
  exact (Option.or_none ..).symm

theorem not_mem_of_contains (shows : Shows more g g') (bound : g.symbols.contains name = true) :
    name ∉ more.names := by
  intro new
  rw [Bindings.contains, shows.apart name new] at bound
  cases bound

theorem modify (shows : Shows more g g') (f : Symbol → Symbol)
    (bound : g.symbols.contains name = true) :
    Shows more { g with symbols := g.symbols.modify name f }
      { g' with symbols := g'.symbols.modify name f } := by
  have others := Bindings.find?_eq_none_iff.mpr (shows.not_mem_of_contains bound)
  refine ⟨shows.name, fun other => ?_, fun other new => ?_⟩
  · by_cases here : other = name
    · subst here
      rw [Bindings.find?_modify_self, Bindings.find?_modify_self, shows.find?, others,
        Option.or_none, Option.or_none]
    · rw [Bindings.find?_modify_of_ne here, Bindings.find?_modify_of_ne here, shows.find?]
  · have different : other ≠ name := fun same =>
      shows.not_mem_of_contains bound (same ▸ new)
    rw [Bindings.find?_modify_of_ne different]
    exact shows.apart other new

theorem extend (shows : Shows more g g') (other : name ∉ more.names) (symbol : Symbol) :
    Shows more (g.extend [(name, symbol)]) (g'.extend [(name, symbol)]) := by
  have absent := Bindings.find?_eq_none_iff.mpr other
  refine ⟨shows.name, fun wanted => ?_, fun wanted new => ?_⟩
  · rw [Scope.extend, Scope.extend, Bindings.find?_append, Bindings.find?_append, shows.find?]
    by_cases here : name = wanted
    · subst here
      simp [absent]
    · simp [Bindings.find?, here]
  · have different : name ≠ wanted := fun same => other (same ▸ new)
    rw [Scope.extend, Bindings.find?_append, shows.apart wanted new]
    simp [Bindings.find?, different]

end Shows

/-- Global scopes of which the second one binds some names more. -/
def Coupling.showing (more : Bindings Symbol) : Coupling where
  Related := Shows more
  exact := more = []
  Admits name := name ∉ more.names
  name shows := shows.name
  find? shows found := by
    rw [shows.find?, found]
    rfl
  absent nothing shows missing := by
    rw [shows.find?, nothing, missing]
    rfl
  modify f shows bound := shows.modify f bound
  fresh := by
    intro g g' name shows other free
    rw [Bindings.contains_eq_false_iff, ← Bindings.find?_eq_none_iff] at free ⊢
    rw [shows.find?, free, Bindings.find?_eq_none_iff.mpr other]
    rfl
  extend symbol shows other _ := shows.extend other symbol

end Store

end CheckedScript
