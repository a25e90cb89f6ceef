import CheckedScript.Proofs.Check.Placement

/-!
# The scopes of a check and of a run

Where a run performs a part of a program, its scopes declare what the check has found there. The
local scopes are the same up to the activation of the function that the part belongs to, below which
a run has the scopes of the callers. The global scope of a run may bind more names: those of
functions and record types that are declared further down, and whatever has been added since a
function was checked.
-/

namespace CheckedScript

/-- The local scopes of a run, in the second place, declare what those of a check do. -/
inductive Follows : List Scope → List Scope → Prop
  | top : Follows [] []
  | activation {c m : Scope} {callers : List Scope} (function : c.kind = .function)
      (same : m.outline = c.outline) : Follows [c] (m :: callers)
  | inner {c m : Scope} {cs ms : List Scope} (same : m.outline = c.outline)
      (outer : Follows cs ms) : Follows (c :: cs) (m :: ms)

namespace Follows

variable {cs ms : List Scope}

theorem eq_nil_iff (follows : Follows cs ms) : ms = [] ↔ cs = [] := by
  cases follows <;> simp

theorem findLocal?_eq_some (follows : Follows cs ms) {name : String} {scope : Scope}
    (found : Store.findLocal? name cs = some scope) :
    ∃ scope', Store.findLocal? name ms = some scope' ∧ scope'.outline = scope.outline := by
  induction follows with
  | top => cases found
  | @activation c m callers function same =>
    unfold Store.findLocal? at found ⊢
    rw [Scope.contains_of_outline_eq same]
    split at found
    · next bound =>
      cases found
      exact ⟨m, by rw [if_pos bound], same⟩
    · cases found
  | @inner c m cs ms same _ ih =>
    unfold Store.findLocal? at found ⊢
    rw [Scope.contains_of_outline_eq same, Scope.kind_of_outline_eq same]
    split at found
    · next bound =>
      cases found
      exact ⟨m, by rw [if_pos bound], same⟩
    · next free =>
      split at found
      · cases found
      · next inside =>
        rw [if_neg free, if_neg inside]
        exact ih found

theorem findLocal?_eq_none (follows : Follows cs ms) {name : String}
    (unbound : Store.findLocal? name cs = none) : Store.findLocal? name ms = none := by
  induction follows with
  | top => rfl
  | @activation c m callers function same =>
    unfold Store.findLocal? at unbound ⊢
    rw [Scope.contains_of_outline_eq same, Scope.kind_of_outline_eq same]
    split at unbound
    · cases unbound
    -- A name is looked up no further than to the function, so the scopes of the callers do not
    -- count.
    · next free => rw [if_neg free, if_pos function]
  | @inner c m cs ms same _ ih =>
    unfold Store.findLocal? at unbound ⊢
    rw [Scope.contains_of_outline_eq same, Scope.kind_of_outline_eq same]
    split at unbound
    · cases unbound
    · next free =>
      rw [if_neg free]
      split at unbound
      · next outside => rw [if_pos outside]
      · next inside =>
        rw [if_neg inside]
        exact ih unbound

/-- Changing the values in the scopes of the run. -/
theorem of_outlines (follows : Follows cs ms) {others : List Scope}
    (same : others.map Scope.outline = ms.map Scope.outline) : Follows cs others := by
  induction follows generalizing others with
  | top =>
    rw [List.map_nil, List.map_eq_nil_iff] at same
    exact same ▸ .top
  | activation function innermost =>
    obtain ⟨other, rest, rfl, outline, -⟩ := List.map_eq_cons_iff.mp same
    exact .activation function (outline.trans innermost)
  | inner innermost _ ih =>
    obtain ⟨other, rest, rfl, outline, below⟩ := List.map_eq_cons_iff.mp same
    exact .inner (outline.trans innermost) (ih below)

end Follows

namespace Store

/-- Every name that is global for the check is global for the run, with the same declaration. -/
def Covers (c m : Scope) : Prop :=
  ∀ name symbol, c.symbols.find? name = some symbol →
    ∃ symbol', m.symbols.find? name = some symbol' ∧ symbol'.declaration = symbol.declaration

theorem covers_iff {c m : Scope} :
    Covers c m ↔ ∀ name declared, c.declaration? name = some declared →
      m.declaration? name = some declared := by
  constructor
  · intro covers name declared found
    obtain ⟨symbol, bound, rfl⟩ := Option.map_eq_some_iff.mp found
    obtain ⟨symbol', bound', same⟩ := covers name symbol bound
    exact Option.map_eq_some_iff.mpr ⟨symbol', bound', same⟩
  · intro covers name symbol bound
    exact Option.map_eq_some_iff.mp (covers name _ (Option.map_eq_some_iff.mpr ⟨symbol, bound, rfl⟩))

/-- A store of a run declares what the store of a check does. -/
structure Agrees (c m : Store) : Prop where
  locals : Follows c.locals m.locals
  global : Covers c.global m.global

namespace Agrees

variable {c d m n : Store}

/-- A name that the check resolves is resolved by the run, to the same declaration. -/
theorem lookup? (agrees : c.Agrees m) {name : String} {symbol : Symbol}
    (found : c.lookup? name = some symbol) :
    ∃ symbol', m.lookup? name = some symbol' ∧ symbol'.declaration = symbol.declaration := by
  obtain ⟨scope, resolved, bound⟩ := Option.bind_eq_some_iff.mp found
  unfold Store.resolve? at resolved
  split at resolved
  · next inner active =>
    cases resolved
    obtain ⟨scope', active', same⟩ := agrees.locals.findLocal?_eq_some active
    have declared := Scope.find?_of_outline_eq same name
    rw [bound, Option.map_some] at declared
    obtain ⟨symbol', bound', declares⟩ := Option.map_eq_some_iff.mp declared
    refine ⟨symbol', ?_, declares⟩
    simp [Store.lookup?, Store.resolve?, active', bound']
  · next outside =>
    split at resolved
    · cases resolved
      obtain ⟨symbol', bound', declares⟩ := agrees.global name symbol bound
      refine ⟨symbol', ?_, declares⟩
      have outside' := agrees.locals.findLocal?_eq_none outside
      simp [Store.lookup?, Store.resolve?, outside', Bindings.contains, bound']
    · cases resolved

theorem lookup?_variable (agrees : c.Agrees m) {name : String} {type : Ty} {value : Value}
    (found : c.lookup? name = some (.variable type value)) :
    ∃ held, m.lookup? name = some (.variable type held) := by
  obtain ⟨symbol, found', declares⟩ := agrees.lookup? found
  obtain ⟨-, held, rfl⟩ := Symbol.declaration_eq_variable_iff.mp declares
  exact ⟨held, found'⟩

theorem lookup?_function (agrees : c.Agrees m) {name : String} {f : FunctionSymbol}
    (found : c.lookup? name = some (.function f)) : m.lookup? name = some (.function f) := by
  obtain ⟨symbol, found', declares⟩ := agrees.lookup? found
  exact Symbol.declaration_eq_function_iff.mp declares ▸ found'

theorem lookup?_recordType (agrees : c.Agrees m) {name : String} {r : RecordType}
    (found : c.lookup? name = some (.recordType r)) : m.lookup? name = some (.recordType r) := by
  obtain ⟨symbol, found', declares⟩ := agrees.lookup? found
  exact Symbol.declaration_eq_recordType_iff.mp declares ▸ found'

theorem lookup?_field (agrees : c.Agrees m) {name field : String} {r : RecordInstance}
    {slot : FieldSlot} (found : c.lookup? name = some (.recordInstance r))
    (present : r.fields.find? field = some slot) :
    ∃ held value, m.lookup? name = some (.recordInstance held) ∧
      held.fields.find? field = some ⟨slot.type, value⟩ := by
  obtain ⟨symbol, found', declares⟩ := agrees.lookup? found
  obtain ⟨held, rfl, fields⟩ := Symbol.declaration_eq_recordInstance declares
  have declared := congrArg (Bindings.find? field) fields
  rw [Bindings.find?_mapValues, Bindings.find?_mapValues, present, Option.map_some] at declared
  obtain ⟨⟨type, value⟩, present', same⟩ := Option.map_eq_some_iff.mp declared
  cases same
  exact ⟨held, value, found', present'⟩

theorem of_sameScopes (agrees : c.Agrees m) (same : c.SameScopes d) : d.Agrees m :=
  ⟨same.locals ▸ agrees.locals, same.global ▸ agrees.global⟩

theorem covers_of_outline_eq {c m n : Scope} (covers : Covers c m) (same : n.outline = m.outline) :
    Covers c n := by
  intro name symbol found
  obtain ⟨symbol', found', declares⟩ := covers name symbol found
  have outline := Scope.find?_of_outline_eq same name
  rw [found', Option.map_some] at outline
  obtain ⟨symbol'', found'', declares'⟩ := Option.map_eq_some_iff.mp outline
  exact ⟨symbol'', found'', declares'.trans declares⟩

theorem of_sameOutline (agrees : c.Agrees m) (same : m.SameOutline n) : c.Agrees n :=
  ⟨agrees.locals.of_outlines same.locals, covers_of_outline_eq agrees.global same.global⟩

/-- Inside a block, the innermost scopes declare the same. -/
theorem current (agrees : c.Agrees m) (nested : c.locals ≠ []) :
    m.current.outline = c.current.outline := by
  obtain ⟨global, locals, nextId, history⟩ := c
  obtain ⟨global', locals', nextId', history'⟩ := m
  obtain ⟨follows, covers⟩ := agrees
  cases follows with
  | top => exact absurd rfl nested
  | activation function same => exact same
  | inner same outer => exact same

theorem push (agrees : c.Agrees m) (name : String) (kind : ScopeKind) :
    (c.push name kind).Agrees (m.push name kind) :=
  ⟨.inner rfl agrees.locals, agrees.global⟩

theorem covers_extend {c m : Scope} (covers : Covers c m) {name : String}
    {symbol symbol' : Symbol} (same : symbol'.declaration = symbol.declaration)
    (fresh : m.symbols.contains name = false) :
    Covers (c.extend [(name, symbol)]) (m.extend [(name, symbol')]) := by
  intro other declared found
  rw [Scope.extend, Bindings.find?_append] at found ⊢
  rcases Option.or_eq_some_iff.mp found with before | ⟨-, new⟩
  · obtain ⟨held, before', declares⟩ := covers other declared before
    exact ⟨held, by rw [before']; rfl, declares⟩
  · obtain ⟨rfl, rfl⟩ : name = other ∧ symbol = declared := by simpa [Bindings.find?] using new
    have unbound := Bindings.find?_eq_none_iff.mpr (Bindings.contains_eq_false_iff.mp fresh)
    exact ⟨symbol', by simp [unbound, Bindings.find?], same⟩

/-- Both stores bind a new name with one declaration. -/
theorem extend (agrees : c.Agrees m) {name : String} {symbol symbol' : Symbol}
    (same : symbol'.declaration = symbol.declaration)
    (fresh : c.locals = [] → m.global.symbols.contains name = false) :
    (c.extend [(name, symbol)]).Agrees (m.extend [(name, symbol')]) := by
  have bound : Bindings.mapValues Symbol.declaration [(name, symbol')] =
      Bindings.mapValues Symbol.declaration [(name, symbol)] := by
    simp [Bindings.mapValues, same]
  obtain ⟨global, locals, nextId, history⟩ := c
  obtain ⟨global', locals', nextId', history'⟩ := m
  obtain ⟨follows, covers⟩ := agrees
  cases follows with
  | top => exact ⟨.top, covers_extend covers same (fresh rfl)⟩
  | activation function innermost =>
    exact ⟨.activation function (Scope.outline_extend_of_eq innermost bound), covers⟩
  | inner innermost outer =>
    exact ⟨.inner (Scope.outline_extend_of_eq innermost bound) outer, covers⟩

/-- The check declares a name that has been registered for the run in advance. -/
theorem register (agrees : c.Agrees m) (top : c.locals = []) {name : String} {symbol : Symbol}
    (registered : m.global.symbols.find? name = some symbol) :
    (c.extend [(name, symbol)]).Agrees m := by
  have extended : c.extend [(name, symbol)] =
      { c with global := c.global.extend [(name, symbol)] } := by simp [Store.extend, top]
  rw [extended]
  refine ⟨agrees.locals, fun other declared found => ?_⟩
  rw [Scope.extend, Bindings.find?_append] at found
  rcases Option.or_eq_some_iff.mp found with before | ⟨-, new⟩
  · exact agrees.global other declared before
  · obtain ⟨rfl, rfl⟩ : name = other ∧ symbol = declared := by simpa [Bindings.find?] using new
    exact ⟨symbol, registered, rfl⟩

/-- The scopes of the body of a function when it is called: of the caller's scopes, only the global
one is seen. -/
theorem call {b : Store} {scope : Scope} (name : String) {values : Bindings Symbol}
    (agrees : c.Agrees m) (global : b.global.symbols.Within c.global.symbols)
    (locals : b.locals = [scope]) (function : scope.kind = .function)
    (bound : values.mapValues Symbol.declaration = scope.symbols.mapValues Symbol.declaration) :
    b.Agrees ((m.push name .function).extend values) := by
  refine ⟨?_, fun other symbol found => agrees.global other symbol (global other symbol found)⟩
  rw [locals]
  refine .activation function ?_
  simp [Scope.extend, Scope.outline, function, bound]

end Agrees

end Store

end CheckedScript
