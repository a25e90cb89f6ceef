import CheckedScript.Store.Basic

/-!
# Names added to the active scopes

Every operation of a checker or of a run on a store opens and closes scopes or binds names in the
innermost one. `Store.extend` is the result of binding names without asking whether they are taken,
and `Store.SameScopes` compares stores by their active scopes only, whatever their histories are.
-/

namespace CheckedScript

namespace Bindings

variable {α β : Type}

theorem find?_append (name : String) (front back : Bindings α) :
    find? name (front ++ back) = (find? name front).or (find? name back) := by
  induction front with
  | nil => rfl
  | cons b rest ih =>
    by_cases found : b.1 = name
    · simp [find?, found]
    · simpa [find?, found] using ih

theorem find?_eq_none_iff {name : String} {bs : Bindings α} :
    find? name bs = none ↔ name ∉ names bs := by
  rw [← contains_eq_true_iff, contains]
  simp

theorem contains_eq_false_iff {name : String} {bs : Bindings α} :
    contains bs name = false ↔ name ∉ names bs := by
  rw [← contains_eq_true_iff]
  simp

theorem find?_mapValues (f : α → β) (name : String) (bs : Bindings α) :
    find? name (mapValues f bs) = (find? name bs).map f := by
  induction bs with
  | nil => rfl
  | cons b rest ih =>
    by_cases found : b.1 = name
    · simp [mapValues, find?, found]
    · simpa [mapValues, find?, found] using ih

@[simp] theorem names_mapValues (f : α → β) (bs : Bindings α) : names (mapValues f bs) = names bs := by
  simp [names, mapValues]

theorem mem_of_find?_eq_some {name : String} {a : α} {bs : Bindings α}
    (found : find? name bs = some a) : (name, a) ∈ bs := by
  induction bs with
  | nil => simp [find?] at found
  | cons b rest ih =>
    unfold find? at found
    split at found
    · next here =>
      cases found
      exact here ▸ List.mem_cons_self
    · exact List.mem_cons_of_mem _ (ih found)

theorem find?_of_mem {name : String} {a : α} {bs : Bindings α} (distinct : (names bs).Nodup)
    (inside : (name, a) ∈ bs) : find? name bs = some a := by
  induction bs with
  | nil => cases inside
  | cons b rest ih =>
    obtain ⟨apart, later⟩ := List.nodup_cons.mp distinct
    rcases List.mem_cons.mp inside with rfl | further
    · simp [find?]
    · have other : ¬ b.1 = name := by
        rintro rfl
        exact apart (List.mem_map.mpr ⟨_, further, rfl⟩)
      rw [find?, if_neg other]
      exact ih later further

/-- Whatever the first bindings find, the second ones find too. -/
def Within (bs more : Bindings α) : Prop :=
  ∀ name a, find? name bs = some a → find? name more = some a

theorem Within.refl (bs : Bindings α) : bs.Within bs := fun _ _ found => found

theorem Within.trans {first second third : Bindings α} (inner : first.Within second)
    (outer : second.Within third) : first.Within third :=
  fun name a found => outer name a (inner name a found)

theorem within_append (bs added : Bindings α) : bs.Within (bs ++ added) := by
  intro name a found
  rw [find?_append, found]
  rfl

/-- Erasing a name that occurs once, after bindings of other names. -/
theorem erase_append_cons {name : String} {front : Bindings α} (fresh : name ∉ names front) (a : α)
    (back : Bindings α) : erase name (front ++ (name, a) :: back) = front ++ back := by
  induction front with
  | nil => simp [erase]
  | cons b rest ih =>
    have other : ¬ b.1 = name := fun same => fresh (by simp [names, same])
    have later : name ∉ names rest := fun inside => fresh (List.mem_cons_of_mem _ inside)
    simp [erase, other, ih later]

end Bindings

def Scope.extend (scope : Scope) (added : Bindings Symbol) : Scope :=
  { scope with symbols := scope.symbols ++ added }

@[simp] theorem Scope.extend_nil (scope : Scope) : scope.extend [] = scope := by
  simp [Scope.extend]

@[simp] theorem Scope.extend_extend (scope : Scope) (first second : Bindings Symbol) :
    (scope.extend first).extend second = scope.extend (first ++ second) := by
  simp [Scope.extend]

@[simp] theorem Scope.extend_kind (scope : Scope) (added : Bindings Symbol) :
    (scope.extend added).kind = scope.kind := rfl

theorem Scope.mem_names_extend_iff {scope : Scope} {added : Bindings Symbol} {name : String} :
    name ∈ (scope.extend added).symbols.names ↔ name ∈ scope.symbols.names ∨ name ∈ added.names := by
  simp only [Scope.extend, Bindings.names, List.map_append, List.mem_append]

namespace Store

/-- Binds names in the innermost scope, after the names that it binds already. -/
def extend (s : Store) (added : Bindings Symbol) : Store :=
  match s.locals with
  | [] => { s with global := s.global.extend added }
  | scope :: outer => { s with locals := scope.extend added :: outer }

@[simp] theorem extend_nil (s : Store) : s.extend [] = s := by
  obtain ⟨global, locals, nextId, history⟩ := s
  cases locals <;> simp [extend]

@[simp] theorem extend_extend (s : Store) (first second : Bindings Symbol) :
    (s.extend first).extend second = s.extend (first ++ second) := by
  obtain ⟨global, locals, nextId, history⟩ := s
  cases locals <;> simp [extend]

theorem extend_global_of_locals_eq_nil {s : Store} (top : s.locals = []) (added : Bindings Symbol) :
    (s.extend added).global = s.global.extend added := by
  obtain ⟨global, locals, nextId, history⟩ := s
  cases top
  rfl

theorem extend_global_of_locals_ne_nil {s : Store} (nested : s.locals ≠ []) (added : Bindings Symbol) :
    (s.extend added).global = s.global := by
  obtain ⟨global, locals, nextId, history⟩ := s
  cases locals with
  | nil => exact absurd rfl nested
  | cons scope outer => rfl

theorem extend_locals_eq_nil_iff {s : Store} {added : Bindings Symbol} :
    (s.extend added).locals = [] ↔ s.locals = [] := by
  obtain ⟨global, locals, nextId, history⟩ := s
  cases locals <;> simp [extend]

theorem current_extend (s : Store) (added : Bindings Symbol) :
    (s.extend added).current = s.current.extend added := by
  obtain ⟨global, locals, nextId, history⟩ := s
  cases locals <;> rfl

@[simp] theorem depth_extend (s : Store) (added : Bindings Symbol) :
    (s.extend added).depth = s.depth := by
  obtain ⟨global, locals, nextId, history⟩ := s
  cases locals <;> rfl

@[simp] theorem isGlobal_extend (s : Store) (added : Bindings Symbol) :
    (s.extend added).isGlobal = s.isGlobal := by
  obtain ⟨global, locals, nextId, history⟩ := s
  cases locals <;> rfl

theorem define_of_fresh {s : Store} {name : String} (symbol : Symbol)
    (fresh : s.current.symbols.contains name = false) :
    s.define name symbol = .ok (s.extend [(name, symbol)]) := by
  obtain ⟨global, locals, nextId, history⟩ := s
  cases locals with
  | nil =>
    have free : global.symbols.contains name = false := fresh
    simp [define, defineGlobal, defineIn, free, Except.map, extend, Scope.extend, Bindings.append]
  | cons scope outer =>
    have free : scope.symbols.contains name = false := fresh
    simp [define, defineIn, free, Except.map, extend, Scope.extend, Bindings.append]

theorem define_of_taken {s : Store} {name : String} (symbol : Symbol)
    (taken : s.current.symbols.contains name = true) :
    s.define name symbol = .error (.duplicateDefinition name s.current.name) := by
  obtain ⟨global, locals, nextId, history⟩ := s
  cases locals with
  | nil =>
    have bound : global.symbols.contains name = true := taken
    simp [define, defineGlobal, defineIn, bound, Except.map, current]
  | cons scope outer =>
    have bound : scope.symbols.contains name = true := taken
    simp [define, defineIn, bound, Except.map, current]

theorem define_eq_ok_iff {s t : Store} {name : String} {symbol : Symbol} :
    s.define name symbol = .ok t ↔
      s.current.symbols.contains name = false ∧ t = s.extend [(name, symbol)] := by
  cases taken : s.current.symbols.contains name with
  | true => simp [define_of_taken symbol taken]
  | false => simp [define_of_fresh symbol taken, eq_comm]

/-- The active scopes are the same; the histories and the next scope ids may differ. -/
structure SameScopes (s t : Store) : Prop where
  global : t.global = s.global
  locals : t.locals = s.locals

namespace SameScopes

variable {s t u : Store}

@[refl] theorem refl (s : Store) : s.SameScopes s := ⟨rfl, rfl⟩

theorem trans (first : s.SameScopes t) (second : t.SameScopes u) : s.SameScopes u :=
  ⟨second.global.trans first.global, second.locals.trans first.locals⟩

theorem depth (same : s.SameScopes t) : t.depth = s.depth := by
  unfold Store.depth
  rw [same.locals]

theorem current (same : s.SameScopes t) : t.current = s.current := by
  unfold Store.current
  rw [same.locals, same.global]

theorem isGlobal (same : s.SameScopes t) : t.isGlobal = s.isGlobal := by
  unfold Store.isGlobal
  rw [same.locals]

theorem resolve? (same : s.SameScopes t) (name : String) : t.resolve? name = s.resolve? name := by
  unfold Store.resolve?
  rw [same.locals, same.global]

theorem lookup? (same : s.SameScopes t) (name : String) : t.lookup? name = s.lookup? name := by
  unfold Store.lookup?
  rw [same.resolve?]

theorem extend (same : s.SameScopes t) (added : Bindings Symbol) :
    (s.extend added).SameScopes (t.extend added) := by
  obtain ⟨global, locals, nextId, history⟩ := s
  obtain ⟨global', locals', nextId', history'⟩ := t
  obtain ⟨rfl, rfl⟩ := same
  cases locals' <;> exact ⟨rfl, rfl⟩

end SameScopes

theorem popMany_global (count : Nat) (s : Store) : (popMany count s).global = s.global := by
  induction count generalizing s with
  | zero => rfl
  | succ count ih =>
    unfold popMany pop?
    cases locals : s.locals with
    | nil => rfl
    | cons scope outer => exact ih _

theorem popMany_locals (count : Nat) (s : Store) :
    (popMany count s).locals = s.locals.drop count := by
  induction count generalizing s with
  | zero => rfl
  | succ count ih =>
    unfold popMany pop?
    cases locals : s.locals with
    | nil => simp [locals]
    | cons scope outer => exact ih _

@[simp] theorem truncate_global (s : Store) (depth : Nat) : (s.truncate depth).global = s.global :=
  popMany_global ..

theorem truncate_locals (s : Store) (depth : Nat) :
    (s.truncate depth).locals = s.locals.drop (s.depth - max depth 1) :=
  popMany_locals ..

/-- A scope that was opened is closed again by truncating to the depth before it. -/
theorem truncate_locals_of_opened {t : Store} {opened : Scope} {outer : List Scope} {depth : Nat}
    (locals : t.locals = opened :: outer) (before : depth = outer.length + 1) :
    (t.truncate depth).locals = outer := by
  rw [truncate_locals, locals]
  have one : t.depth - max depth 1 = 1 := by
    simp only [Store.depth, locals, before, List.length_cons]
    omega
  rw [one, List.drop_one, List.tail_cons]

@[simp] theorem push_global (s : Store) (name : String) (kind : ScopeKind) :
    (s.push name kind).global = s.global := rfl

@[simp] theorem push_locals (s : Store) (name : String) (kind : ScopeKind) :
    (s.push name kind).locals = ⟨s.nextId, name, kind, []⟩ :: s.locals := rfl

/-! ## Looking names up -/

theorem contains_of_findLocal?_eq_some {name : String} {scopes : List Scope} {scope : Scope}
    (found : findLocal? name scopes = some scope) : scope.symbols.contains name = true := by
  induction scopes with
  | nil => cases found
  | cons first outer ih =>
    unfold findLocal? at found
    split at found
    · next bound =>
      cases found
      exact bound
    · split at found
      · cases found
      · exact ih found

theorem findLocal?_eq_none_of_extend {name : String} {scope : Scope} {outer : List Scope}
    {added : Bindings Symbol} (outside : findLocal? name (scope.extend added :: outer) = none) :
    findLocal? name (scope :: outer) = none ∧ name ∉ added.names := by
  unfold findLocal? at outside
  split at outside
  · cases outside
  · next free =>
    rw [Bindings.contains_eq_true_iff, Scope.mem_names_extend_iff, not_or] at free
    have before : ¬ scope.symbols.contains name = true := by
      rw [Bindings.contains_eq_true_iff]
      exact free.1
    refine ⟨?_, free.2⟩
    rw [findLocal?, if_neg before]
    exact outside

/-- A name is looked up in the local scopes first and then in the global one. -/
theorem lookup?_eq_or (s : Store) (name : String) :
    s.lookup? name = ((findLocal? name s.locals).bind fun scope => scope.symbols.find? name).or
      (s.global.symbols.find? name) := by
  unfold lookup? resolve?
  cases found : findLocal? name s.locals with
  | some scope =>
    have bound := contains_of_findLocal?_eq_some found
    obtain ⟨symbol, held⟩ := Option.isSome_iff_exists.mp bound
    simp [held]
  | none =>
    cases held : s.global.symbols.find? name with
    | some symbol => simp [Bindings.contains, held]
    | none => simp [Bindings.contains, held]

theorem isSome_lookup?_of_resolve? {s : Store} {name : String} {scope : Scope}
    (resolved : s.resolve? name = some scope) : (s.lookup? name).isSome = true := by
  have bound : scope.symbols.contains name = true := by
    unfold resolve? at resolved
    split at resolved
    · next inner found =>
      cases resolved
      exact contains_of_findLocal?_eq_some found
    · split at resolved
      · next bound =>
        cases resolved
        exact bound
      · cases resolved
  simpa [lookup?, resolved, Bindings.contains] using bound

/-- Where no local scope binds a name, it is looked up in the global scope. -/
theorem contains_global_of_lookup? {s : Store} {name : String}
    (found : (s.lookup? name).isSome = true) (outside : findLocal? name s.locals = none) :
    s.global.symbols.contains name = true := by
  rw [lookup?_eq_or, outside] at found
  simpa [Bindings.contains] using found

theorem lookup?_push (s : Store) (opened : String) (kind : ScopeKind) (name : String)
    (ordinary : kind ≠ .function) : (s.push opened kind).lookup? name = s.lookup? name := by
  simp [lookup?_eq_or, findLocal?, push, Bindings.contains, Bindings.find?, ordinary]

/-- Names that are added in the innermost scope leave all others as they were. -/
theorem lookup?_extend_of_not_mem {name : String} {added : Bindings Symbol}
    (other : name ∉ added.names) (s : Store) :
    (s.extend added).lookup? name = s.lookup? name := by
  have same (scope : Scope) :
      (scope.extend added).symbols.find? name = scope.symbols.find? name := by
    rw [Scope.extend, Bindings.find?_append, Bindings.find?_eq_none_iff.mpr other, Option.or_none]
  obtain ⟨global, locals, nextId, history⟩ := s
  rw [lookup?_eq_or, lookup?_eq_or]
  cases locals with
  | nil => simp [extend, findLocal?, same]
  | cons scope outer =>
    cases held : scope.symbols.find? name with
    | some symbol => simp [extend, findLocal?, Bindings.contains, same, held]
    | none =>
      simp only [extend, findLocal?, Bindings.contains, same, held, Scope.extend_kind]
      rfl

end Store

end CheckedScript
