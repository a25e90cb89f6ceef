import CheckedScript.Proofs.Store.Outline

/-!
# What holds of every symbol in a store

A property of the symbols that the active scopes bind, and how the operations on a store keep it.
-/

namespace CheckedScript

theorem Bindings.mem_modify {α : Type} {name : String} {f : α → α} {bs : Bindings α}
    {binding : String × α} (inside : binding ∈ bs.modify name f) :
    binding ∈ bs ∨ ∃ old, bs.find? name = some old ∧ binding.2 = f old := by
  induction bs with
  | nil => cases inside
  | cons b rest ih =>
    unfold Bindings.modify at inside
    split at inside
    · next here =>
      rcases List.mem_cons.mp inside with rfl | further
      · exact .inr ⟨b.2, by simp [Bindings.find?, here], rfl⟩
      · exact .inl (List.mem_cons_of_mem _ further)
    · next passed =>
      rcases List.mem_cons.mp inside with rfl | further
      · exact .inl List.mem_cons_self
      · rcases ih further with before | ⟨old, found, changed⟩
        · exact .inl (List.mem_cons_of_mem _ before)
        · exact .inr ⟨old, by simp [Bindings.find?, passed, found], changed⟩

namespace Store

/-- The property holds of every symbol in the active scopes. -/
def Every (P : Symbol → Prop) (s : Store) : Prop :=
  ∀ scope ∈ s.global :: s.locals, ∀ binding ∈ scope.symbols, P binding.2

namespace Every

variable {P : Symbol → Prop} {s : Store}

theorem of_lookup? (every : s.Every P) {name : String} {symbol : Symbol}
    (found : s.lookup? name = some symbol) : P symbol := by
  obtain ⟨scope, resolved, bound⟩ := Option.bind_eq_some_iff.mp found
  exact every scope (mem_of_resolve?_eq_some resolved) _ (Bindings.mem_of_find?_eq_some bound)

theorem of_sameScopes {t : Store} (every : s.Every P) (same : s.SameScopes t) : t.Every P := by
  intro scope active
  rw [same.global, same.locals] at active
  exact every scope active

theorem extend (every : s.Every P) {added : Bindings Symbol} (new : ∀ binding ∈ added, P binding.2) :
    (s.extend added).Every P := by
  have grown : ∀ scope : Scope, (∀ binding ∈ scope.symbols, P binding.2) →
      ∀ binding ∈ (scope.extend added).symbols, P binding.2 := by
    intro scope old binding bound
    rcases List.mem_append.mp bound with before | late
    · exact old binding before
    · exact new binding late
  obtain ⟨global, locals, nextId, history⟩ := s
  cases locals with
  | nil =>
    intro scope active
    rw [List.mem_singleton.mp active]
    exact grown global (every _ List.mem_cons_self)
  | cons innermost outer =>
    intro scope active
    rcases List.mem_cons.mp active with rfl | inner
    · exact every _ List.mem_cons_self
    · rcases List.mem_cons.mp inner with rfl | further
      · exact grown innermost (every innermost (List.mem_cons_of_mem _ List.mem_cons_self))
      · exact every scope (List.mem_cons_of_mem _ (List.mem_cons_of_mem _ further))

theorem push (every : s.Every P) (name : String) (kind : ScopeKind) : (s.push name kind).Every P := by
  intro scope active
  rw [push_global, push_locals] at active
  rcases List.mem_cons.mp active with rfl | inner
  · exact every _ List.mem_cons_self
  · rcases List.mem_cons.mp inner with rfl | further
    · exact nofun
    · exact every scope (List.mem_cons_of_mem _ further)

theorem truncate (every : s.Every P) (depth : Nat) : (s.truncate depth).Every P := by
  intro scope active
  rw [truncate_global, truncate_locals] at active
  rcases List.mem_cons.mp active with rfl | inner
  · exact every _ List.mem_cons_self
  · exact every scope (List.mem_cons_of_mem _ (List.mem_of_mem_drop inner))

theorem modifyLocal {name : String} {f : Symbol → Symbol} {scopes changed : List Scope}
    (every : ∀ scope ∈ scopes, ∀ binding ∈ scope.symbols, P binding.2)
    (new : ∀ symbol, P (f symbol)) (modified : modifyLocal name f scopes = some changed) :
    ∀ scope ∈ changed, ∀ binding ∈ scope.symbols, P binding.2 := by
  induction scopes generalizing changed with
  | nil => cases modified
  | cons first outer ih =>
    unfold Store.modifyLocal at modified
    split at modified
    · cases modified
      intro scope active binding bound
      rcases List.mem_cons.mp active with rfl | further
      · rcases Bindings.mem_modify bound with before | ⟨old, -, changed⟩
        · exact every first List.mem_cons_self binding before
        · exact changed ▸ new old
      · exact every scope (List.mem_cons_of_mem _ further) binding bound
    · split at modified
      · cases modified
      · obtain ⟨below, modified', rfl⟩ := Option.map_eq_some_iff.mp modified
        intro scope active
        rcases List.mem_cons.mp active with rfl | further
        · exact every scope List.mem_cons_self
        · exact ih (fun scope inner => every scope (List.mem_cons_of_mem _ inner)) modified' scope
            further

theorem modify (every : s.Every P) (name : String) {f : Symbol → Symbol}
    (new : ∀ symbol, P (f symbol)) : (s.modify name f).Every P := by
  unfold Store.modify
  split
  · next changed modified =>
    intro scope active
    rcases List.mem_cons.mp active with rfl | inner
    · exact every _ List.mem_cons_self
    · exact modifyLocal (fun scope outer => every scope (List.mem_cons_of_mem _ outer)) new modified
        scope inner
  · intro scope active
    rcases List.mem_cons.mp active with rfl | inner
    · intro binding bound
      rcases Bindings.mem_modify bound with before | ⟨old, -, changed⟩
      · exact every _ List.mem_cons_self binding before
      · exact changed ▸ new old
    · exact every scope (List.mem_cons_of_mem _ inner)

/-- A property of what symbols declare is kept with the outline. -/
theorem of_sameOutline {t : Store} (every : s.Every P) (same : s.SameOutline t)
    (declared : ∀ symbol symbol', symbol'.declaration = symbol.declaration → P symbol → P symbol') :
    t.Every P := by
  have kept : ∀ scope scope' : Scope, scope'.outline = scope.outline →
      (∀ binding ∈ scope.symbols, P binding.2) → ∀ binding ∈ scope'.symbols, P binding.2 := by
    intro scope scope' outline every binding bound
    have listed : (binding.1, binding.2.declaration) ∈ scope'.outline.2 :=
      List.mem_map.mpr ⟨binding, bound, rfl⟩
    rw [outline] at listed
    obtain ⟨binding', bound', declares⟩ := List.mem_map.mp listed
    exact declared _ _ (Prod.mk.inj declares).2.symm (every binding' bound')
  intro scope active
  rcases List.mem_cons.mp active with rfl | inner
  · exact kept _ _ same.global (every _ List.mem_cons_self)
  · have outline : scope.outline ∈ s.locals.map Scope.outline :=
      same.locals ▸ List.mem_map_of_mem inner
    obtain ⟨scope', inner', outline'⟩ := List.mem_map.mp outline
    exact kept scope' scope outline'.symm (every scope' (List.mem_cons_of_mem _ inner'))

end Every

end Store

end CheckedScript
