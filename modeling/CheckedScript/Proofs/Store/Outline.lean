import CheckedScript.Proofs.Store.Scopes

/-!
# What a store declares

The outline of a store leaves out the values: which scopes are active, and what kind of thing and
which type each of their names stands for. Names are resolved by the outline alone, and updating a
variable or a field leaves it as it is.
-/

namespace CheckedScript

/-- What a symbol declares, whatever value it holds. -/
def Symbol.declaration : Symbol → Symbol
  | .variable type _ => .variable type .null
  | .recordInstance r =>
    .recordInstance { r with fields := r.fields.mapValues fun slot => ⟨slot.type, .null⟩ }
  | symbol => symbol

namespace Symbol

/-- The symbol of a variable or of a record, which holds values. -/
def IsData : Symbol → Prop
  | «variable» _ _ | recordInstance _ => True
  | function _ | recordType _ => False

variable {symbol : Symbol}

theorem declaration_eq_variable_iff {type : Ty} {value : Value} :
    symbol.declaration = .variable type value ↔
      value = .null ∧ ∃ held, symbol = .variable type held := by
  cases symbol <;> simp [declaration, and_comm, eq_comm]

theorem declaration_eq_function_iff {f : FunctionSymbol} :
    symbol.declaration = .function f ↔ symbol = .function f := by
  cases symbol <;> simp [declaration]

theorem declaration_eq_recordType_iff {r : RecordType} :
    symbol.declaration = .recordType r ↔ symbol = .recordType r := by
  cases symbol <;> simp [declaration]

theorem declaration_eq_recordInstance {r : RecordInstance}
    (same : symbol.declaration = (recordInstance r).declaration) :
    ∃ held, symbol = .recordInstance held ∧
      held.fields.mapValues (fun slot => (⟨slot.type, .null⟩ : FieldSlot)) =
        r.fields.mapValues fun slot => ⟨slot.type, .null⟩ := by
  cases symbol with
  | recordInstance held =>
    simp only [declaration, recordInstance.injEq, RecordInstance.mk.injEq] at same
    exact ⟨held, rfl, same.2⟩
  | _ => cases same

/-- A function or a record type is all that it declares. -/
theorem eq_of_declaration_eq {other : Symbol} (defines : ¬ symbol.IsData)
    (same : other.declaration = symbol.declaration) : other = symbol := by
  cases symbol with
  | function f => exact declaration_eq_function_iff.mp same
  | recordType r => exact declaration_eq_recordType_iff.mp same
  | «variable» | recordInstance => exact absurd trivial defines

theorem isData_of_declaration_eq {other : Symbol} (same : symbol.declaration = other.declaration)
    (data : other.IsData) : symbol.IsData := by
  cases symbol <;> cases other <;> trivial

end Symbol

namespace Scope

/-- The kind of a scope and what its names declare, in their order. -/
def outline (scope : Scope) : ScopeKind × Bindings Symbol :=
  (scope.kind, scope.symbols.mapValues Symbol.declaration)

variable {scope other : Scope}

theorem kind_of_outline_eq (same : scope.outline = other.outline) : scope.kind = other.kind :=
  congrArg Prod.fst same

theorem names_of_outline_eq (same : scope.outline = other.outline) :
    scope.symbols.names = other.symbols.names := by
  have declared := congrArg (fun o => Bindings.names o.2) same
  simpa [outline] using declared

theorem contains_of_outline_eq (same : scope.outline = other.outline) (name : String) :
    scope.symbols.contains name = other.symbols.contains name := by
  rw [Bool.eq_iff_iff, Bindings.contains_eq_true_iff, Bindings.contains_eq_true_iff,
    names_of_outline_eq same]

theorem find?_of_outline_eq (same : scope.outline = other.outline) (name : String) :
    (scope.symbols.find? name).map Symbol.declaration =
      (other.symbols.find? name).map Symbol.declaration := by
  have declared := congrArg (fun o => Bindings.find? name o.2) same
  simpa [outline, Bindings.find?_mapValues] using declared

theorem outline_extend (scope : Scope) (added : Bindings Symbol) :
    (scope.extend added).outline =
      (scope.kind, scope.symbols.mapValues Symbol.declaration ++
        added.mapValues Symbol.declaration) := by
  simp [outline, extend, Bindings.mapValues]

theorem outline_extend_of_eq (same : scope.outline = other.outline) {added more : Bindings Symbol}
    (declared : added.mapValues Symbol.declaration = more.mapValues Symbol.declaration) :
    (scope.extend added).outline = (other.extend more).outline := by
  rw [outline_extend, outline_extend, declared]
  have kinds := kind_of_outline_eq same
  have bound := congrArg Prod.snd same
  simp only [outline] at bound
  rw [kinds, bound]

/-- What a name declares in a scope, if it is bound there. -/
def declaration? (scope : Scope) (name : String) : Option Symbol :=
  (scope.symbols.find? name).map Symbol.declaration

theorem declaration?_of_outline_eq (same : scope.outline = other.outline) (name : String) :
    scope.declaration? name = other.declaration? name :=
  find?_of_outline_eq same name

theorem declaration?_extend (scope : Scope) (added : Bindings Symbol) (name : String) :
    (scope.extend added).declaration? name =
      (scope.declaration? name).or ((added.find? name).map Symbol.declaration) := by
  rw [declaration?, extend, Bindings.find?_append, Option.map_or]
  rfl

theorem contains_eq_isSome_declaration? (scope : Scope) (name : String) :
    scope.symbols.contains name = (scope.declaration? name).isSome := by
  rw [declaration?, Option.isSome_map]
  rfl

/-- Changing what a name holds, and nothing that it declares. -/
theorem outline_modify (scope : Scope) (name : String) {f : Symbol → Symbol}
    (declared : ∀ symbol, scope.symbols.find? name = some symbol →
      (f symbol).declaration = symbol.declaration) :
    ({ scope with symbols := scope.symbols.modify name f } : Scope).outline = scope.outline := by
  have kept : ∀ bs : Bindings Symbol,
      (∀ symbol, bs.find? name = some symbol → (f symbol).declaration = symbol.declaration) →
      (bs.modify name f).mapValues Symbol.declaration = bs.mapValues Symbol.declaration := by
    intro bs declared
    induction bs with
    | nil => rfl
    | cons b rest ih =>
      unfold Bindings.modify
      by_cases here : b.1 = name
      · have holder := declared b.2 (by simp [Bindings.find?, here])
        simp [Bindings.mapValues, here, holder]
      · have later := ih fun symbol found => declared symbol (by simpa [Bindings.find?, here])
        simpa [Bindings.mapValues, here] using later
  simp only [outline, kept scope.symbols declared]

end Scope

namespace Store

/-- The same scopes are active and declare the same names; the values may differ. -/
structure SameOutline (s t : Store) : Prop where
  global : t.global.outline = s.global.outline
  locals : t.locals.map Scope.outline = s.locals.map Scope.outline

namespace SameOutline

variable {s t u : Store}

@[refl] theorem refl (s : Store) : s.SameOutline s := ⟨rfl, rfl⟩

theorem trans (first : s.SameOutline t) (second : t.SameOutline u) : s.SameOutline u :=
  ⟨second.global.trans first.global, second.locals.trans first.locals⟩

theorem depth (same : s.SameOutline t) : t.depth = s.depth := by
  have lengths := congrArg List.length same.locals
  simpa [Store.depth] using lengths

theorem locals_eq_nil_iff (same : s.SameOutline t) : t.locals = [] ↔ s.locals = [] := by
  have lengths := congrArg List.length same.locals
  rw [List.length_map, List.length_map] at lengths
  rw [← List.length_eq_zero_iff, ← List.length_eq_zero_iff, lengths]

theorem extend (same : s.SameOutline t) (added : Bindings Symbol) :
    (s.extend added).SameOutline (t.extend added) := by
  obtain ⟨global, locals, nextId, history⟩ := s
  obtain ⟨global', locals', nextId', history'⟩ := t
  obtain ⟨same, below⟩ := same
  cases locals <;> cases locals'
  · exact ⟨Scope.outline_extend_of_eq same rfl, below⟩
  · simp at below
  · simp at below
  · rw [List.map_cons, List.map_cons] at below
    obtain ⟨innermost, outer⟩ := List.cons.inj below
    refine ⟨same, ?_⟩
    simp only [Store.extend, List.map_cons]
    rw [Scope.outline_extend_of_eq innermost rfl, outer]

/-- Closing a scope that was opened and has been filled. -/
theorem close {name : String} {kind : ScopeKind} {added : Bindings Symbol}
    (same : ((s.push name kind).extend added).SameOutline t) :
    s.SameOutline (t.truncate s.depth) := by
  have locals := same.locals
  rw [Store.extend, push_locals] at locals
  cases inner : t.locals with
  | nil => simp [inner] at locals
  | cons scope outer =>
    simp only [inner, List.map_cons] at locals
    have outer' := (List.cons.inj locals).2
    refine ⟨?_, ?_⟩
    · rw [truncate_global]
      exact same.global
    · have depth : s.depth = outer.length + 1 := by
        have lengths := congrArg List.length outer'
        rw [List.length_map, List.length_map] at lengths
        rw [Store.depth, lengths]
      rw [truncate_locals_of_opened inner depth]
      exact outer'

end SameOutline

/-! ## Names and outlines -/

theorem findLocal?_outline {scopes others : List Scope}
    (same : scopes.map Scope.outline = others.map Scope.outline) (name : String) :
    (findLocal? name scopes).map Scope.outline = (findLocal? name others).map Scope.outline := by
  induction scopes generalizing others with
  | nil =>
    cases others with
    | nil => rfl
    | cons other rest => simp at same
  | cons scope outer ih =>
    cases others with
    | nil => simp at same
    | cons other rest =>
      rw [List.map_cons, List.map_cons] at same
      obtain ⟨innermost, below⟩ := List.cons.inj same
      unfold findLocal?
      rw [Scope.contains_of_outline_eq innermost, Scope.kind_of_outline_eq innermost]
      split
      · simp [innermost]
      · split
        · rfl
        · exact ih below

theorem SameOutline.resolve? {s t : Store} (same : s.SameOutline t) (name : String) :
    (t.resolve? name).map Scope.outline = (s.resolve? name).map Scope.outline := by
  have locals := findLocal?_outline same.locals name
  unfold Store.resolve?
  cases inner : findLocal? name s.locals with
  | some scope =>
    cases inner' : findLocal? name t.locals with
    | some scope' => simpa [inner, inner'] using locals
    | none => simp [inner, inner'] at locals
  | none =>
    cases inner' : findLocal? name t.locals with
    | some scope' => simp [inner, inner'] at locals
    | none =>
      dsimp only
      rw [Scope.contains_of_outline_eq same.global]
      split
      · simp [same.global]
      · rfl

theorem mem_of_findLocal?_eq_some {name : String} {scopes : List Scope} {scope : Scope}
    (found : findLocal? name scopes = some scope) : scope ∈ scopes := by
  induction scopes with
  | nil => simp [findLocal?] at found
  | cons first outer ih =>
    unfold findLocal? at found
    split at found
    · cases found
      exact List.mem_cons_self
    · split at found
      · cases found
      · exact List.mem_cons_of_mem _ (ih found)

theorem mem_of_resolve?_eq_some {s : Store} {name : String} {scope : Scope}
    (resolved : s.resolve? name = some scope) : scope ∈ s.global :: s.locals := by
  unfold Store.resolve? at resolved
  split at resolved
  · next scope' found =>
    cases resolved
    exact List.mem_cons_of_mem _ (mem_of_findLocal?_eq_some found)
  · split at resolved
    · cases resolved
      exact List.mem_cons_self
    · cases resolved

/-! ## Updates -/

theorem modifyLocal_eq_none_iff {name : String} {f : Symbol → Symbol} {scopes : List Scope} :
    modifyLocal name f scopes = none ↔ findLocal? name scopes = none := by
  induction scopes with
  | nil => simp [modifyLocal, findLocal?]
  | cons scope outer ih =>
    unfold modifyLocal findLocal?
    split
    · simp
    · split
      · simp
      · simpa using ih

theorem outline_modifyLocal {name : String} {f : Symbol → Symbol} {scopes changed : List Scope}
    (declared : ∀ scope symbol, findLocal? name scopes = some scope →
      scope.symbols.find? name = some symbol → (f symbol).declaration = symbol.declaration)
    (modified : modifyLocal name f scopes = some changed) :
    changed.map Scope.outline = scopes.map Scope.outline := by
  induction scopes generalizing changed with
  | nil => simp [modifyLocal] at modified
  | cons scope outer ih =>
    unfold modifyLocal at modified
    split at modified
    · next bound =>
      cases modified
      have here : findLocal? name (scope :: outer) = some scope := by simp [findLocal?, bound]
      rw [List.map_cons, List.map_cons,
        Scope.outline_modify scope name fun symbol found => declared scope symbol here found]
    · next free =>
      split at modified
      · cases modified
      · next inside =>
        obtain ⟨below, modified', rfl⟩ := Option.map_eq_some_iff.mp modified
        have passed : findLocal? name (scope :: outer) = findLocal? name outer := by
          simp [findLocal?, free, inside]
        have outer' := ih (fun scope symbol found => declared scope symbol (passed ▸ found)) modified'
        rw [List.map_cons, List.map_cons, outer']

/-- Changing what a name holds where it is looked up, and nothing that it declares. -/
theorem sameOutline_modify {s : Store} {name : String} {f : Symbol → Symbol}
    (declared : ∀ symbol, s.lookup? name = some symbol →
      (f symbol).declaration = symbol.declaration) : s.SameOutline (s.modify name f) := by
  have lookup : ∀ scope symbol, s.resolve? name = some scope →
      scope.symbols.find? name = some symbol → s.lookup? name = some symbol := by
    intro scope symbol resolved found
    simp [Store.lookup?, resolved, found]
  unfold Store.modify
  cases modified : modifyLocal name f s.locals with
  | some changed =>
    refine ⟨rfl, outline_modifyLocal (fun scope symbol inner found => ?_) modified⟩
    exact declared symbol (lookup scope symbol (by simp [Store.resolve?, inner]) found)
  | none =>
    have outside := modifyLocal_eq_none_iff.mp modified
    refine ⟨Scope.outline_modify s.global name fun symbol found => ?_, rfl⟩
    have bound : s.global.symbols.contains name = true := by simp [Bindings.contains, found]
    exact declared symbol (lookup s.global symbol (by simp [Store.resolve?, outside, bound]) found)

/-- What an update changes: the value of a variable, or one field of a record. -/
theorem update_eq_ok {s t : Store} {name : String} {change : SymbolUpdate}
    (updated : s.update name change = .ok t) :
    ∃ symbol changed, s.lookup? name = some symbol ∧ t = s.modify name (fun _ => changed) ∧
      ((∃ type old value, symbol = .variable type old ∧ change = .value value ∧
        changed = .variable type value) ∨
      (∃ r field value, symbol = .recordInstance r ∧ change = .field field value ∧
        r.fields.contains field = true ∧
        changed = .recordInstance
          { r with fields := r.fields.modify field fun slot => { slot with value := value } })) := by
  unfold Store.update at updated
  split at updated
  · cases updated
  · next type old value found =>
    cases updated
    exact ⟨_, _, found, rfl, .inl ⟨type, old, value, rfl, rfl, rfl⟩⟩
  · next r field value found =>
    split at updated
    · next present =>
      cases updated
      exact ⟨_, _, found, rfl, .inr ⟨r, field, value, rfl, rfl, present, rfl⟩⟩
    · cases updated
  · cases updated

theorem mapValues_modify_value (field : String) (value : Value) (fields : Bindings FieldSlot) :
    (fields.modify field fun slot => { slot with value := value }).mapValues
      (fun slot => (⟨slot.type, .null⟩ : FieldSlot)) =
    fields.mapValues fun slot => ⟨slot.type, .null⟩ := by
  induction fields with
  | nil => rfl
  | cons b rest ih =>
    unfold Bindings.modify
    split
    · rfl
    · simpa [Bindings.mapValues] using ih

theorem sameOutline_update {s t : Store} {name : String} {change : SymbolUpdate}
    (updated : s.update name change = .ok t) : s.SameOutline t := by
  obtain ⟨symbol, changed, found, rfl, kind⟩ := update_eq_ok updated
  refine sameOutline_modify fun other found' => ?_
  rw [found] at found'
  cases found'
  rcases kind with ⟨type, old, value, rfl, -, rfl⟩ | ⟨r, field, value, rfl, -, -, rfl⟩
  · rfl
  · simp only [Symbol.declaration, mapValues_modify_value]

end Store

end CheckedScript
