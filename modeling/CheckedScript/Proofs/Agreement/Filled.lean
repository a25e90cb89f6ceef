import CheckedScript.Proofs.Agreement.Values
import CheckedScript.Proofs.Value.Typing

/-!
# Stores without missing values

A store is filled if each of its variables holds a value of its type. Only the global variable that
stands for the caught message outside of recover blocks may be empty. Fields of records are left out
here: they are empty until they are set.
-/

namespace CheckedScript

/-- A value of the type is there. Nothing is expected of `void`, which has no values. -/
def Present (type : Ty) (v : Value) : Prop := type = .void ∨ v.HasType type

namespace Present

variable {type : Ty} {v : Value}

theorem hasType (present : Present type v) (nonvoid : type ≠ .void) : v.HasType type :=
  present.resolve_left nonvoid

theorem defaultValue (type : Ty) : Present type type.defaultValue := by
  cases type with
  | void => exact .inl rfl
  | _ => exact .inr ((Conforms.defaultValue _).resolve_left nofun)

end Present

/-- If the symbol is a variable, it holds a value of its type. -/
def Symbol.IsFilled : Symbol → Prop
  | .variable type value => Present type value
  | _ => True

theorem Symbol.isFilled_str (text : String) : (Symbol.variable .str (.str text)).IsFilled :=
  .inr (.str text)

/-- The variable that stands for the caught message outside of recover blocks. -/
def IsBuiltin (name : String) (symbol : Symbol) : Prop :=
  name = errorAccessor ∧ ∃ value, symbol = .variable .str value

/-- Every variable in the active scopes holds a value of its type, the builtin apart. -/
structure Store.Filled (s : Store) : Prop where
  locals : ∀ scope ∈ s.locals, ∀ binding ∈ scope.symbols, binding.2.IsFilled
  global : ∀ binding ∈ s.global.symbols, binding.2.IsFilled ∨ IsBuiltin binding.1 binding.2

namespace Store.Filled

variable {s t : Store} {name : String} {symbol : Symbol}

theorem of_findLocal? (filled : s.Filled) {scope : Scope}
    (active : findLocal? name s.locals = some scope) (found : s.lookup? name = some symbol) :
    symbol.IsFilled := by
  rw [lookup?, resolve?, active] at found
  exact filled.locals scope (mem_of_findLocal?_eq_some active) _
    (Bindings.mem_of_find?_eq_some found)

theorem of_lookup? (filled : s.Filled) (found : s.lookup? name = some symbol)
    (other : ¬ IsBuiltin name symbol) : symbol.IsFilled := by
  cases active : findLocal? name s.locals with
  | some scope => exact filled.of_findLocal? active found
  | none =>
    rw [lookup?_eq_or, active] at found
    exact (filled.global _ (Bindings.mem_of_find?_eq_some found)).resolve_right other

/-- The builtin is no array. -/
theorem present_array (filled : s.Filled) {type : Ty} {value : Value}
    (found : s.lookup? name = some (.variable (.array type) value)) :
    Present (.array type) value := by
  refine filled.of_lookup? found ?_
  rintro ⟨-, _, same⟩
  cases same

theorem of_sameScopes (filled : s.Filled) (same : s.SameScopes t) : t.Filled :=
  ⟨same.locals ▸ filled.locals, same.global ▸ filled.global⟩

theorem push (filled : s.Filled) (name : String) (kind : ScopeKind) : (s.push name kind).Filled := by
  refine ⟨?_, filled.global⟩
  rw [push_locals]
  exact List.forall_mem_cons.mpr ⟨nofun, filled.locals⟩

theorem truncate (filled : s.Filled) (depth : Nat) : (s.truncate depth).Filled := by
  refine ⟨fun scope active => ?_, by rw [truncate_global]; exact filled.global⟩
  rw [truncate_locals] at active
  exact filled.locals scope (List.mem_of_mem_drop active)

theorem extend (filled : s.Filled) {added : Bindings Symbol}
    (new : ∀ binding ∈ added, binding.2.IsFilled) : (s.extend added).Filled := by
  obtain ⟨global, locals, nextId, history⟩ := s
  cases locals with
  | nil =>
    refine ⟨nofun, fun binding bound => ?_⟩
    rcases List.mem_append.mp bound with before | late
    · exact filled.global binding before
    · exact .inl (new binding late)
  | cons innermost outer =>
    obtain ⟨first, rest⟩ := List.forall_mem_cons.mp filled.locals
    refine ⟨List.forall_mem_cons.mpr ⟨fun binding bound => ?_, rest⟩, filled.global⟩
    rcases List.mem_append.mp bound with before | late
    · exact first binding before
    · exact new binding late

theorem modify (filled : s.Filled) (name : String) {f : Symbol → Symbol}
    (new : ∀ symbol, (f symbol).IsFilled) : (s.modify name f).Filled := by
  unfold Store.modify
  split
  · next changed modified =>
    exact ⟨Every.modifyLocal filled.locals new modified, filled.global⟩
  · refine ⟨filled.locals, fun binding bound => ?_⟩
    rcases Bindings.mem_modify bound with before | ⟨old, -, changed⟩
    · exact filled.global binding before
    · exact .inl (changed ▸ new old)

/-- A value that is put into a variable has to be one of its type. -/
theorem update (filled : s.Filled) {change : SymbolUpdate} (updated : s.update name change = .ok t)
    (value : ∀ v, change = .value v → ∀ type old,
      s.lookup? name = some (.variable type old) → Present type v) : t.Filled := by
  obtain ⟨symbol, changed, found, rfl, kind⟩ := update_eq_ok updated
  refine filled.modify name fun _ => ?_
  rcases kind with ⟨type, old, v, rfl, rfl, rfl⟩ | ⟨r, f, v, -, -, -, rfl⟩
  · exact value v rfl type old found
  · trivial

end Store.Filled

namespace Execution

open Run

variable {m : Machine} {a : Activation} {span : Span}

theorem fills_define {name : String} {symbol : Symbol} (filled : m.store.Filled)
    (new : symbol.IsFilled) :
    (define a name symbol span).Ensures Store.Filled m fun _ _ => True :=
  ensures_define filled fun _ => ⟨filled.extend (List.forall_mem_singleton.mpr new), trivial⟩

theorem fills_bindParameters {parameters : List FunctionParameter} {values : List Value}
    (filled : m.store.Filled)
    (present : List.Forall₂ (fun (p : FunctionParameter) v => Present p.type v) parameters values) :
    (bindParameters a span parameters values).Ensures Store.Filled m fun _ _ => True := by
  induction present generalizing m with
  | nil => exact .pure filled trivial
  | @cons p v _ _ here _ ih =>
    unfold bindParameters
    have defined : (define a p.name (.variable p.type v) span).Ensures Store.Filled m
      fun _ _ => True := fills_define filled here
    exact defined.bind fun _ m₁ _ filled₁ _ => ih filled₁

end Execution

end CheckedScript
