import CheckedScript.Proofs.Execution.Ensures
import CheckedScript.Proofs.Store.Every
import Mathlib.Data.List.Forall2

/-!
# The values in a store

`Store.Holds` says that each variable and each field of a record holds a value that some relation
allows for its declared type. `Run.Yields` carries this through a computation, whichever way it
ends, together with a property of what it ends with.
-/

namespace CheckedScript

variable {V : Ty → Value → Prop}

/-- What a symbol holds is allowed for the types that it declares. -/
def Symbol.Holds (V : Ty → Value → Prop) : Symbol → Prop
  | .variable type value => V type value
  | .recordInstance r => ∀ field ∈ r.fields, V field.2.type field.2.value
  | _ => True

/-- Every variable and every field in the active scopes holds an allowed value. -/
def Store.Holds (V : Ty → Value → Prop) (s : Store) : Prop := s.Every (Symbol.Holds V)

theorem holds_instantiate (r : RecordType) (null : ∀ type, V type .null) :
    (Symbol.recordInstance r.instantiate).Holds V := by
  intro field inside
  obtain ⟨declared, -, rfl⟩ := List.mem_map.mp inside
  exact null declared.2

/-- A value that is put into a variable or a field has to be allowed there. -/
theorem Store.Holds.update {s t : Store} (holds : s.Holds V) {name : String}
    {change : SymbolUpdate} (updated : s.update name change = .ok t)
    (value : ∀ v, change = .value v → ∀ type old,
      s.lookup? name = some (.variable type old) → V type v)
    (field : ∀ f v, change = .field f v → ∀ r slot,
      s.lookup? name = some (.recordInstance r) → r.fields.find? f = some slot → V slot.type v) :
    t.Holds V := by
  obtain ⟨symbol, changed, found, rfl, kind⟩ := update_eq_ok updated
  have new : changed.Holds V := by
    rcases kind with ⟨type, old, v, rfl, rfl, rfl⟩ | ⟨r, f, v, rfl, rfl, -, rfl⟩
    · exact value v rfl type old found
    · have before : ∀ binding ∈ r.fields, V binding.2.type binding.2.value :=
        Store.Every.of_lookup? holds found
      intro binding inside
      rcases Bindings.mem_modify inside with old | ⟨slot, present, changed⟩
      · exact before binding old
      · rw [changed]
        exact field f v rfl r slot found present
  exact Store.Every.modify holds name fun _ => new

namespace Run

variable {α β : Type}

/-- However the computation ends on this machine, its store holds allowed values, and if it ends
with a result, that has the property. -/
def Yields (V : Ty → Value → Prop) (x : Run α) (m : Machine) (Q : α → Machine → Prop) : Prop :=
  (x m).2.store.Holds V ∧ ∀ a, (x m).1 = .ok a → Q a (x m).2

namespace Yields

variable {x : Run α} {m : Machine} {Q : α → Machine → Prop}

theorem ensures (yields : x.Yields V m Q) : x.Ensures (Store.Holds V) m Q := yields

theorem of_ok (yields : x.Yields V m Q) {a : α} {m' : Machine} (ended : x m = (.ok a, m')) :
    m'.store.Holds V ∧ Q a m' :=
  yields.ensures.of_ok ended

theorem of_error (yields : x.Yields V m Q) {u : Unwind} {m' : Machine}
    (ended : x m = (.error u, m')) : m'.store.Holds V :=
  yields.ensures.of_error ended

theorem mono {R : α → Machine → Prop} (yields : x.Yields V m Q)
    (weaker : ∀ a m', x m = (.ok a, m') → Q a m' → R a m') : x.Yields V m R :=
  yields.ensures.mono weaker

theorem pure {a : α} (holds : m.store.Holds V) (result : Q a m) : (Run.pure a).Yields V m Q :=
  Ensures.pure holds result

theorem unwind {u : Unwind} (holds : m.store.Holds V) : (Run.unwind u : Run α).Yields V m Q :=
  Ensures.unwind holds

theorem bind {f : α → Run β} {R : β → Machine → Prop} (first : x.Yields V m Q)
    (second : ∀ a m₁, x m = (.ok a, m₁) → m₁.store.Holds V → Q a m₁ → (f a).Yields V m₁ R) :
    (x >>= f).Yields V m R :=
  first.ensures.bind second

theorem bind_of_ok {f : α → Run β} {R : β → Machine → Prop} {a : α} {m₁ : Machine}
    (ended : x m = (.ok a, m₁)) (second : (f a).Yields V m₁ R) : (x >>= f).Yields V m R :=
  Ensures.bind_of_ok ended second.ensures

theorem inScope {name : String} {kind : ScopeKind} (body : x.Yields V (m.enter name kind) Q) :
    (Run.inScope name kind x).Yields V m fun a m' =>
      ∃ left, x (m.enter name kind) = (.ok a, left) ∧ Q a left ∧
        m' = { left with store := left.store.truncate m.store.depth } :=
  body.ensures.inScope Store.Every.truncate

theorem recover {handler : RuntimeError → Run α} (body : x.Yields V m Q)
    (handled : ∀ error m₁, x m = (.error (.recoverable error), m₁) → m₁.store.Holds V →
      (handler error).Yields V m₁ Q) : (Run.recover x handler).Yields V m Q :=
  body.ensures.recover handled

end Yields

end Run

namespace Execution

open Run

variable {m : Machine} {a : Activation} {span : Span}

section

variable {Q : Value → Machine → Prop} (holds : m.store.Holds V)

include holds

theorem yields_fail {α : Type} {Q : α → Machine → Prop} (fault : Fault) :
    (a.fail fault span : Run α).Yields V m Q :=
  .unwind holds

theorem yields_exceededLimit? {completed : Nat} :
    (exceededLimit? a.limits completed).Yields V m fun _ m' =>
      ∃ deadline, m' = { m with deadline := deadline } :=
  ensures_exceededLimit? holds

theorem yields_readVariable {name : Identifier}
    (found : ∀ type value, m.store.lookup? name.name = some (.variable type value) →
      V type value → Q value m) : (readVariable a name).Yields V m Q :=
  ensures_readVariable holds fun type value bound =>
    found type value bound (Store.Every.of_lookup? holds bound)

theorem yields_readElement {name : String} {index : Word}
    (found : ∀ type elements element, m.store.lookup? name = some (.variable type (.array elements)) →
      V type (.array elements) → element ∈ elements → Q element m) :
    (readElement a name index span).Yields V m Q :=
  ensures_readElement holds fun type elements element bound =>
    found type elements element bound (Store.Every.of_lookup? holds bound)

theorem yields_readField {record field : Identifier}
    (found : ∀ r slot, m.store.lookup? record.name = some (.recordInstance r) →
      r.fields.find? field.name = some slot → V slot.type slot.value → Q slot.value m) :
    (readField a record field).Yields V m Q := by
  refine ensures_readField holds fun r slot bound present => ?_
  have fields : ∀ binding ∈ r.fields, V binding.2.type binding.2.value :=
    Store.Every.of_lookup? holds bound
  exact found r slot bound present (fields _ (Bindings.mem_of_find?_eq_some present))

theorem yields_yield {result : Except Fault Value} (known : ∀ v, result = .ok v → Q v m) :
    (yield a result span).Yields V m Q :=
  ensures_yield holds known

end

section

variable {Q : Unit → Machine → Prop} (holds : m.store.Holds V)

include holds

theorem yields_define {name : String} {symbol : Symbol} (new : symbol.Holds V)
    (defined : m.store.current.symbols.contains name = false →
      Q () { m with store := m.store.extend [(name, symbol)] }) :
    (define a name symbol span).Yields V m Q :=
  ensures_define holds fun fresh => ⟨Store.Every.extend holds (by simpa using new), defined fresh⟩

theorem yields_instantiate {type name : Identifier} (null : ∀ type, V type .null)
    (defined : ∀ r, m.store.lookup? type.name = some (.recordType r) →
      m.store.current.symbols.contains name.name = false →
      Q () { m with store := m.store.extend [(name.name, .recordInstance r.instantiate)] }) :
    (instantiate a type name span).Yields V m Q :=
  ensures_instantiate holds fun r found fresh =>
    ⟨Store.Every.extend holds (by simpa using holds_instantiate r null), defined r found fresh⟩

theorem yields_assign {name : String} {change : SymbolUpdate}
    (value : ∀ v, change = .value v → ∀ type old,
      m.store.lookup? name = some (.variable type old) → V type v)
    (field : ∀ f v, change = .field f v → ∀ r slot,
      m.store.lookup? name = some (.recordInstance r) → r.fields.find? f = some slot →
        V slot.type v)
    (changed : ∀ store, m.store.SameOutline store → Q () { m with store := store }) :
    (assign a name change span).Yields V m Q :=
  ensures_assign holds fun store updated =>
    ⟨holds.update updated value field, changed store (Store.sameOutline_update updated)⟩

end

/-- What a call binds in the scope of the function. -/
def argumentBindings : List FunctionParameter → List Value → Bindings Symbol
  | p :: parameters, v :: values =>
    (p.name, .variable p.type v) :: argumentBindings parameters values
  | _, _ => []

theorem mapValues_argumentBindings {parameters : List FunctionParameter} {values : List Value}
    (number : values.length = parameters.length) :
    (argumentBindings parameters values).mapValues Symbol.declaration =
      parameters.map fun p => (p.name, .variable p.type .null) := by
  induction parameters generalizing values with
  | nil => cases values <;> rfl
  | cons p parameters ih =>
    cases values with
    | nil => cases number
    | cons v values =>
      rw [List.map_cons, ← ih (Nat.succ.inj number)]
      rfl

theorem holds_argumentBindings {parameters : List FunctionParameter} {values : List Value}
    (fit : List.Forall₂ (fun (p : FunctionParameter) v => V p.type v) parameters values) :
    ∀ binding ∈ argumentBindings parameters values, binding.2.Holds V := by
  induction fit with
  | nil => exact nofun
  | cons fits _ ih =>
    intro binding inside
    rcases List.mem_cons.mp inside with rfl | further
    · exact fits
    · exact ih binding further

theorem define_eq {name : String} {symbol : Symbol}
    (fresh : m.store.current.symbols.contains name = false) :
    define a name symbol span m = (.ok (), { m with store := m.store.extend [(name, symbol)] }) := by
  rw [define_apply, Store.define_of_fresh symbol fresh]

/-- Parameters of different names can be bound in a scope that binds none of them. -/
theorem bindParameters_eq {parameters : List FunctionParameter} {values : List Value}
    (number : values.length = parameters.length)
    (distinct : (parameters.map (·.name)).Nodup)
    (fresh : ∀ p ∈ parameters, m.store.current.symbols.contains p.name = false) :
    bindParameters a span parameters values m =
      (.ok (), { m with store := m.store.extend (argumentBindings parameters values) }) := by
  induction parameters generalizing values m with
  | nil =>
    rw [argumentBindings]
    · simp only [Store.extend_nil]
      rfl
    · exact nofun
  | cons p parameters ih =>
    cases values with
    | nil => cases number
    | cons v values =>
      obtain ⟨apart, rest⟩ := List.nodup_cons.mp distinct
      unfold bindParameters
      change Run.bind _ _ m = _
      rw [Run.bind, define_eq (fresh p List.mem_cons_self)]
      refine (ih (Nat.succ.inj number) rest fun q inside => ?_).trans ?_
      · have unbound := Bindings.contains_eq_false_iff.mp (fresh q (List.mem_cons_of_mem _ inside))
        have other : q.name ≠ p.name := fun same => apart (List.mem_map.mpr ⟨q, inside, same⟩)
        rw [Store.current_extend, Bindings.contains_eq_false_iff]
        simp only [Scope.extend, Bindings.names, List.map_append, List.mem_append, List.map_cons,
          List.map_nil, List.mem_singleton, not_or]
        exact ⟨unbound, other⟩
      · simp [argumentBindings]

end Execution

end CheckedScript
