import CheckedScript.Proofs.Execution.Run
import CheckedScript.Proofs.Store.Scopes

/-!
# Properties of the store that a run keeps

`Run.Ensures` carries a property of the store through a computation, whichever way it ends, together
with a property of what it ends with.
-/

namespace CheckedScript

variable {I : Store → Prop}

namespace Run

variable {α β : Type}

/-- However the computation ends on this machine, its store has the one property, and if it ends
with a result, that has the other one. -/
def Ensures (I : Store → Prop) (x : Run α) (m : Machine) (Q : α → Machine → Prop) : Prop :=
  I (x m).2.store ∧ ∀ a, (x m).1 = .ok a → Q a (x m).2

namespace Ensures

variable {x : Run α} {m : Machine} {Q : α → Machine → Prop}

theorem of_ok (ensures : x.Ensures I m Q) {a : α} {m' : Machine} (ended : x m = (.ok a, m')) :
    I m'.store ∧ Q a m' := by
  obtain ⟨holds, result⟩ := ensures
  rw [ended] at holds result
  exact ⟨holds, result a rfl⟩

theorem of_error (ensures : x.Ensures I m Q) {u : Unwind} {m' : Machine}
    (ended : x m = (.error u, m')) : I m'.store := by
  have holds := ensures.1
  rwa [ended] at holds

theorem mono {R : α → Machine → Prop} (ensures : x.Ensures I m Q)
    (weaker : ∀ a m', x m = (.ok a, m') → Q a m' → R a m') : x.Ensures I m R :=
  ⟨ensures.1, fun a ended => weaker a _ (Prod.ext ended rfl) (ensures.2 a ended)⟩

theorem pure {a : α} (holds : I m.store) (result : Q a m) : (Run.pure a).Ensures I m Q :=
  ⟨holds, by rintro _ ⟨⟩; exact result⟩

theorem unwind {u : Unwind} (holds : I m.store) : (Run.unwind u : Run α).Ensures I m Q :=
  ⟨holds, nofun⟩

theorem bind {f : α → Run β} {R : β → Machine → Prop} (first : x.Ensures I m Q)
    (second : ∀ a m₁, x m = (.ok a, m₁) → I m₁.store → Q a m₁ → (f a).Ensures I m₁ R) :
    (x >>= f).Ensures I m R := by
  change I (Run.bind x f m).2.store ∧ ∀ b, (Run.bind x f m).1 = .ok b → R b (Run.bind x f m).2
  unfold Run.bind
  rcases ended : x m with ⟨u | a, m₁⟩
  · exact ⟨first.of_error ended, nofun⟩
  · obtain ⟨holds, result⟩ := first.of_ok ended
    exact second a m₁ ended holds result

theorem bind_of_ok {f : α → Run β} {R : β → Machine → Prop} {a : α} {m₁ : Machine}
    (ended : x m = (.ok a, m₁)) (second : (f a).Ensures I m₁ R) : (x >>= f).Ensures I m R := by
  have onward : (x >>= f) m = f a m₁ := by
    change Run.bind x f m = _
    rw [Run.bind, ended]
  unfold Ensures
  rw [onward]
  exact second

theorem inScope {name : String} {kind : ScopeKind}
    (closes : ∀ {s : Store}, I s → ∀ depth, I (s.truncate depth))
    (body : x.Ensures I (m.enter name kind) Q) :
    (Run.inScope name kind x).Ensures I m fun a m' =>
      ∃ left, x (m.enter name kind) = (.ok a, left) ∧ Q a left ∧
        m' = { left with store := left.store.truncate m.store.depth } := by
  change I (Run.inScope name kind x m).2.store ∧ _
  unfold Run.inScope
  obtain ⟨holds, result⟩ := body
  refine ⟨closes holds _, fun a ended => ?_⟩
  exact ⟨_, Prod.ext ended rfl, result a ended, rfl⟩

theorem recover {handler : RuntimeError → Run α} (body : x.Ensures I m Q)
    (handled : ∀ error m₁, x m = (.error (.recoverable error), m₁) → I m₁.store →
      (handler error).Ensures I m₁ Q) : (Run.recover x handler).Ensures I m Q := by
  unfold Ensures at body ⊢
  unfold Run.recover
  rcases ended : x m with ⟨(error | error | _) | a, m₁⟩ <;> rw [ended] at body
  -- Only an error that can be recovered from gets to the handler.
  · exact handled error m₁ ended body.1
  all_goals exact body

end Ensures

end Run

namespace Execution

open Run

variable {m : Machine} {a : Activation} {span : Span}

section

variable {Q : Value → Machine → Prop} (holds : I m.store)

include holds

theorem ensures_fail {α : Type} {Q : α → Machine → Prop} (fault : Fault) :
    (a.fail fault span : Run α).Ensures I m Q :=
  .unwind holds

theorem ensures_readVariable {name : Identifier}
    (found : ∀ type value, m.store.lookup? name.name = some (.variable type value) → Q value m) :
    (readVariable a name).Ensures I m Q := by
  unfold Ensures
  rw [readVariable_apply]
  refine ⟨holds, fun v ended => ?_⟩
  split at ended
  · next type value bound =>
    cases ended
    exact found type v bound
  all_goals cases ended

theorem ensures_readElement {name : String} {index : Word}
    (found : ∀ type elements element,
      m.store.lookup? name = some (.variable type (.array elements)) → element ∈ elements →
        Q element m) :
    (readElement a name index span).Ensures I m Q := by
  unfold Ensures
  rw [readElement_apply]
  refine ⟨holds, fun v ended => ?_⟩
  split at ended
  · next type elements bound =>
    split at ended
    · next element present =>
      cases ended
      split at present
      · exact found type elements v bound (List.mem_of_getElem? present)
      · cases present
    · cases ended
  all_goals cases ended

theorem ensures_readField {record field : Identifier}
    (found : ∀ r slot, m.store.lookup? record.name = some (.recordInstance r) →
      r.fields.find? field.name = some slot → Q slot.value m) :
    (readField a record field).Ensures I m Q := by
  unfold Ensures
  rw [readField_apply]
  refine ⟨holds, fun v ended => ?_⟩
  split at ended
  · next r bound =>
    split at ended
    · next slot present =>
      cases ended
      exact found r slot bound present
    · cases ended
  all_goals cases ended

theorem ensures_yield {result : Except Fault Value} (known : ∀ v, result = .ok v → Q v m) :
    (yield a result span).Ensures I m Q := by
  cases result with
  | ok v => exact .pure holds (known v rfl)
  | error fault => exact .unwind holds

theorem ensures_exceededLimit? {completed : Nat} :
    (exceededLimit? a.limits completed).Ensures I m fun _ m' =>
      ∃ deadline, m' = { m with deadline := deadline } := by
  obtain ⟨limit, deadline, asked⟩ := exists_exceededLimit?_eq_ok a.limits completed m
  unfold Ensures
  rw [asked]
  exact ⟨holds, fun _ _ => ⟨deadline, rfl⟩⟩

end

section

variable {Q : Unit → Machine → Prop} (holds : I m.store)

include holds

theorem ensures_define {name : String} {symbol : Symbol}
    (defined : m.store.current.symbols.contains name = false →
      I (m.store.extend [(name, symbol)]) ∧
        Q () { m with store := m.store.extend [(name, symbol)] }) :
    (define a name symbol span).Ensures I m Q := by
  unfold Ensures
  rw [define_apply]
  cases result : m.store.define name symbol with
  | error e => exact ⟨holds, nofun⟩
  | ok store =>
    obtain ⟨fresh, rfl⟩ := Store.define_eq_ok_iff.mp result
    exact ⟨(defined fresh).1, fun _ _ => (defined fresh).2⟩

theorem ensures_instantiate {type name : Identifier}
    (defined : ∀ r, m.store.lookup? type.name = some (.recordType r) →
      m.store.current.symbols.contains name.name = false →
      I (m.store.extend [(name.name, .recordInstance r.instantiate)]) ∧
        Q () { m with store := m.store.extend [(name.name, .recordInstance r.instantiate)] }) :
    (instantiate a type name span).Ensures I m Q := by
  unfold Ensures
  rw [instantiate_apply]
  split
  · next r found => exact ensures_define holds (defined r found)
  · exact ⟨holds, nofun⟩

theorem ensures_assign {name : String} {change : SymbolUpdate}
    (changed : ∀ store, m.store.update name change = .ok store →
      I store ∧ Q () { m with store := store }) :
    (assign a name change span).Ensures I m Q := by
  unfold Ensures
  rw [assign_apply]
  cases updated : m.store.update name change with
  | error e => exact ⟨holds, nofun⟩
  | ok store => exact ⟨(changed store updated).1, fun _ _ => (changed store updated).2⟩

end

end Execution

end CheckedScript
