import CheckedScript.Proofs.Execution.Run
import CheckedScript.Proofs.Store.Outline

/-!
# Names that are looked up and changed

A name is looked up in the local scopes down to the nearest activation of a function, and then in the
global scope. An update goes the same way by a walk of its own. Both come to the same binding, and an
update changes this binding alone (`update_follows_lookup`).
-/

namespace CheckedScript

namespace Bindings

variable {α : Type} {name other : String} {old new : α} {bs changed : Bindings α}

/-- The second bindings hold something else where the first ones find `name`, and differ in nothing
else. -/
def Replaces (name : String) (old new : α) (bs changed : Bindings α) : Prop :=
  ∃ front back, name ∉ names front ∧ bs = front ++ (name, old) :: back ∧
    changed = front ++ (name, new) :: back

theorem replaces_modify (f : α → α) (found : find? name bs = some old) :
    bs.Replaces name old (f old) (modify name f bs) := by
  induction bs with
  | nil => cases found
  | cons b rest ih =>
    unfold find? at found
    unfold modify
    split at found
    · next here =>
      cases found
      rw [if_pos here]
      exact ⟨[], rest, List.not_mem_nil, by rw [← here]; rfl, by rw [← here]; rfl⟩
    · next passed =>
      obtain ⟨front, back, fresh, same, changed⟩ := ih found
      rw [if_neg passed]
      refine ⟨b :: front, back, ?_, by rw [same]; rfl, by rw [changed]; rfl⟩
      intro inside
      rcases List.mem_cons.mp inside with here | further
      · exact passed here.symm
      · exact fresh further

namespace Replaces

variable (replaces : bs.Replaces name old new changed)

include replaces

theorem find?_new : find? name changed = some new := by
  obtain ⟨front, back, fresh, -, rfl⟩ := replaces
  rw [find?_append, find?_eq_none_iff.mpr fresh, find?, if_pos rfl, Option.none_or]

theorem find?_of_ne (different : other ≠ name) : find? other changed = find? other bs := by
  obtain ⟨front, back, -, rfl, rfl⟩ := replaces
  simp [find?_append, find?, different.symm]

end Replaces

end Bindings

namespace Store

/-! ## The scopes that a name is looked up in -/

/-- The scopes from the innermost one up to and including the nearest activation of a function. -/
def uptoActivation (scopes : List Scope) : List Scope :=
  scopes.take (scopes.findIdx (fun scope => decide (scope.kind = .function)) + 1)

theorem uptoActivation_cons (scope : Scope) (outer : List Scope) :
    uptoActivation (scope :: outer) =
      if scope.kind = .function then [scope] else scope :: uptoActivation outer := by
  unfold uptoActivation
  by_cases function : scope.kind = .function <;> simp [List.findIdx_cons, function]

/-- What stands below an activation is not seen. -/
theorem uptoActivation_append {activation : Scope} (function : activation.kind = .function)
    (inner outer : List Scope) :
    uptoActivation (inner ++ activation :: outer) = uptoActivation (inner ++ [activation]) := by
  induction inner with
  | nil => simp [uptoActivation_cons, function]
  | cons scope inner ih => simp only [List.cons_append, uptoActivation_cons, ih]

theorem findLocal?_bind_find? (name : String) (scopes : List Scope) :
    ((findLocal? name scopes).bind fun scope => scope.symbols.find? name) =
      (uptoActivation scopes).findSome? fun scope => scope.symbols.find? name := by
  induction scopes with
  | nil => rfl
  | cons scope outer ih =>
    unfold findLocal?
    rw [uptoActivation_cons, Bindings.contains]
    cases found : scope.symbols.find? name with
    | some symbol =>
      rw [Option.isSome_some, if_pos rfl, Option.bind_some, found]
      split <;> rw [List.findSome?_cons, found]
    | none =>
      rw [if_neg (by simp)]
      split
      · rw [List.findSome?_cons, found]
        rfl
      · rw [List.findSome?_cons, found]
        exact ih

/-- A name stands for what the innermost of the scopes that are seen binds it to. -/
theorem lookup?_eq_findSome? (s : Store) (name : String) :
    s.lookup? name =
      (uptoActivation s.locals ++ [s.global]).findSome? fun scope => scope.symbols.find? name := by
  rw [lookup?_eq_or, findLocal?_bind_find?, List.findSome?_append, List.findSome?_singleton]

theorem lookup?_of_sameSeen {s t : Store} (global : t.global = s.global)
    (seen : uptoActivation t.locals = uptoActivation s.locals) (name : String) :
    t.lookup? name = s.lookup? name := by
  rw [lookup?_eq_findSome?, lookup?_eq_findSome?, seen, global]

/-! ## One binding changed -/

/-- The second store holds another symbol where the first one looks `name` up, and differs in nothing
else. -/
inductive Replaces (name : String) (old new : Symbol) : Store → Store → Prop
  | inLocal {s : Store} {inner outer : List Scope} {scope : Scope} {symbols : Bindings Symbol}
      (locals : s.locals = inner ++ scope :: outer)
      (passed : ∀ other ∈ inner, name ∉ other.symbols.names ∧ other.kind ≠ .function)
      (here : scope.symbols.Replaces name old new symbols) :
      Replaces name old new s
        { s with locals := inner ++ { scope with symbols := symbols } :: outer }
  | inGlobal {s : Store} {symbols : Bindings Symbol}
      (passed : ∀ other ∈ uptoActivation s.locals, name ∉ other.symbols.names)
      (here : s.global.symbols.Replaces name old new symbols) :
      Replaces name old new s { s with global := { s.global with symbols := symbols } }

theorem findLocal?_eq_none_iff {name : String} {scopes : List Scope} :
    findLocal? name scopes = none ↔ ∀ other ∈ uptoActivation scopes, name ∉ other.symbols.names := by
  induction scopes with
  | nil => simp [findLocal?, uptoActivation]
  | cons scope outer ih =>
    unfold findLocal?
    rw [uptoActivation_cons]
    by_cases bound : name ∈ scope.symbols.names
    · rw [if_pos (Bindings.contains_eq_true_iff.mpr bound)]
      split <;> simp [bound]
    · rw [if_neg (fun here => bound (Bindings.contains_eq_true_iff.mp here))]
      split
      · simp [bound]
      · simp [bound, ih]

theorem modifyLocal_eq_some {name : String} {f : Symbol → Symbol} {scopes changed : List Scope}
    (modified : modifyLocal name f scopes = some changed) :
    ∃ inner scope outer, scopes = inner ++ scope :: outer ∧ findLocal? name scopes = some scope ∧
      (∀ other ∈ inner, name ∉ other.symbols.names ∧ other.kind ≠ .function) ∧
      changed = inner ++ { scope with symbols := scope.symbols.modify name f } :: outer := by
  induction scopes generalizing changed with
  | nil => cases modified
  | cons scope outer ih =>
    unfold modifyLocal at modified
    unfold findLocal?
    split at modified
    · next bound =>
      cases modified
      exact ⟨[], scope, outer, rfl, if_pos bound, List.forall_mem_nil _, rfl⟩
    · next free =>
      split at modified
      · cases modified
      · next ordinary =>
        obtain ⟨below, modified', rfl⟩ := Option.map_eq_some_iff.mp modified
        obtain ⟨inner, found, outer', rfl, resolved, passed, rfl⟩ := ih modified'
        refine ⟨scope :: inner, found, outer', rfl, ?_, ?_, rfl⟩
        · rw [if_neg free, if_neg ordinary]
          exact resolved
        · intro other inside
          rcases List.mem_cons.mp inside with rfl | further
          · exact ⟨fun bound => free (Bindings.contains_eq_true_iff.mpr bound), ordinary⟩
          · exact passed other further

/-- The walk of an update comes to the binding that a look-up finds. -/
theorem replaces_modify {s : Store} {name : String} {old : Symbol} (f : Symbol → Symbol)
    (found : s.lookup? name = some old) : s.Replaces name old (f old) (s.modify name f) := by
  rw [lookup?_eq_or] at found
  unfold Store.modify
  cases modified : modifyLocal name f s.locals with
  | some changed =>
    obtain ⟨inner, scope, outer, locals, resolved, passed, rfl⟩ := modifyLocal_eq_some modified
    obtain ⟨held, bound⟩ := Option.isSome_iff_exists.mp (contains_of_findLocal?_eq_some resolved)
    rw [resolved, Option.bind_some, bound] at found
    cases found
    exact .inLocal locals passed (Bindings.replaces_modify f bound)
  | none =>
    have outside := modifyLocal_eq_none_iff.mp modified
    rw [outside] at found
    exact .inGlobal (findLocal?_eq_none_iff.mp outside) (Bindings.replaces_modify f found)

theorem findLocal?_append {name : String} {inner : List Scope}
    (passed : ∀ other ∈ inner, name ∉ other.symbols.names ∧ other.kind ≠ .function)
    (outer : List Scope) : findLocal? name (inner ++ outer) = findLocal? name outer := by
  induction inner with
  | nil => rfl
  | cons scope inner ih =>
    obtain ⟨free, ordinary⟩ := passed scope List.mem_cons_self
    rw [List.cons_append, findLocal?, if_neg (mt Bindings.contains_eq_true_iff.mp free),
      if_neg ordinary]
    exact ih fun other inside => passed other (List.mem_cons_of_mem _ inside)

/-- Only the symbols of one scope differ, and not for the name that is looked up. -/
theorem findSome?_uptoActivation {scope changed : Scope} {name : String}
    (kind : changed.kind = scope.kind)
    (same : changed.symbols.find? name = scope.symbols.find? name) (inner outer : List Scope) :
    ((uptoActivation (inner ++ changed :: outer)).findSome? fun scope => scope.symbols.find? name) =
      (uptoActivation (inner ++ scope :: outer)).findSome? fun scope => scope.symbols.find? name := by
  induction inner with
  | nil =>
    rw [List.nil_append, List.nil_append, uptoActivation_cons, uptoActivation_cons, kind]
    split <;> rw [List.findSome?_cons, List.findSome?_cons, same]
  | cons first inner ih =>
    rw [List.cons_append, List.cons_append, uptoActivation_cons, uptoActivation_cons]
    split
    · rfl
    · rw [List.findSome?_cons, List.findSome?_cons, ih]

namespace Replaces

variable {s t : Store} {name other : String} {old new : Symbol}

theorem lookup?_new (replaces : s.Replaces name old new t) : t.lookup? name = some new := by
  rw [lookup?_eq_or]
  cases replaces with
  | inLocal locals passed here =>
    rw [findLocal?_append passed, findLocal?, Bindings.contains, here.find?_new]
    rw [Option.isSome_some, if_pos rfl, Option.bind_some, here.find?_new]
    rfl
  | inGlobal passed here =>
    rw [findLocal?_eq_none_iff.mpr passed]
    exact here.find?_new

theorem lookup?_of_ne (replaces : s.Replaces name old new t) (different : other ≠ name) :
    t.lookup? other = s.lookup? other := by
  rw [lookup?_eq_or, lookup?_eq_or, findLocal?_bind_find?, findLocal?_bind_find?]
  cases replaces with
  | @inLocal inner outer scope symbols locals passed here =>
    have kind : ({ scope with symbols := symbols } : Scope).kind = scope.kind := rfl
    rw [locals, findSome?_uptoActivation kind (here.find?_of_ne different)]
  | inGlobal passed here => rw [here.find?_of_ne different]

end Replaces

end Store

/-! ## What an update writes -/

namespace SymbolUpdate

/-- The field that a change is made to, unless it is made to a variable. -/
def field? : SymbolUpdate → Option String
  | .value _ => none
  | .field name _ => some name

/-- The value that a change puts in. -/
def content : SymbolUpdate → Value
  | .value v | .field _ v => v

/-- A change puts its value into a variable, or into one field of a record. -/
inductive Changes : SymbolUpdate → Symbol → Symbol → Prop
  | variable {type : Ty} {old new : Value} :
      Changes (.value new) (.variable type old) (.variable type new)
  | recordInstance {r : RecordInstance} {field : String} {slot : FieldSlot} {new : Value}
      {fields : Bindings FieldSlot}
      (here : r.fields.Replaces field slot { slot with value := new } fields) :
      Changes (.field field new) (.recordInstance r) (.recordInstance { r with fields := fields })

end SymbolUpdate

/-- What a variable holds or, given a field, what this field of a record holds. -/
def Symbol.held? : Symbol → (field : Option String) → Option Value
  | .variable _ value, none => some value
  | .recordInstance r, some field => (r.fields.find? field).map FieldSlot.value
  | _, _ => none

theorem SymbolUpdate.Changes.held? {change : SymbolUpdate} {old new : Symbol}
    (changes : change.Changes old new) (field : Option String) :
    new.held? field = if field = change.field? then some change.content else old.held? field := by
  cases changes with
  | «variable» =>
    cases field with
    | none => exact (if_pos rfl).symm
    | some other => exact (if_neg nofun).symm
  | @recordInstance r name slot new fields here =>
    cases field with
    | none => exact (if_neg nofun).symm
    | some other =>
      show (fields.find? other).map FieldSlot.value = if some other = some name then some new else
        (r.fields.find? other).map FieldSlot.value
      by_cases same : other = name
      · rw [same, here.find?_new, if_pos rfl]
        rfl
      · rw [here.find?_of_ne same, if_neg (fun equal => same (Option.some.inj equal))]

namespace Store

/-- What the variable `name` holds or, given a field, what this field of the record `name` holds. -/
def held? (s : Store) (name : String) (field : Option String) : Option Value :=
  (s.lookup? name).bind (·.held? field)

/-- The store after some updates; one that is refused leaves it as it is. -/
def updateAll (s : Store) (updates : List (String × SymbolUpdate)) : Store :=
  updates.foldl (fun s u => (s.update u.1 u.2).toOption.getD s) s

variable {s t : Store} {name : String} {change : SymbolUpdate}

theorem exists_update_value_iff {value : Value} :
    (∃ t, s.update name (.value value) = .ok t) ↔
      ∃ type old, s.lookup? name = some (.variable type old) := by
  unfold update
  rcases s.lookup? name with _ | (_ | _ | _ | _) <;> simp

theorem exists_update_field_iff {field : String} {value : Value} :
    (∃ t, s.update name (.field field value) = .ok t) ↔
      ∃ r, s.lookup? name = some (.recordInstance r) ∧ field ∈ r.fields.names := by
  unfold update
  rcases s.lookup? name with _ | (_ | _ | _ | r)
  case some.recordInstance =>
    cases present : r.fields.contains field with
    | true => simpa [present] using Bindings.contains_eq_true_iff.mp present
    | false => simpa [present] using Bindings.contains_eq_false_iff.mp present
  all_goals simp

/-- An update changes the binding that a look-up finds, and nothing else in the store. -/
theorem exists_replaces_of_update (updated : s.update name change = .ok t) :
    ∃ old new, s.lookup? name = some old ∧ change.Changes old new ∧ s.Replaces name old new t := by
  obtain ⟨old, new, found, rfl, kind⟩ := update_eq_ok updated
  refine ⟨old, new, found, ?_, replaces_modify (fun _ => new) found⟩
  rcases kind with ⟨type, held, value, rfl, rfl, rfl⟩ | ⟨r, field, value, rfl, rfl, present, rfl⟩
  · exact .variable
  · obtain ⟨slot, bound⟩ := Option.isSome_iff_exists.mp present
    exact .recordInstance (Bindings.replaces_modify (fun slot => { slot with value := value }) bound)

/-- Reading after writing. -/
theorem held?_of_update (updated : s.update name change = .ok t) (other : String)
    (field : Option String) :
    t.held? other field =
      if other = name ∧ field = change.field? then some change.content else s.held? other field := by
  obtain ⟨old, new, found, changes, replaces⟩ := exists_replaces_of_update updated
  unfold held?
  by_cases same : other = name
  · rw [same, replaces.lookup?_new, found]
    simpa using changes.held? field
  · rw [replaces.lookup?_of_ne same, if_neg (fun equal => same equal.1)]

theorem held?_updateAll {field : Option String} {updates : List (String × SymbolUpdate)}
    (elsewhere : ∀ u ∈ updates, u.1 = name → u.2.field? ≠ field) :
    (s.updateAll updates).held? name field = s.held? name field := by
  induction updates generalizing s with
  | nil => rfl
  | cons u rest ih =>
    have later := ih (s := (s.update u.1 u.2).toOption.getD s)
      fun v inside => elsewhere v (List.mem_cons_of_mem _ inside)
    refine later.trans ?_
    cases updated : s.update u.1 u.2 with
    | error e => rfl
    | ok t =>
      refine (held?_of_update updated name field).trans (if_neg ?_)
      rintro ⟨named, placed⟩
      exact elsewhere u List.mem_cons_self named.symm placed.symm

/-- A name stands for what the innermost scope binds it to, of those down to the nearest activation
of a function, and else for what the global scope binds it to; what stands between these does not
count. An update is accepted if and only if the look-up finds a variable or, for a field, a record
that has it. Then the new value stands where the look-up finds the name, and in nothing else does the
store differ. A look-up finds this value until an update is made to the same place. An update that is
refused leaves the machine as it was. -/
theorem update_follows_lookup (s : Store) (name : String) :
    (s.lookup? name =
      (uptoActivation s.locals ++ [s.global]).findSome? fun scope => scope.symbols.find? name) ∧
    (∀ (t : Store) (inner between between' : List Scope) (activation : Scope),
      activation.kind = .function → s.locals = inner ++ activation :: between →
      t.locals = inner ++ activation :: between' → t.global = s.global →
      t.lookup? name = s.lookup? name) ∧
    (∀ v, (∃ t, s.update name (.value v) = .ok t) ↔
      ∃ type old, s.lookup? name = some (.variable type old)) ∧
    (∀ field v, (∃ t, s.update name (.field field v) = .ok t) ↔
      ∃ r, s.lookup? name = some (.recordInstance r) ∧ field ∈ r.fields.names) ∧
    (∀ change t, s.update name change = .ok t →
      (∃ old new, s.lookup? name = some old ∧ change.Changes old new ∧ s.Replaces name old new t ∧
        t.lookup? name = some new) ∧
      ∀ later : List (String × SymbolUpdate),
        (∀ u ∈ later, u.1 = name → u.2.field? ≠ change.field?) →
        (t.updateAll later).held? name change.field? = some change.content) ∧
    ∀ change e, s.update name change = .error e → ∀ (a : Activation) (span : Span)
      (output : Array String) (deadline : Deadline),
        Execution.assign a name change span ⟨s, output, deadline⟩ =
          (.error (a.unwinding (Execution.assignmentFault name e) span),
            ⟨s, output, deadline⟩) := by
  refine ⟨lookup?_eq_findSome? s name, ?_, fun v => exists_update_value_iff,
    fun field v => exists_update_field_iff, ?_, ?_⟩
  · intro t inner between between' activation function locals locals' global
    refine lookup?_of_sameSeen global ?_ name
    rw [locals, locals', uptoActivation_append function, uptoActivation_append function inner between]
  · intro change t updated
    obtain ⟨old, new, found, changes, replaces⟩ := exists_replaces_of_update updated
    refine ⟨⟨old, new, found, changes, replaces, replaces.lookup?_new⟩, fun later elsewhere => ?_⟩
    rw [held?_updateAll elsewhere, held?_of_update updated, if_pos ⟨rfl, rfl⟩]
  · intro change e refused a span output deadline
    rw [Execution.assign_apply, refused]

/-- A block in a call that another call has made. Both calls and the global scope bind an `x`. -/
def callInCall : Store where
  global := ⟨0, "global", .global, [("x", .variable .int (.int 1)),
    ("p", .recordInstance ⟨"P", [("a", ⟨.int, .null⟩), ("b", ⟨.int, .int 7⟩)]⟩)]⟩
  locals := [⟨3, "block", .block, [("y", .variable .int (.int 4))]⟩,
    ⟨2, "f", .function, [("x", .variable .int (.int 3))]⟩,
    ⟨1, "g", .function, [("x", .variable .int (.int 2)), ("z", .variable .int (.int 5))]⟩]
  nextId := 4
  history := .empty 0

/-- The `x` of the inner call is changed, and the `z` of the outer one cannot be. -/
theorem update_follows_lookup_callInCall :
    (∃ t, callInCall.update "x" (.value (.int 9)) = .ok t ∧
      callInCall.Replaces "x" (.variable .int (.int 3)) (.variable .int (.int 9)) t ∧
      (t.updateAll [("p", .field "a" (.int 8)), ("y", .value (.int 6))]).held? "x" none =
        some (.int 9)) ∧
    ({ callInCall with locals := callInCall.locals.take 2 } : Store).lookup? "z" =
      callInCall.lookup? "z" ∧
    (Execution.assign (.topLevel .standard) "z" (.value (.int 9)) default
      ⟨callInCall, #[], .never⟩).2 = ⟨callInCall, #[], .never⟩ := by
  refine ⟨?_, ?_, ?_⟩
  · obtain ⟨-, -, accepted, -, changed, -⟩ := update_follows_lookup callInCall "x"
    obtain ⟨t, updated⟩ := (accepted (.int 9)).mpr ⟨_, _, rfl⟩
    obtain ⟨⟨old, new, found, changes, replaces, -⟩, later⟩ := changed _ t updated
    cases found
    cases changes
    refine ⟨t, updated, replaces, later _ ?_⟩
    intro u listed named
    rcases List.mem_cons.mp listed with rfl | listed
    · exact absurd named (by decide)
    · rw [List.mem_singleton.mp listed] at named
      exact absurd named (by decide)
  · exact (update_follows_lookup callInCall "z").2.1 _ [_] [_] [] _ rfl rfl rfl rfl
  · exact congrArg Prod.snd ((update_follows_lookup callInCall "z").2.2.2.2.2 _ _ rfl _ _ _ _)

end Store

end CheckedScript
