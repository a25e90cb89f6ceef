import CheckedScript.Proofs.Store.Outline
import Mathlib.Data.List.DropRight
import Mathlib.Data.List.Forall2
import Mathlib.Data.List.Nodup

/-!
# The history and the log of all pushes

The history of a store forgets its oldest records and fills in the others while scopes close. A
`Course` forgets nothing: it keeps every scope that was pushed and every store that came before. From
a course it can be read off what a record has to say (`Course.record`), and the history of its store
shows the latest of these records (`Course.keeps_latest_pushes`).
-/

namespace CheckedScript

/-- What can be done to the scopes of a store. -/
inductive ScopeOperation where
  | push (name : String) (kind : ScopeKind)
  | pop
  | truncate (depth : Nat)
  | reset
  | define (name : String) (symbol : Symbol)
  | defineGlobal (name : String) (symbol : Symbol)
  | update (name : String) (change : SymbolUpdate)
  | removeGlobal (name : String)

namespace Store

/-- The store after an operation. One that is refused leaves the store as it is. -/
def apply (s : Store) : ScopeOperation → Store
  | .push name kind => s.push name kind
  | .pop => (s.pop?.map Prod.snd).getD s
  | .truncate depth => s.truncate depth
  | .reset => s.truncate 1
  | .define name symbol => (s.define name symbol).toOption.getD s
  | .defineGlobal name symbol => (s.defineGlobal name symbol).toOption.getD s
  | .update name change => (s.update name change).toOption.getD s
  | .removeGlobal name => s.removeGlobal name

/-- The active scope with this id. -/
def scope? (s : Store) (id : Nat) : Option Scope := s.scopes.find? fun scope => scope.id == id

end Store

/-- A scope as it was pushed, and the number of scopes that were active before. -/
structure Opening where
  scope : Scope
  depth : Nat

/-- What a store has come through. -/
structure Course where
  store : Store
  /-- The stores before, the latest one first. -/
  earlier : List Store
  /-- Every scope that was pushed, the first one first. -/
  pushes : List Opening

namespace Course

def start (limit : Nat) : Course :=
  ⟨.empty limit, [], [⟨⟨0, "global", .global, []⟩, 0⟩]⟩

def step (c : Course) (operation : ScopeOperation) : Course where
  store := c.store.apply operation
  earlier := c.store :: c.earlier
  pushes := c.pushes ++ match operation with
    | .push name kind => [⟨⟨c.store.nextId, name, kind, []⟩, c.store.depth⟩]
    | _ => []

/-- The course that operations take from a fresh store on. -/
def run (limit : Nat) (operations : List ScopeOperation) : Course :=
  operations.foldl step (start limit)

/-- A scope as it was in the latest store in which it was active. -/
def lastSeen? (c : Course) (id : Nat) : Option Scope :=
  (c.store :: c.earlier).findSome? fun s => s.scope? id

/-- What is to be remembered of a scope that was pushed: it is open as long as it is active, and
once it is not, it is closed and had these names in the end. -/
def record (c : Course) (opening : Opening) : ScopeRecord :=
  let active := (c.store.scope? opening.scope.id).isSome
  { id := opening.scope.id
    name := opening.scope.name
    kind := opening.scope.kind
    depth := opening.depth
    names := if active then [] else ((c.lastSeen? opening.scope.id).elim [] fun s => s.symbols.names)
    closed := !active }

end Course

/-! ## Names in one scope -/

theorem Bindings.names_erase_sublist {α : Type} (name : String) (bs : Bindings α) :
    (names (erase name bs)).Sublist (names bs) := by
  induction bs with
  | nil => exact .refl _
  | cons b rest ih =>
    unfold erase
    split
    · exact List.sublist_cons_self _ _
    · exact ih.cons_cons b.1

/-- The same scope with other symbols, whose names are as distinct as before. -/
structure Scope.Refills (a b : Scope) : Prop where
  id : b.id = a.id
  name : b.name = a.name
  kind : b.kind = a.kind
  distinct : a.symbols.names.Nodup → b.symbols.names.Nodup

namespace Scope.Refills

theorem refl (a : Scope) : a.Refills a := ⟨rfl, rfl, rfl, fun distinct => distinct⟩

theorem extend {a : Scope} {name : String} (fresh : a.symbols.contains name = false)
    (symbol : Symbol) : a.Refills (a.extend [(name, symbol)]) := by
  refine ⟨rfl, rfl, rfl, fun distinct => ?_⟩
  have names : (a.extend [(name, symbol)]).symbols.names = a.symbols.names ++ [name] :=
    Bindings.names_append a.symbols name symbol
  rw [names, List.nodup_append]
  refine ⟨distinct, List.nodup_singleton name, ?_⟩
  rintro other inside _ new rfl
  exact Bindings.contains_eq_false_iff.mp fresh (List.mem_singleton.mp new ▸ inside)

theorem modify (a : Scope) (name : String) (f : Symbol → Symbol) :
    a.Refills { a with symbols := a.symbols.modify name f } :=
  ⟨rfl, rfl, rfl, fun distinct => (Bindings.names_modify name f a.symbols).symm ▸ distinct⟩

theorem erase (a : Scope) (name : String) :
    a.Refills { a with symbols := a.symbols.erase name } :=
  ⟨rfl, rfl, rfl, fun distinct => distinct.sublist (Bindings.names_erase_sublist name a.symbols)⟩

end Scope.Refills

namespace Store

/-- The same scopes with other symbols. -/
structure Refills (s t : Store) : Prop where
  global : s.global.Refills t.global
  locals : List.Forall₂ Scope.Refills s.locals t.locals
  nextId : t.nextId = s.nextId
  history : t.history = s.history

theorem forall₂_refills (scopes : List Scope) : List.Forall₂ Scope.Refills scopes scopes :=
  List.forall₂_same.mpr fun scope _ => .refl scope

theorem forall₂_modifyLocal {name : String} {f : Symbol → Symbol} {scopes changed : List Scope}
    (modified : modifyLocal name f scopes = some changed) :
    List.Forall₂ Scope.Refills scopes changed := by
  induction scopes generalizing changed with
  | nil => cases modified
  | cons scope outer ih =>
    unfold modifyLocal at modified
    split at modified
    · cases modified
      exact .cons (.modify scope name f) (forall₂_refills outer)
    · split at modified
      · cases modified
      · obtain ⟨below, found, rfl⟩ := Option.map_eq_some_iff.mp modified
        exact .cons (.refl scope) (ih found)

namespace Refills

theorem refl (s : Store) : s.Refills s := ⟨.refl _, forall₂_refills _, rfl, rfl⟩

theorem extend {s : Store} {name : String} (fresh : s.current.symbols.contains name = false)
    (symbol : Symbol) : s.Refills (s.extend [(name, symbol)]) := by
  obtain ⟨global, locals, nextId, history⟩ := s
  cases locals with
  | nil => exact ⟨.extend fresh symbol, .nil, rfl, rfl⟩
  | cons scope outer => exact ⟨.refl _, .cons (.extend fresh symbol) (forall₂_refills outer), rfl, rfl⟩

theorem modify (s : Store) (name : String) (f : Symbol → Symbol) : s.Refills (s.modify name f) := by
  unfold Store.modify
  split
  · next scopes modified => exact ⟨.refl _, forall₂_modifyLocal modified, rfl, rfl⟩
  · exact ⟨.modify s.global name f, forall₂_refills _, rfl, rfl⟩

theorem define {s t : Store} {name : String} {symbol : Symbol}
    (defined : s.define name symbol = .ok t) : s.Refills t := by
  obtain ⟨fresh, rfl⟩ := define_eq_ok_iff.mp defined
  exact .extend fresh symbol

theorem defineGlobal {s t : Store} {name : String} {symbol : Symbol}
    (defined : s.defineGlobal name symbol = .ok t) : s.Refills t := by
  unfold Store.defineGlobal defineIn at defined
  cases fresh : s.global.symbols.contains name with
  | true =>
    rw [if_pos fresh] at defined
    cases defined
  | false =>
    rw [if_neg (Bool.eq_false_iff.mp fresh)] at defined
    cases defined
    exact ⟨.extend fresh symbol, forall₂_refills _, rfl, rfl⟩

theorem update {s t : Store} {name : String} {change : SymbolUpdate}
    (updated : s.update name change = .ok t) : s.Refills t := by
  obtain ⟨symbol, changed, -, rfl, -⟩ := update_eq_ok updated
  exact .modify s name _

theorem removeGlobal (s : Store) (name : String) : s.Refills (s.removeGlobal name) :=
  ⟨.erase s.global name, forall₂_refills _, rfl, rfl⟩

/-- What is refused changes nothing. -/
theorem of_result {s : Store} {result : Except ScopeError Store}
    (done : ∀ t, result = .ok t → s.Refills t) : s.Refills (result.toOption.getD s) := by
  cases result with
  | error e => exact .refl s
  | ok t => exact done t rfl

variable {s t : Store}

theorem scopes (refills : s.Refills t) : List.Forall₂ Scope.Refills s.scopes t.scopes :=
  .cons refills.global (List.forall₂_reverse_iff.mpr refills.locals)

theorem ids (refills : s.Refills t) : t.scopes.map Scope.id = s.scopes.map Scope.id := by
  have same := refills.scopes
  generalize s.scopes = before at same
  generalize t.scopes = after at same
  induction same with
  | nil => rfl
  | cons first _ ih => rw [List.map_cons, List.map_cons, ih, first.id]

theorem exists_refilled (refills : s.Refills t) {scope : Scope} (active : scope ∈ t.scopes) :
    ∃ before ∈ s.scopes, before.Refills scope := by
  obtain ⟨index, inside, rfl⟩ := List.mem_iff_getElem.mp active
  have same := List.forall₂_iff_get.mp refills.scopes
  exact ⟨_, List.get_mem _ ⟨index, same.1 ▸ inside⟩, same.2 index _ inside⟩

end Refills

/-! ## The stack of the active scopes -/

/-- The scope at the bottom is the one that was opened first, scopes that were opened later stand
above, and no scope binds a name twice. -/
structure Orderly (s : Store) : Prop where
  bottom : s.global.id = 0 ∧ s.global.name = "global" ∧ s.global.kind = .global
  ascending : (s.scopes.map Scope.id).Pairwise (· < ·)
  known : ∀ scope ∈ s.scopes, scope.id < s.nextId
  distinct : ∀ scope ∈ s.scopes, scope.symbols.names.Nodup

theorem scopes_push (s : Store) (name : String) (kind : ScopeKind) :
    (s.push name kind).scopes = s.scopes ++ [⟨s.nextId, name, kind, []⟩] := by
  simp [scopes]

/-- Closing scopes takes them off the top of the stack. -/
theorem scopes_eq_append (count : Nat) (s : Store) :
    s.scopes = (popMany count s).scopes ++ (s.locals.take count).reverse := by
  unfold scopes
  rw [popMany_global, popMany_locals, List.cons_append, ← List.reverse_append,
    List.take_append_drop]

theorem scopes_popMany_sublist (count : Nat) (s : Store) :
    (popMany count s).scopes.Sublist s.scopes := by
  rw [scopes_eq_append count s]
  exact List.sublist_append_left ..

theorem nextId_popMany (count : Nat) (s : Store) : (popMany count s).nextId = s.nextId := by
  induction count generalizing s with
  | zero => rfl
  | succ count ih =>
    unfold popMany pop?
    cases s.locals with
    | nil => rfl
    | cons scope outer => exact ih _

namespace Orderly

variable {s t : Store}

theorem empty (limit : Nat) : (Store.empty limit).Orderly := by
  refine ⟨⟨rfl, rfl, rfl⟩, ?_, ?_, ?_⟩ <;> simp [Store.empty, scopes, Bindings.names]

theorem push (orderly : s.Orderly) (name : String) (kind : ScopeKind) :
    (s.push name kind).Orderly := by
  refine ⟨orderly.bottom, ?_, ?_, ?_⟩
  · rw [scopes_push, List.map_append, List.pairwise_append]
    refine ⟨orderly.ascending, List.pairwise_singleton .., fun id inside other new => ?_⟩
    obtain ⟨scope, active, rfl⟩ := List.mem_map.mp inside
    rw [List.map_singleton, List.mem_singleton] at new
    exact new ▸ orderly.known scope active
  · rw [scopes_push]
    intro scope inside
    rcases List.mem_append.mp inside with old | new
    · exact (orderly.known scope old).trans (Nat.lt_succ_self _)
    · rw [List.mem_singleton.mp new]
      exact Nat.lt_succ_self _
  · rw [scopes_push]
    intro scope inside
    rcases List.mem_append.mp inside with old | new
    · exact orderly.distinct scope old
    · rw [List.mem_singleton.mp new]
      exact List.nodup_nil

theorem popMany (orderly : s.Orderly) (count : Nat) : (popMany count s).Orderly := by
  have fewer := scopes_popMany_sublist count s
  refine ⟨?_, orderly.ascending.sublist (fewer.map Scope.id), ?_, ?_⟩
  · rw [popMany_global]
    exact orderly.bottom
  · rw [nextId_popMany]
    exact fun scope inside => orderly.known scope (fewer.subset inside)
  · exact fun scope inside => orderly.distinct scope (fewer.subset inside)

theorem refill (orderly : s.Orderly) (refills : s.Refills t) : t.Orderly := by
  obtain ⟨id, name, kind⟩ := orderly.bottom
  refine ⟨⟨?_, ?_, ?_⟩, ?_, ?_, ?_⟩
  · rw [refills.global.id, id]
  · rw [refills.global.name, name]
  · rw [refills.global.kind, kind]
  · rw [refills.ids]
    exact orderly.ascending
  · intro scope inside
    have listed : scope.id ∈ s.scopes.map Scope.id := refills.ids ▸ List.mem_map_of_mem inside
    obtain ⟨before, active, same⟩ := List.mem_map.mp listed
    rw [refills.nextId, ← same]
    exact orderly.known before active
  · intro scope inside
    obtain ⟨before, active, refilled⟩ := refills.exists_refilled inside
    exact refilled.distinct (orderly.distinct before active)

/-- An active scope is the only one with its id. -/
theorem eq_of_id_eq (orderly : s.Orderly) {a b : Scope} (first : a ∈ s.scopes)
    (second : b ∈ s.scopes) (same : a.id = b.id) : a = b := by
  have nodup : (s.scopes.map Scope.id).Nodup := orderly.ascending.imp Nat.ne_of_lt
  exact List.inj_on_of_nodup_map nodup first second same

theorem scope?_eq_some_iff (orderly : s.Orderly) {id : Nat} {scope : Scope} :
    s.scope? id = some scope ↔ scope ∈ s.scopes ∧ scope.id = id := by
  constructor
  · intro found
    exact ⟨List.mem_of_find?_eq_some found, by simpa using List.find?_some found⟩
  · rintro ⟨active, rfl⟩
    cases found : s.scope? scope.id with
    | none => simpa using List.find?_eq_none.mp found scope active
    | some other =>
      have same : other.id = scope.id := by simpa using List.find?_some found
      rw [orderly.eq_of_id_eq (List.mem_of_find?_eq_some found) active same]

end Orderly

theorem Orderly.distinct_locals {s : Store} (orderly : s.Orderly) :
    (s.locals.map Scope.id).Nodup := by
  have ascending := orderly.ascending
  rw [scopes, List.map_cons, List.map_reverse] at ascending
  exact List.nodup_reverse.mp (ascending.of_cons.imp Nat.ne_of_lt)

theorem Orderly.distinct_take {s : Store} (orderly : s.Orderly) (count : Nat) :
    ((s.locals.take count).map Scope.id).Nodup :=
  orderly.distinct_locals.sublist ((List.take_sublist count s.locals).map Scope.id)

theorem isSome_scope?_iff {s : Store} {id : Nat} :
    (s.scope? id).isSome = true ↔ id ∈ s.scopes.map Scope.id := by
  simp only [scope?, List.find?_isSome, List.mem_map, beq_iff_eq]

theorem scope?_push {s : Store} {name : String} {kind : ScopeKind} {id : Nat}
    (old : id < s.nextId) : (s.push name kind).scope? id = s.scope? id := by
  have other : (s.nextId == id) = false := by simpa using (Nat.ne_of_lt old).symm
  simp [scope?, scopes_push, other]

/-- The same scopes are active when only symbols change. -/
theorem Refills.isSome_scope? {s t : Store} (refills : s.Refills t) (id : Nat) :
    (t.scope? id).isSome = (s.scope? id).isSome := by
  rw [Bool.eq_iff_iff, isSome_scope?_iff, isSome_scope?_iff, refills.ids]

/-! ## Scopes that close -/

theorem ne_of_closed {s : Store} (orderly : s.Orderly) {count : Nat} {kept closed : Scope}
    (left : kept ∈ (popMany count s).scopes) (taken : closed ∈ s.locals.take count) :
    kept.id ≠ closed.id := by
  have ascending := orderly.ascending
  rw [scopes_eq_append count s, List.map_append, List.pairwise_append] at ascending
  exact Nat.ne_of_lt (ascending.2.2 kept.id (List.mem_map_of_mem left) closed.id
    (List.mem_map_of_mem (List.mem_reverse.mpr taken)))

theorem scope?_popMany_of_closed {s : Store} (orderly : s.Orderly) {count : Nat} {closed : Scope}
    (taken : closed ∈ s.locals.take count) : (popMany count s).scope? closed.id = none := by
  refine List.find?_eq_none.mpr fun kept left => ?_
  simpa using ne_of_closed orderly left taken

/-- Scopes that are not closed stay as they are. -/
theorem scope?_popMany {s : Store} {count id : Nat}
    (other : ∀ scope ∈ s.locals.take count, scope.id ≠ id) :
    (popMany count s).scope? id = s.scope? id := by
  have none : (s.locals.take count).reverse.find? (fun scope => scope.id == id) = none := by
    refine List.find?_eq_none.mpr fun scope taken => ?_
    simpa using other scope (List.mem_reverse.mp taken)
  rw [scope?, scope?, scopes_eq_append count s, List.find?_append, none, Option.or_none]

end Store

/-! ## Records -/

namespace ScopeRecord

/-- The record after these scopes were closed. -/
def closing (closed : List Scope) (r : ScopeRecord) : ScopeRecord :=
  match closed.find? fun scope => scope.id == r.id with
  | some scope => { r with names := scope.symbols.names, closed := true }
  | none => r

@[simp] theorem id_closing (closed : List Scope) (r : ScopeRecord) :
    (r.closing closed).id = r.id := by
  unfold closing
  split <;> rfl

theorem closing_of_mem {closed : List Scope} {scope : Scope} {r : ScopeRecord}
    (distinct : (closed.map Scope.id).Nodup) (inside : scope ∈ closed) (same : scope.id = r.id) :
    r.closing closed = { r with names := scope.symbols.names, closed := true } := by
  have found : closed.find? (fun scope => scope.id == r.id) = some scope := by
    cases first : closed.find? fun scope => scope.id == r.id with
    | none => exact absurd same (by simpa using List.find?_eq_none.mp first scope inside)
    | some other =>
      have also : other.id = r.id := by simpa using List.find?_some first
      rw [List.inj_on_of_nodup_map distinct (List.mem_of_find?_eq_some first) inside
        (also.trans same.symm)]
  rw [closing, found]

theorem closing_of_not_mem {closed : List Scope} {r : ScopeRecord}
    (other : ∀ scope ∈ closed, scope.id ≠ r.id) : r.closing closed = r := by
  have missing : closed.find? (fun scope => scope.id == r.id) = none :=
    List.find?_eq_none.mpr fun scope inside => by simpa using other scope inside
  rw [closing, missing]

/-- Scopes close one after the other. -/
theorem closing_cons {scope : Scope} {closed : List Scope} (r : ScopeRecord)
    (apart : ∀ other ∈ closed, other.id ≠ scope.id) :
    (r.closing [scope]).closing closed = r.closing (scope :: closed) := by
  by_cases here : scope.id = r.id
  · rw [closing_of_not_mem fun other inside => by rw [id_closing, ← here]; exact apart other inside]
    simp [closing, here]
  · simp [closing, here]

end ScopeRecord

namespace History

theorem closeIn_eq_map {records : List ScopeRecord} (distinct : (records.map (·.id)).Nodup)
    (scope : Scope) :
    closeIn scope.id scope.symbols.names records = records.map (·.closing [scope]) := by
  induction records with
  | nil => rfl
  | cons r rest ih =>
    obtain ⟨apart, later⟩ := List.nodup_cons.mp distinct
    unfold closeIn
    split
    · next here =>
      have untouched : ∀ other ∈ rest, other.closing [scope] = other := by
        intro other inside
        refine ScopeRecord.closing_of_not_mem (List.forall_mem_singleton.mpr fun same => apart ?_)
        exact List.mem_map.mpr ⟨other, inside, same.symm.trans here.symm⟩
      have alone : ([scope].map Scope.id).Nodup := List.nodup_singleton scope.id
      rw [List.map_cons, List.map_congr_left untouched, List.map_id',
        ScopeRecord.closing_of_mem alone (List.mem_singleton_self scope) here.symm]
    · next elsewhere =>
      rw [List.map_cons, ih later, ScopeRecord.closing_of_not_mem
        (List.forall_mem_singleton.mpr fun same => elsewhere same.symm)]

/-- A new record comes in front of the latest ones, and none of those that are shown is lost. -/
theorem exists_push {h : History} (sized : h.size = h.newest.length) (r : ScopeRecord) :
    ∃ kept, kept <+: h.newest ∧ min h.limit h.newest.length ≤ kept.length ∧
      h.push r = ⟨h.limit, r :: kept, kept.length + 1⟩ := by
  unfold push
  split
  · exact ⟨h.newest, List.prefix_refl _, Nat.min_le_right .., by rw [sized]⟩
  · refine ⟨h.newest.take h.limit, List.take_prefix .., ?_, ?_⟩
    · rw [List.length_take]
    · rw [List.length_take, sized, Nat.min_comm]

end History

namespace Store

theorem history_popMany {s : Store} (count : Nat)
    (records : (s.history.newest.map (·.id)).Nodup) (scopes : (s.locals.map Scope.id).Nodup) :
    (popMany count s).history =
      { s.history with newest := s.history.newest.map (·.closing (s.locals.take count)) } := by
  have nothing : ∀ h : History, h = { h with newest := h.newest.map (·.closing []) } := by
    intro h
    rw [List.map_congr_left fun r _ => ScopeRecord.closing_of_not_mem (List.forall_mem_nil _),
      List.map_id']
  induction count generalizing s with
  | zero => exact nothing s.history
  | succ count ih =>
    unfold popMany pop?
    cases inner : s.locals with
    | nil => exact nothing s.history
    | cons scope outer =>
      rw [inner, List.map_cons, List.nodup_cons] at scopes
      obtain ⟨apart, later⟩ := scopes
      have first := History.closeIn_eq_map records scope
      dsimp only [History.close]
      rw [ih (by simpa [first, Function.comp_def] using records) later]
      simp only [first, List.map_map, List.take_succ_cons, History.mk.injEq, true_and, and_true]
      refine List.map_congr_left fun r _ => ?_
      refine ScopeRecord.closing_cons r fun other inside same => apart ?_
      exact List.mem_map.mpr ⟨other, List.mem_of_mem_take inside, same⟩

/-- Whatever closes scopes closes the innermost ones. -/
theorem apply_eq (s : Store) (operation : ScopeOperation) :
    (∃ name kind, operation = .push name kind) ∨ (∃ count, s.apply operation = popMany count s) ∨
      s.Refills (s.apply operation) := by
  cases operation with
  | push name kind => exact .inl ⟨name, kind, rfl⟩
  | pop =>
    refine .inr (.inl ⟨1, ?_⟩)
    unfold apply popMany pop?
    cases s.locals <;> rfl
  | truncate depth => exact .inr (.inl ⟨_, rfl⟩)
  | reset => exact .inr (.inl ⟨_, rfl⟩)
  | define name symbol => exact .inr (.inr (.of_result fun _ => .define))
  | defineGlobal name symbol => exact .inr (.inr (.of_result fun _ => .defineGlobal))
  | update name change => exact .inr (.inr (.of_result fun _ => .update))
  | removeGlobal name => exact .inr (.inr (.removeGlobal s name))

end Store

/-! ## Courses -/

namespace Course

variable {c : Course} {t : Store} {pushes : List Opening} {o : Opening} {limit : Nat}

theorem record_of_isSome_eq
    (same : (t.scope? o.scope.id).isSome = (c.store.scope? o.scope.id).isSome) :
    record ⟨t, c.store :: c.earlier, pushes⟩ o = c.record o := by
  unfold record lastSeen?
  cases before : c.store.scope? o.scope.id with
  | some scope => simp [same, before]
  | none =>
    -- The scope is looked for in the stores before, and those are the same.
    have gone : t.scope? o.scope.id = none := by simpa [before] using same
    simp [gone, before]

theorem record_of_closed {scope : Scope} (before : c.store.scope? o.scope.id = some scope)
    (gone : t.scope? o.scope.id = none) :
    record ⟨t, c.store :: c.earlier, pushes⟩ o =
      { c.record o with names := scope.symbols.names, closed := true } := by
  simp [record, lastSeen?, gone, before]

/-- A scope that has just been pushed is open. -/
theorem record_of_active (active : (t.scope? o.scope.id).isSome = true) :
    record ⟨t, c.store :: c.earlier, pushes⟩ o =
      ⟨o.scope.id, o.scope.name, o.scope.kind, o.depth, [], false⟩ := by
  simp [record, active]

/-- What is remembered changes like a record does when scopes close. -/
theorem record_popMany (orderly : c.store.Orderly) (count : Nat) :
    record ⟨.popMany count c.store, c.store :: c.earlier, pushes⟩ o =
      (c.record o).closing (c.store.locals.take count) := by
  by_cases closes : ∃ scope ∈ c.store.locals.take count, scope.id = o.scope.id
  · obtain ⟨scope, taken, same⟩ := closes
    have active : scope ∈ c.store.scopes :=
      List.mem_cons_of_mem _ (List.mem_reverse.mpr (List.mem_of_mem_take taken))
    have before := orderly.scope?_eq_some_iff.mpr ⟨active, same⟩
    have gone := Store.scope?_popMany_of_closed orderly taken
    rw [record_of_closed before (same ▸ gone),
      ScopeRecord.closing_of_mem (orderly.distinct_take count) taken same]
  · have other : ∀ scope ∈ c.store.locals.take count, scope.id ≠ o.scope.id :=
      fun scope taken same => closes ⟨scope, taken, same⟩
    rw [record_of_isSome_eq (by rw [Store.scope?_popMany other]),
      ScopeRecord.closing_of_not_mem other]

/-- The history has the latest records of the course, as many as it has to show at least. -/
structure Recorded (limit : Nat) (c : Course) : Prop where
  orderly : c.store.Orderly
  ascending : (c.pushes.map (·.scope.id)).Pairwise (· < ·)
  known : ∀ o ∈ c.pushes, o.scope.id < c.store.nextId
  bounded : c.store.history.limit = limit
  sized : c.store.history.size = c.store.history.newest.length
  latest : c.store.history.newest <+: (c.pushes.map c.record).reverse
  enough : min limit c.pushes.length ≤ c.store.history.newest.length

namespace Recorded

theorem start (limit : Nat) : (Course.start limit).Recorded limit := by
  have history : (Store.empty limit).history = ⟨limit, [⟨0, "global", .global, 0, [], false⟩], 1⟩ := by
    simp [Store.empty, History.empty, History.push]
  refine ⟨.empty limit, List.pairwise_singleton .., ?_, ?_, ?_, ?_, ?_⟩
  · exact List.forall_mem_singleton.mpr Nat.zero_lt_one
  · exact congrArg History.limit history
  · rw [Course.start, history]
    rfl
  · rw [Course.start, history]
    exact List.prefix_refl _
  · rw [Course.start, history]
    exact Nat.min_le_right ..

/-- No two records are of one scope. -/
theorem distinct_newest (recorded : c.Recorded limit) :
    (c.store.history.newest.map (·.id)).Nodup := by
  have distinct : (c.pushes.map (·.scope.id)).Nodup := recorded.ascending.imp Nat.ne_of_lt
  have fewer := recorded.latest.sublist.map (·.id)
  rw [List.map_reverse, List.map_map] at fewer
  exact (List.nodup_reverse.mpr distinct).sublist fewer

theorem push (recorded : c.Recorded limit) (name : String) (kind : ScopeKind) :
    (c.step (.push name kind)).Recorded limit := by
  obtain ⟨orderly, ascending, known, bounded, sized, latest, enough⟩ := recorded
  obtain ⟨kept, shown, many, history⟩ := History.exists_push sized
    ⟨c.store.nextId, name, kind, c.store.depth, [], false⟩
  change (c.store.push name kind).history = _ at history
  let opened : Opening := ⟨⟨c.store.nextId, name, kind, []⟩, c.store.depth⟩
  change Recorded limit ⟨c.store.push name kind, c.store :: c.earlier, c.pushes ++ [opened]⟩
  have unchanged : c.pushes.map (record ⟨c.store.push name kind, c.store :: c.earlier,
      c.pushes ++ [opened]⟩) = c.pushes.map c.record :=
    List.map_congr_left fun o pushed =>
      record_of_isSome_eq (by rw [Store.scope?_push (known o pushed)])
  have active : ((c.store.push name kind).scope? opened.scope.id).isSome = true :=
    Store.isSome_scope?_iff.mpr (by simp [Store.scopes_push, opened])
  refine ⟨orderly.push name kind, ?_, ?_, ?_, ?_, ?_, ?_⟩
  · rw [List.map_append, List.pairwise_append]
    refine ⟨ascending, List.pairwise_singleton .., fun id earlier new newest => ?_⟩
    obtain ⟨o, pushed, rfl⟩ := List.mem_map.mp earlier
    rw [List.mem_singleton.mp newest]
    exact known o pushed
  · intro o pushed
    rcases List.mem_append.mp pushed with old | new
    · exact (known o old).trans (Nat.lt_succ_self _)
    · rw [List.mem_singleton.mp new]
      exact Nat.lt_succ_self _
  · rwa [history]
  · rw [history]
    rfl
  · rw [history, List.map_append, unchanged, List.reverse_append, List.map_singleton,
      record_of_active active]
    exact (List.prefix_cons_inj _).mpr (shown.trans latest)
  · rw [bounded] at many
    rw [history, List.length_append, List.length_singleton]
    change _ ≤ kept.length + 1
    omega

theorem popMany (recorded : c.Recorded limit) (count : Nat) :
    Recorded limit ⟨.popMany count c.store, c.store :: c.earlier, c.pushes⟩ := by
  have distinct := recorded.distinct_newest
  obtain ⟨orderly, ascending, known, bounded, sized, latest, enough⟩ := recorded
  have history := Store.history_popMany count distinct orderly.distinct_locals
  have records : c.pushes.map (record ⟨.popMany count c.store, c.store :: c.earlier, c.pushes⟩) =
      (c.pushes.map c.record).map (·.closing (c.store.locals.take count)) := by
    rw [List.map_map]
    exact List.map_congr_left fun o _ => record_popMany orderly count
  refine ⟨orderly.popMany count, ascending, ?_, ?_, ?_, ?_, ?_⟩
  · rwa [Store.nextId_popMany]
  · rwa [history]
  · rwa [history, List.length_map]
  · rw [history, records, ← List.map_reverse]
    exact latest.map _
  · rwa [history, List.length_map]

theorem refill (recorded : c.Recorded limit) (refills : c.store.Refills t) :
    Recorded limit ⟨t, c.store :: c.earlier, c.pushes⟩ := by
  obtain ⟨orderly, ascending, known, bounded, sized, latest, enough⟩ := recorded
  have records : c.pushes.map (record ⟨t, c.store :: c.earlier, c.pushes⟩) =
      c.pushes.map c.record :=
    List.map_congr_left fun o _ => record_of_isSome_eq (refills.isSome_scope? _)
  refine ⟨orderly.refill refills, ascending, ?_, ?_, ?_, ?_, ?_⟩
  · rwa [refills.nextId]
  · rwa [refills.history]
  · rwa [refills.history]
  · rwa [refills.history, records]
  · rwa [refills.history]

theorem step (recorded : c.Recorded limit) (operation : ScopeOperation) :
    (c.step operation).Recorded limit := by
  by_cases pushes : ∃ name kind, operation = .push name kind
  · obtain ⟨name, kind, rfl⟩ := pushes
    exact recorded.push name kind
  · have next : c.step operation = ⟨c.store.apply operation, c.store :: c.earlier, c.pushes⟩ := by
      cases operation with
      | push name kind => exact absurd ⟨name, kind, rfl⟩ pushes
      | _ => simp [Course.step]
    rw [next]
    rcases Store.apply_eq c.store operation with pushed | ⟨count, closed⟩ | refills
    · exact absurd pushed pushes
    · rw [closed]
      exact recorded.popMany count
    · exact recorded.refill refills

theorem run (limit : Nat) (operations : List ScopeOperation) :
    (Course.run limit operations).Recorded limit := by
  have from_any : ∀ c : Course, c.Recorded limit →
      (operations.foldl Course.step c).Recorded limit := by
    induction operations with
    | nil => exact fun c recorded => recorded
    | cons operation rest ih => exact fun c recorded => ih _ (recorded.step operation)
  exact from_any _ (start limit)

theorem toList_history (recorded : c.Recorded limit) :
    c.store.history.toList = (c.pushes.map c.record).rtake limit := by
  obtain ⟨older, whole⟩ := recorded.latest
  have enough := recorded.enough
  have all : c.pushes.length = c.store.history.newest.length + older.length := by
    simpa using congrArg List.length whole.symm
  rw [History.toList, recorded.bounded, List.rtake_eq_reverse_take_reverse, ← whole,
    List.take_append]
  have none : older.take (limit - c.store.history.newest.length) = [] := by
    rw [List.take_eq_nil_iff, ← List.length_eq_zero_iff]
    omega
  rw [none, List.append_nil]

end Recorded

/-- Whatever is done to a fresh store, the global scope stays at the bottom of the stack, scopes that
were pushed later stand above, no scope binds a name twice, and the history shows the latest pushes,
as many as its limit allows, each with what is to be remembered of it. -/
theorem keeps_latest_pushes (limit : Nat) (operations : List ScopeOperation) :
    ∃ global above, (run limit operations).store.scopes = global :: above ∧
      global.id = 0 ∧ global.name = "global" ∧ global.kind = .global ∧
      ((run limit operations).store.scopes.map Scope.id).Pairwise (· < ·) ∧
      (∀ scope ∈ (run limit operations).store.scopes, scope.symbols.names.Nodup) ∧
      (run limit operations).store.history.toList =
        ((run limit operations).pushes.map (run limit operations).record).rtake limit := by
  have recorded := Recorded.run limit operations
  obtain ⟨id, name, kind⟩ := recorded.orderly.bottom
  exact ⟨_, _, rfl, id, name, kind, recorded.orderly.ascending, recorded.orderly.distinct,
    recorded.toList_history⟩

end Course

end CheckedScript
