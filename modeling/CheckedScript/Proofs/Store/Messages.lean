import CheckedScript.Check.Context
import CheckedScript.Proofs.Store.Outline

/-!
# Where messages are held

The global scope and the scopes of recover blocks bind the error accessor from the start, so nothing
can be declared under that name there, and the name means the caught message exactly where it
resolves to one of them. An operation on a store leaves all messages as they are, except for an
update of the accessor itself.
-/

namespace CheckedScript

/-- A scope of this kind holds a message. -/
def ScopeKind.holdsMessage : ScopeKind → Bool
  | .global | .recovery => true
  | _ => false

namespace Scope

/-- A scope that is to hold a message binds the error accessor as a text variable. -/
def IsShielded (scope : Scope) : Prop :=
  scope.kind.holdsMessage = true →
    ∃ value, scope.symbols.find? errorAccessor = some (.variable .str value)

/-- The kind of a scope and the message that it holds. -/
def held (scope : Scope) : ScopeKind × Option Symbol :=
  (scope.kind, if scope.kind.holdsMessage then scope.symbols.find? errorAccessor else none)

/-- The kind of a scope, and whether it binds the error accessor to anything. -/
def mark (scope : Scope) : ScopeKind × Bool :=
  (scope.kind, scope.symbols.contains errorAccessor)

variable {scope other : Scope}

theorem kind_of_held_eq (same : scope.held = other.held) : scope.kind = other.kind :=
  congrArg Prod.fst same

theorem find?_of_held_eq (same : scope.held = other.held)
    (holds : other.kind.holdsMessage = true) :
    scope.symbols.find? errorAccessor = other.symbols.find? errorAccessor := by
  have messages := congrArg Prod.snd same
  simpa [held, kind_of_held_eq same, holds] using messages

theorem IsShielded.of_held_eq (shielded : other.IsShielded) (same : scope.held = other.held) :
    scope.IsShielded := by
  intro holds
  rw [kind_of_held_eq same] at holds
  rw [find?_of_held_eq same holds]
  exact shielded holds

theorem IsShielded.contains (shielded : scope.IsShielded)
    (holds : scope.kind.holdsMessage = true) :
    scope.symbols.contains errorAccessor = true := by
  obtain ⟨value, bound⟩ := shielded holds
  exact Option.isSome_of_eq_some bound

/-- Names that are added after the message do not hide it. -/
theorem held_extend (shielded : scope.IsShielded) (added : Bindings Symbol) :
    (scope.extend added).held = scope.held := by
  cases holds : scope.kind.holdsMessage with
  | false => simp [held, extend, holds]
  | true =>
    obtain ⟨value, bound⟩ := shielded holds
    simp [held, extend, holds, Bindings.find?_append, bound]

theorem held_modify {name : String} {f : Symbol → Symbol}
    (apart : name = errorAccessor → scope.symbols.contains name = true →
      scope.kind.holdsMessage = false) :
    ({ scope with symbols := scope.symbols.modify name f } : Scope).held = scope.held := by
  cases holds : scope.kind.holdsMessage with
  | false => simp [held, holds]
  | true =>
    suffices kept : (scope.symbols.modify name f).find? errorAccessor =
        scope.symbols.find? errorAccessor by simp [held, holds, kept]
    by_cases accessor : name = errorAccessor
    · -- The scope does not bind the name, so there is nothing to change.
      have unbound : scope.symbols.find? name = none := by
        cases bound : scope.symbols.find? name with
        | none => rfl
        | some symbol =>
          cases (apart accessor (Option.isSome_of_eq_some bound)).symm.trans holds
      subst accessor
      rw [Bindings.find?_modify_self, unbound]
      rfl
    · exact Bindings.find?_modify_of_ne (Ne.symm accessor) f _

theorem mark_of_outline_eq (same : scope.outline = other.outline) : scope.mark = other.mark := by
  rw [mark, mark, kind_of_outline_eq same, contains_of_outline_eq same]

theorem mark_extend_of_eq (same : scope.mark = other.mark) {added more : Bindings Symbol}
    (named : errorAccessor ∈ added.names ↔ errorAccessor ∈ more.names) :
    (scope.extend added).mark = (other.extend more).mark := by
  obtain ⟨kind, bound⟩ := Prod.mk.inj same
  refine Prod.ext kind ?_
  rw [Bool.eq_iff_iff, Bindings.contains_eq_true_iff, Bindings.contains_eq_true_iff] at bound
  rw [mark, mark, Bool.eq_iff_iff, Bindings.contains_eq_true_iff, Bindings.contains_eq_true_iff,
    mem_names_extend_iff, mem_names_extend_iff, bound, named]

end Scope

namespace Store

/-- Every scope that is to hold a message does. -/
def Shielded (s : Store) : Prop := ∀ scope ∈ s.global :: s.locals, scope.IsShielded

/-- The same kinds of scopes are active, and they hold the same messages. -/
structure SameMessages (s t : Store) : Prop where
  global : t.global.held = s.global.held
  locals : t.locals.map Scope.held = s.locals.map Scope.held

namespace SameMessages

variable {s t u : Store}

@[refl] theorem refl (s : Store) : s.SameMessages s := ⟨rfl, rfl⟩

theorem trans (first : s.SameMessages t) (second : t.SameMessages u) : s.SameMessages u :=
  ⟨second.global.trans first.global, second.locals.trans first.locals⟩

theorem shielded (same : s.SameMessages t) (shielded : s.Shielded) : t.Shielded := by
  intro scope active
  rcases List.mem_cons.mp active with rfl | inner
  · exact (shielded _ List.mem_cons_self).of_held_eq same.global
  · have listed : scope.held ∈ s.locals.map Scope.held := same.locals ▸ List.mem_map_of_mem inner
    obtain ⟨before, active', eq⟩ := List.mem_map.mp listed
    exact (shielded before (List.mem_cons_of_mem _ active')).of_held_eq eq.symm

/-- Closing the scope that was opened last. -/
theorem close {opened : Store} {innermost : Scope} (same : opened.SameMessages t)
    (global : opened.global = s.global) (locals : opened.locals = innermost :: s.locals) :
    s.SameMessages (t.truncate s.depth) := by
  have listed := same.locals
  rw [locals, List.map_cons] at listed
  obtain ⟨scope, outer, inner, -, outer'⟩ := List.map_eq_cons_iff.mp listed
  have depth : s.depth = outer.length + 1 := by
    have lengths := congrArg List.length outer'
    rw [List.length_map, List.length_map] at lengths
    rw [Store.depth, lengths]
  refine ⟨?_, ?_⟩
  · rw [truncate_global, same.global, global]
  · rw [truncate_locals_of_opened inner depth, outer']

end SameMessages

namespace Shielded

variable {s t : Store}

theorem push (shielded : s.Shielded) (name : String) {kind : ScopeKind}
    (ordinary : kind.holdsMessage = false) : (s.push name kind).Shielded := by
  intro scope active
  rcases List.mem_cons.mp active with rfl | inner
  · exact shielded _ List.mem_cons_self
  · rcases List.mem_cons.mp inner with rfl | outer
    · intro holds
      cases ordinary.symm.trans holds
    · exact shielded scope (List.mem_cons_of_mem _ outer)

/-- A recover block gets a scope that holds its message. -/
theorem recover (shielded : s.Shielded) (name : String) (value : Value) :
    ((s.push name .recovery).extend [(errorAccessor, .variable .str value)]).Shielded := by
  intro scope active
  rcases List.mem_cons.mp active with rfl | inner
  · exact shielded _ List.mem_cons_self
  · rcases List.mem_cons.mp inner with rfl | outer
    · exact fun _ => ⟨value, rfl⟩
    · exact shielded scope (List.mem_cons_of_mem _ outer)

/-- Whatever is declared leaves the messages as they are. -/
theorem extend (shielded : s.Shielded) (added : Bindings Symbol) :
    s.SameMessages (s.extend added) := by
  obtain ⟨global, locals, nextId, history⟩ := s
  cases locals with
  | nil => exact ⟨Scope.held_extend (shielded global List.mem_cons_self) added, rfl⟩
  | cons scope outer =>
    have innermost := shielded scope (List.mem_cons_of_mem _ List.mem_cons_self)
    refine ⟨rfl, ?_⟩
    simp only [Store.extend, List.map_cons, Scope.held_extend innermost added]

end Shielded

/-- The error accessor means the caught message where it resolves to a scope that holds one. -/
theorem isErrorAccessor_iff {s : Store} {name : String} :
    s.isErrorAccessor name = true ↔
      name = errorAccessor ∧ ∃ scope, s.resolve? name = some scope ∧
        scope.kind.holdsMessage = true := by
  unfold isErrorAccessor resolvingKind?
  rw [Bool.and_eq_true, beq_iff_eq]
  refine and_congr_right fun _ => ?_
  cases s.resolve? name with
  | none => simp
  | some scope => cases kind : scope.kind <;> simp [kind, ScopeKind.holdsMessage]

/-- What the error accessor means is decided by the outline of the store. -/
theorem SameOutline.isErrorAccessor {s t : Store} (same : s.SameOutline t) (name : String) :
    t.isErrorAccessor name = s.isErrorAccessor name := by
  have kinds : t.resolvingKind? name = s.resolvingKind? name := by
    have outlines := congrArg (Option.map Prod.fst) (same.resolve? name)
    rwa [Option.map_map, Option.map_map] at outlines
  unfold Store.isErrorAccessor
  rw [kinds]

theorem held_modifyLocal {name : String} {f : Symbol → Symbol} {scopes changed : List Scope}
    (apart : ∀ scope, findLocal? name scopes = some scope → name = errorAccessor →
      scope.kind.holdsMessage = false)
    (modified : modifyLocal name f scopes = some changed) :
    changed.map Scope.held = scopes.map Scope.held := by
  induction scopes generalizing changed with
  | nil => simp [modifyLocal] at modified
  | cons scope outer ih =>
    unfold modifyLocal at modified
    split at modified
    · next bound =>
      cases modified
      have here : findLocal? name (scope :: outer) = some scope := by simp [findLocal?, bound]
      rw [List.map_cons, List.map_cons, Scope.held_modify fun accessor _ => apart scope here accessor]
    · next free =>
      split at modified
      · cases modified
      · next inside =>
        obtain ⟨below, modified', rfl⟩ := Option.map_eq_some_iff.mp modified
        have passed : findLocal? name (scope :: outer) = findLocal? name outer := by
          simp [findLocal?, free, inside]
        rw [List.map_cons, List.map_cons, ih (fun scope found => apart scope (passed ▸ found))
          modified']

/-- Changing anything but a message. -/
theorem sameMessages_modify {s : Store} {name : String} {f : Symbol → Symbol}
    (other : s.isErrorAccessor name = false) : s.SameMessages (s.modify name f) := by
  have apart : ∀ scope, s.resolve? name = some scope → name = errorAccessor →
      scope.kind.holdsMessage = false := by
    intro scope resolved accessor
    rw [← Bool.not_eq_true] at other ⊢
    exact fun holds => other (isErrorAccessor_iff.mpr ⟨accessor, scope, resolved, holds⟩)
  unfold Store.modify
  cases modified : modifyLocal name f s.locals with
  | some changed =>
    refine ⟨rfl, held_modifyLocal (fun scope inner accessor => ?_) modified⟩
    exact apart scope (by simp [Store.resolve?, inner]) accessor
  | none =>
    have outside := modifyLocal_eq_none_iff.mp modified
    refine ⟨Scope.held_modify fun accessor bound => ?_, rfl⟩
    exact apart s.global (by simp [Store.resolve?, outside, bound]) accessor

theorem sameMessages_update {s t : Store} {name : String} {change : SymbolUpdate}
    (other : s.isErrorAccessor name = false) (updated : s.update name change = .ok t) :
    s.SameMessages t := by
  obtain ⟨symbol, changed, -, rfl, -⟩ := update_eq_ok updated
  exact sameMessages_modify other

/-- A message is no record, so it has no field that could be changed. -/
theorem Shielded.isErrorAccessor_of_field {s t : Store} (shielded : s.Shielded)
    {name field : String} {value : Value} (updated : s.update name (.field field value) = .ok t) :
    s.isErrorAccessor name = false := by
  obtain ⟨symbol, changed, found, -, ⟨_, _, _, -, ⟨⟩, -⟩ | ⟨r, _, _, rfl, -, -⟩⟩ :=
    update_eq_ok updated
  rw [← Bool.not_eq_true, isErrorAccessor_iff]
  rintro ⟨rfl, scope, resolved, holds⟩
  obtain ⟨held, bound⟩ := shielded scope (mem_of_resolve?_eq_some resolved) holds
  rw [Store.lookup?, resolved, Option.bind_some, bound] at found
  cases found

/-! ## What is visible -/

/-- The scopes in which a name is looked up, by their marks. -/
def marks : List Scope → List (ScopeKind × Bool)
  | [] => []
  | scope :: outer => scope.mark :: if scope.kind = .function then [] else marks outer

/-- The message of the innermost recover block around a place in a function. -/
def heldMessage? : List Scope → Option Symbol
  | [] => none
  | scope :: outer =>
    if scope.kind = .recovery then scope.symbols.find? errorAccessor
    else if scope.kind = .function then none
    else heldMessage? outer

/-- The marks tell to what kind of scope the error accessor resolves. -/
theorem kind_findLocal?_errorAccessor (scopes : List Scope) :
    (findLocal? errorAccessor scopes).map (·.kind) =
      ((marks scopes).find? (·.2)).map Prod.fst := by
  induction scopes with
  | nil => rfl
  | cons scope outer ih =>
    unfold findLocal? marks
    cases bound : scope.symbols.contains errorAccessor with
    | true => simp [Scope.mark, bound]
    | false =>
      by_cases function : scope.kind = .function
      · simp [Scope.mark, bound, function]
      · simpa [Scope.mark, bound, function] using ih

theorem marks_of_outlines {scopes others : List Scope}
    (same : scopes.map Scope.outline = others.map Scope.outline) : marks scopes = marks others := by
  induction scopes generalizing others with
  | nil => rw [List.map_eq_nil_iff.mp same.symm]
  | cons scope outer ih =>
    obtain ⟨other, rest, rfl, outline, below⟩ := List.map_eq_cons_iff.mp same.symm
    unfold marks
    rw [Scope.mark_of_outline_eq outline.symm, ← Scope.kind_of_outline_eq outline, ih below.symm]

theorem marks_extend_of_eq {s t : Store} (same : marks s.locals = marks t.locals)
    {added more : Bindings Symbol} (named : errorAccessor ∈ added.names ↔ errorAccessor ∈ more.names) :
    marks (s.extend added).locals = marks (t.extend more).locals := by
  obtain ⟨global, locals, nextId, history⟩ := s
  obtain ⟨global', locals', nextId', history'⟩ := t
  cases locals <;> cases locals'
  · rfl
  · cases same
  · cases same
  · obtain ⟨innermost, below⟩ := List.cons.inj same
    have extended := Scope.mark_extend_of_eq innermost named
    rw [Store.extend, Store.extend, marks, marks, extended, Scope.extend_kind, Scope.extend_kind,
      below]

theorem marks_push {s t : Store} (same : marks s.locals = marks t.locals) (name : String)
    (kind : ScopeKind) : marks (s.push name kind).locals = marks (t.push name kind).locals := by
  simp [marks, Scope.mark, same]

theorem eq_nil_of_marks {scopes : List Scope} (same : marks scopes = marks []) : scopes = [] := by
  cases scopes with
  | nil => rfl
  | cons scope outer => cases same

theorem kind_findLocal?_of_marks {scopes others : List Scope} (same : marks scopes = marks others)
    {scope : Scope} (found : findLocal? errorAccessor scopes = some scope) :
    ∃ other, findLocal? errorAccessor others = some other ∧ other.kind = scope.kind := by
  have kinds := kind_findLocal?_errorAccessor others
  rw [← same, ← kind_findLocal?_errorAccessor, found] at kinds
  exact Option.map_eq_some_iff.mp kinds

/-- A name that is bound and does not mean a message does not mean one either where the same kinds of
scopes are visible. -/
theorem isErrorAccessor_eq_false_of_marks {s t : Store} (same : marks t.locals = marks s.locals)
    (kind : s.global.kind = .global) {name : String} (bound : (s.lookup? name).isSome = true)
    (other : s.isErrorAccessor name = false) : t.isErrorAccessor name = false := by
  rw [← Bool.not_eq_true] at other ⊢
  intro accessor
  obtain ⟨rfl, scope, resolved, holds⟩ := isErrorAccessor_iff.mp accessor
  refine other (isErrorAccessor_iff.mpr ⟨rfl, ?_⟩)
  cases inner : findLocal? errorAccessor s.locals with
  | some found =>
    obtain ⟨scope', inner', kinds⟩ := kind_findLocal?_of_marks same.symm inner
    rw [Store.resolve?, inner'] at resolved
    cases resolved
    exact ⟨found, by simp [Store.resolve?, inner], kinds ▸ holds⟩
  | none =>
    have global := contains_global_of_lookup? bound inner
    exact ⟨s.global, by simp [Store.resolve?, inner, global], by rw [kind]; rfl⟩

theorem heldMessage?_push (s : Store) (name : String) {kind : ScopeKind}
    (ordinary : kind ≠ .recovery) (inside : kind ≠ .function) :
    heldMessage? (s.push name kind).locals = heldMessage? s.locals := by
  simp [heldMessage?, ordinary, inside]

theorem heldMessage?_of_held {scopes others : List Scope}
    (same : scopes.map Scope.held = others.map Scope.held) :
    heldMessage? scopes = heldMessage? others := by
  induction scopes generalizing others with
  | nil => rw [List.map_eq_nil_iff.mp same.symm]
  | cons scope outer ih =>
    obtain ⟨other, rest, rfl, here, below⟩ := List.map_eq_cons_iff.mp same.symm
    unfold heldMessage?
    rw [Scope.kind_of_held_eq here, ih below.symm]
    split
    · next recovery =>
      exact (Scope.find?_of_held_eq here (by rw [recovery]; rfl)).symm
    · rfl

/-- Where the error accessor resolves to the scope of a recover block, that is the innermost one: no
recover block lacks a message. -/
theorem find?_of_findLocal? {scopes : List Scope} {scope : Scope}
    (shielded : ∀ scope ∈ scopes, scope.IsShielded)
    (found : findLocal? errorAccessor scopes = some scope) (recovery : scope.kind = .recovery) :
    scope.symbols.find? errorAccessor = heldMessage? scopes := by
  induction scopes with
  | nil => cases found
  | cons first outer ih =>
    unfold findLocal? at found
    unfold heldMessage?
    split at found
    · cases found
      rw [if_pos recovery]
    · next free =>
      have ordinary : first.kind ≠ .recovery := by
        intro recovers
        refine free ((shielded first List.mem_cons_self).contains ?_)
        rw [recovers]
        rfl
      rw [if_neg ordinary]
      split at found
      · cases found
      · next inside =>
        rw [if_neg inside]
        exact ih (fun scope later => shielded scope (List.mem_cons_of_mem _ later)) found

end Store

end CheckedScript
