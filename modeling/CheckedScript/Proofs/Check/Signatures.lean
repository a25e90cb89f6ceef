import CheckedScript.Proofs.Check.Transaction
import CheckedScript.Proofs.Check.Twins

/-!
# What a check sees of a store

A check runs on the store that holds the values of the session. It sees which scopes are active,
what their names stand for and which types go with them, and nothing of the values of variables and
fields, of the bodies of functions and of the history. So the values make no difference to what it
finds and to what it leaves behind (`checkProgram_of_checksAlike`).
-/

namespace CheckedScript

open Check Checking

/-! ## Symbols and scopes -/

namespace Symbol

variable {found found' : Option Symbol}

theorem Alike.refl (found : Option Symbol) : Alike found found := alike_of_signature_eq rfl

theorem Alike.isSome (alike : Alike found found') : found'.isSome = found.isSome := by
  cases alike <;> rfl

theorem Alike.or (alike : Alike found found') (otherwise : Option Symbol) :
    Alike (found.or otherwise) (found'.or otherwise) := by
  cases alike with
  | none =>
    rw [Option.none_or]
    exact .refl otherwise
  | «variable» type value value' => exact .variable type value value'
  | function name parameters returnType => exact .function name parameters returnType
  | recordType r => exact .recordType r
  | recordInstance type fields => exact .recordInstance type fields

end Symbol

namespace Scope

/-- A check takes the two scopes for the same, whatever the order of their names. -/
structure ChecksAlike (scope other : Scope) : Prop where
  kind : other.kind = scope.kind
  symbols : ∀ name, Symbol.Alike (scope.symbols.find? name) (other.symbols.find? name)

variable {scope other : Scope}

theorem ChecksAlike.contains (alike : scope.ChecksAlike other) (name : String) :
    other.symbols.contains name = scope.symbols.contains name :=
  (alike.symbols name).isSome

theorem ChecksAlike.extend (alike : scope.ChecksAlike other) (added : Bindings Symbol) :
    (scope.extend added).ChecksAlike (other.extend added) := by
  refine ⟨alike.kind, fun name => ?_⟩
  rw [Scope.extend, Scope.extend, Bindings.find?_append, Bindings.find?_append]
  exact (alike.symbols name).or _

/-- The name and the kind of a scope and the signatures of its names, in their order. -/
def signatures (scope : Scope) : String × ScopeKind × Bindings Symbol :=
  (scope.name, scope.kind, scope.symbols.mapValues Symbol.signature)

theorem signatures_extend (same : other.signatures = scope.signatures) (added : Bindings Symbol) :
    (other.extend added).signatures = (scope.extend added).signatures := by
  obtain ⟨name, rest⟩ := Prod.mk.inj same
  obtain ⟨kind, symbols⟩ := Prod.mk.inj rest
  unfold Bindings.mapValues at symbols
  simp only [signatures, extend, Bindings.mapValues, List.map_append, name, kind, symbols]

theorem checksAlike_of_signatures_eq (same : other.signatures = scope.signatures) :
    scope.ChecksAlike other := by
  obtain ⟨-, rest⟩ := Prod.mk.inj same
  obtain ⟨kind, symbols⟩ := Prod.mk.inj rest
  refine ⟨kind, fun name => Symbol.alike_of_signature_eq ?_⟩
  have found := congrArg (Bindings.find? name) symbols
  rwa [Bindings.find?_mapValues, Bindings.find?_mapValues] at found

end Scope

/-! ## Stores -/

namespace Store

/-- A check takes the two stores for the same: the active scopes are of the same kinds, and each
name has the same kind of symbol in them, with the same types. -/
structure ChecksAlike (s t : Store) : Prop where
  global : s.global.ChecksAlike t.global
  locals : List.Forall₂ Scope.ChecksAlike s.locals t.locals

namespace ChecksAlike

variable {s t s' t' : Store}

theorem findLocal? {scopes others : List Scope} (alike : List.Forall₂ Scope.ChecksAlike scopes others)
    (name : String) :
    Option.Rel Scope.ChecksAlike (findLocal? name scopes) (findLocal? name others) := by
  induction alike with
  | nil => exact .none
  | cons innermost _ below =>
    unfold Store.findLocal?
    rw [innermost.contains, innermost.kind]
    split
    · exact .some innermost
    · split
      · exact .none
      · exact below

theorem resolve? (alike : s.ChecksAlike t) (name : String) :
    Option.Rel Scope.ChecksAlike (s.resolve? name) (t.resolve? name) := by
  have locals := ChecksAlike.findLocal? alike.locals name
  unfold Store.resolve?
  generalize Store.findLocal? name s.locals = found at locals ⊢
  generalize Store.findLocal? name t.locals = found' at locals ⊢
  cases locals with
  | some innermost => exact .some innermost
  | none =>
    dsimp only
    rw [alike.global.contains]
    split
    · exact .some alike.global
    · exact .none

theorem looksAlike (alike : s.ChecksAlike t) (names : List String) : s.LooksAlike names t := by
  refine ⟨fun name _ => ?_, fun name _ => ?_⟩
  · have resolved := alike.resolve? name
    unfold Store.lookup?
    generalize s.resolve? name = scope at resolved ⊢
    generalize t.resolve? name = scope' at resolved ⊢
    cases resolved with
    | none => exact .none
    | some same => exact same.symbols name
  · have resolved := alike.resolve? name
    unfold isErrorAccessor resolvingKind?
    generalize s.resolve? name = scope at resolved ⊢
    generalize t.resolve? name = scope' at resolved ⊢
    cases resolved with
    | none => rfl
    | some same => rw [Option.map_some, Option.map_some, same.kind]

theorem depth (alike : s.ChecksAlike t) : t.depth = s.depth := by
  rw [Store.depth, Store.depth, alike.locals.length_eq]

theorem contains_current (alike : s.ChecksAlike t) (name : String) :
    t.current.symbols.contains name = s.current.symbols.contains name := by
  obtain ⟨global, locals, nextId, history⟩ := s
  obtain ⟨global', locals', nextId', history'⟩ := t
  obtain ⟨outermost, inner⟩ := alike
  cases inner with
  | nil => exact outermost.contains name
  | cons innermost _ => exact innermost.contains name

theorem push (alike : s.ChecksAlike t) (name : String) (kind : ScopeKind) :
    (s.push name kind).ChecksAlike (t.push name kind) :=
  ⟨alike.global, .cons ⟨rfl, fun _ => .none⟩ alike.locals⟩

theorem extend (alike : s.ChecksAlike t) (added : Bindings Symbol) :
    (s.extend added).ChecksAlike (t.extend added) := by
  obtain ⟨global, locals, nextId, history⟩ := s
  obtain ⟨global', locals', nextId', history'⟩ := t
  obtain ⟨outermost, inner⟩ := alike
  cases inner with
  | nil => exact ⟨outermost.extend added, .nil⟩
  | cons innermost below => exact ⟨outermost, .cons (innermost.extend added) below⟩

theorem truncate (alike : s.ChecksAlike t) (depth : Nat) :
    (s.truncate depth).ChecksAlike (t.truncate depth) := by
  refine ⟨?_, ?_⟩
  · rw [truncate_global, truncate_global]
    exact alike.global
  · rw [truncate_locals, truncate_locals, alike.depth]
    exact List.forall₂_drop _ alike.locals

theorem of_sameScopes (alike : s.ChecksAlike t) (scopes : s.SameScopes s')
    (scopes' : t.SameScopes t') : s'.ChecksAlike t' := by
  refine ⟨?_, ?_⟩
  · rw [scopes.global, scopes'.global]
    exact alike.global
  · rw [scopes.locals, scopes'.locals]
    exact alike.locals

theorem congruence : Congruence ChecksAlike where
  looksAlike := looksAlike
  global alike := alike.global.symbols
  depth := depth
  contains_current := contains_current
  push := push
  extend := extend
  truncate := truncate
  of_sameScopes := of_sameScopes

end ChecksAlike

/-- The same scopes are active, and they bind the same names to symbols of the same signatures, in
the same order. -/
structure SameSignatures (s t : Store) : Prop where
  global : t.global.signatures = s.global.signatures
  locals : t.locals.map Scope.signatures = s.locals.map Scope.signatures

namespace SameSignatures

variable {s t s' t' : Store}

theorem checksAlike (same : s.SameSignatures t) : s.ChecksAlike t := by
  have locals := List.forall₂_eq_eq_eq.symm ▸ same.locals
  rw [List.forall₂_map_left_iff, List.forall₂_map_right_iff] at locals
  exact ⟨Scope.checksAlike_of_signatures_eq same.global,
    locals.flip.imp fun _ _ => Scope.checksAlike_of_signatures_eq⟩

theorem push (same : s.SameSignatures t) (name : String) (kind : ScopeKind) :
    (s.push name kind).SameSignatures (t.push name kind) := by
  refine ⟨same.global, ?_⟩
  rw [push_locals, push_locals, List.map_cons, List.map_cons, same.locals]
  rfl

theorem extend (same : s.SameSignatures t) (added : Bindings Symbol) :
    (s.extend added).SameSignatures (t.extend added) := by
  obtain ⟨global, locals, nextId, history⟩ := s
  obtain ⟨global', locals', nextId', history'⟩ := t
  obtain ⟨outermost, inner⟩ := same
  cases locals with
  | nil =>
    cases List.map_eq_nil_iff.mp inner
    exact ⟨Scope.signatures_extend outermost added, rfl⟩
  | cons scope outer =>
    obtain ⟨scope', outer', rfl, innermost, below⟩ := List.map_eq_cons_iff.mp inner
    refine ⟨outermost, ?_⟩
    simp only [Store.extend, List.map_cons, below, Scope.signatures_extend innermost]

theorem truncate (same : s.SameSignatures t) (depth : Nat) :
    (s.truncate depth).SameSignatures (t.truncate depth) := by
  refine ⟨?_, ?_⟩
  · rw [truncate_global, truncate_global]
    exact same.global
  · rw [truncate_locals, truncate_locals, same.checksAlike.depth, List.map_drop, List.map_drop,
      same.locals]

theorem of_sameScopes (same : s.SameSignatures t) (scopes : s.SameScopes s')
    (scopes' : t.SameScopes t') : s'.SameSignatures t' := by
  refine ⟨?_, ?_⟩
  · rw [scopes.global, scopes'.global]
    exact same.global
  · rw [scopes.locals, scopes'.locals]
    exact same.locals

theorem congruence : Congruence SameSignatures where
  looksAlike same := same.checksAlike.looksAlike
  global same := same.checksAlike.global.symbols
  depth same := same.checksAlike.depth
  contains_current same := same.checksAlike.contains_current
  push := push
  extend := extend
  truncate := truncate
  of_sameScopes := of_sameScopes

end SameSignatures

end Store

/-! ## Programs -/

section

variable {program : Program} {store : Store}

/-- Inside an open scope nothing is removed after a check, for nothing was declared globally. -/
theorem checkProgram_store_of_nested (nested : store.locals ≠ []) :
    (checkProgram program store).store =
      (checkStatements .topLevel program.statements (.start store)).store.truncate store.depth := by
  obtain ⟨added, grown⟩ := continues_checkStatements .topLevel program.statements (.start store)
  have inner : (Checking.start store).store.isGlobal = false := List.isEmpty_eq_false_iff.mpr nested
  have globals := grown.globals
  rw [inner, if_neg Bool.false_ne_true, List.append_nil] at globals
  unfold checkProgram
  dsimp only
  rw [globals]
  split <;> rfl

theorem ids_extend (s : Store) (added : Bindings Symbol) :
    (s.extend added).scopes.map (·.id) = s.scopes.map (·.id) := by
  obtain ⟨global, locals, nextId, history⟩ := s
  cases locals <;> simp [Store.extend, Store.scopes, Scope.extend]

theorem ids_removeGlobals (s : Store) (globals : List DeclaredGlobal) :
    (removeGlobals s globals).scopes.map (·.id) = s.scopes.map (·.id) := by
  unfold removeGlobals
  induction globals generalizing s with
  | nil => rfl
  | cons g rest ih => exact ih _

/-- A check leaves the same scopes open as before. -/
theorem ids_checkProgram (program : Program) (store : Store) :
    (checkProgram program store).store.scopes.map (·.id) = store.scopes.map (·.id) := by
  obtain ⟨added, grown⟩ := continues_checkStatements .topLevel program.statements (.start store)
  obtain ⟨globals, left⟩ : ∃ globals, (checkProgram program store).store = removeGlobals
      ((checkStatements .topLevel program.statements (.start store)).store.truncate store.depth)
      globals := by
    unfold checkProgram
    dsimp only
    split <;> exact ⟨_, rfl⟩
  have depth : (checkStatements .topLevel program.statements (.start store)).store.depth =
      store.depth := grown.depth
  have inner : store.depth - max store.depth 1 = 0 := by omega
  rw [left, ids_removeGlobals, ← ids_extend store added.bindings, Store.scopes, Store.scopes,
    Store.truncate_global, Store.truncate_locals, depth, inner, List.drop_zero, grown.scopes.global,
    grown.scopes.locals]
  rfl

end

/-- Against related stores, the check of a program finds the same and leaves related stores. -/
theorem Store.Congruence.checkProgram {R : Store → Store → Prop} (congruent : Store.Congruence R)
    (program : Program) {s t : Store} (related : R s t) :
    (checkProgram program t).diagnostics = (checkProgram program s).diagnostics ∧
      R (checkProgram program s).store (checkProgram program t).store := by
  have twin : Twin R [] [] (.start s) (.start t) := ⟨congruent, related, [], rfl, rfl⟩
  have walked := twin_checkStatements program.statements (c := .topLevel) twin
  have diagnostics : (CheckedScript.checkProgram program t).diagnostics =
      (CheckedScript.checkProgram program s).diagnostics := by
    obtain ⟨found, left, right⟩ := walked.found
    rw [diagnostics_checkProgram, diagnostics_checkProgram, left, right]
  refine ⟨diagnostics, ?_⟩
  have verdict : (CheckedScript.checkProgram program t).passed =
      (CheckedScript.checkProgram program s).passed := by
    rw [CheckResult.passed, CheckResult.passed, diagnostics]
  have level : t.locals = [] ↔ s.locals = [] := by
    have depths := congruent.depth related
    rw [Store.depth, Store.depth, Nat.add_right_cancel_iff] at depths
    rw [← List.length_eq_zero_iff, ← List.length_eq_zero_iff, depths]
  by_cases top : s.locals = []
  · cases passed : (CheckedScript.checkProgram program s).passed with
    | false =>
      exact congruent.of_sameScopes related (sameScopes_checkProgram_of_failed top passed)
        (sameScopes_checkProgram_of_failed (level.mpr top) (verdict.trans passed))
    | true =>
      exact congruent.of_sameScopes (congruent.extend related program.registrations)
        (scopes_checkProgram_of_passed top passed).1
        (scopes_checkProgram_of_passed (level.mpr top) (verdict.trans passed)).1
  · rw [checkProgram_store_of_nested top, checkProgram_store_of_nested (mt level.mp top),
      congruent.depth related]
    exact congruent.truncate walked.store _

/-- A check depends on declarations alone. Two stores that it takes for the same may hold any values
and function bodies; the verdict and the findings are the same, and so is what it sees of the stores
that are left. Names that stood in one order before do so afterwards, and no scope is exchanged. -/
theorem checkProgram_of_checksAlike (program : Program) {s t : Store} (alike : s.ChecksAlike t) :
    (checkProgram program t).passed = (checkProgram program s).passed ∧
    (checkProgram program t).diagnostics = (checkProgram program s).diagnostics ∧
    (checkProgram program s).store.ChecksAlike (checkProgram program t).store ∧
    (s.SameSignatures t →
      (checkProgram program s).store.SameSignatures (checkProgram program t).store) ∧
    (checkProgram program s).store.scopes.map (·.id) = s.scopes.map (·.id) ∧
    (checkProgram program t).store.scopes.map (·.id) = t.scopes.map (·.id) := by
  obtain ⟨diagnostics, left⟩ := Store.ChecksAlike.congruence.checkProgram program alike
  refine ⟨?_, diagnostics, left, fun same => ?_, ids_checkProgram .., ids_checkProgram ..⟩
  · rw [CheckResult.passed, CheckResult.passed, diagnostics]
  · exact (Store.SameSignatures.congruence.checkProgram program same).2

/-- A session with a variable and a function that returns its parameter. -/
def identitySession : Store :=
  (Store.empty 0).registerBuiltins.extend [
    ("x", .variable .int (.int 1)),
    ("f", .function ⟨"f", [⟨"n", .int⟩], .int,
      .mk [.return (some (.identifier ⟨"n", default⟩ default)) default] default⟩)]

/-- A session with the same declarations, where the function recurses without an end. -/
def divergingSession : Store :=
  (Store.empty 7).registerBuiltins.extend [
    ("x", .variable .int (.int 2)),
    ("f", .function ⟨"f", [⟨"n", .int⟩], .int,
      .mk [.return (some (.call ⟨"f", default⟩ [.identifier ⟨"n", default⟩ default] default))
        default] default⟩)]

/-- Reads the variable, calls the function and assigns a float to the variable. -/
def feedsBack : Program where
  statements := [
    .variable ⟨.int, false, default⟩ ⟨"y", default⟩
      (some (.call ⟨"f", default⟩ [.identifier ⟨"x", default⟩ default] default)) default,
    .assignment ⟨"x", default⟩ (.float 0.5 default) default]
  span := default

theorem checkProgram_feedsBack :
    identitySession.ChecksAlike divergingSession ∧
    (checkProgram feedsBack divergingSession).diagnostics =
      (checkProgram feedsBack identitySession).diagnostics ∧
    (checkProgram feedsBack identitySession).diagnostics.length = 1 := by
  have same : identitySession.SameSignatures divergingSession := ⟨rfl, rfl⟩
  obtain ⟨-, diagnostics, -⟩ := checkProgram_of_checksAlike feedsBack same.checksAlike
  exact ⟨same.checksAlike, diagnostics, by decide +kernel⟩

end CheckedScript
