import CheckedScript.Proofs.Check.FreeNames

/-!
# What a check depends on

A check looks at the kinds of the active scopes and at the signatures of names, and of the global
names it looks at those only that are free in the part that it checks. So a part that is checked
without an error against one store is checked without an error against every store that declares its
free names alike.
-/

namespace CheckedScript

namespace Symbol

/-- What a check sees of a symbol: what it declares, without the body of a function. -/
def signature : Symbol → Symbol
  | function f => .function { f with body := .mk [] default }
  | symbol => symbol.declaration

theorem signature_declaration (symbol : Symbol) : symbol.declaration.signature = symbol.signature := by
  cases symbol with
  | recordInstance r => simp [signature, declaration, Bindings.mapValues]
  | _ => rfl

/-- Two results of looking a name up that a check takes for the same. -/
inductive Alike : Option Symbol → Option Symbol → Prop
  | none : Alike none none
  | variable (type : Ty) (value value' : Value) :
      Alike (some (.variable type value)) (some (.variable type value'))
  | function {f f' : FunctionSymbol} (name : f'.name = f.name)
      (parameters : f'.parameters.map (·.type) = f.parameters.map (·.type))
      (returnType : f'.returnType = f.returnType) :
      Alike (some (.function f)) (some (.function f'))
  | recordType (r : RecordType) : Alike (some (.recordType r)) (some (.recordType r))
  | recordInstance {r r' : RecordInstance} (type : r'.recordType = r.recordType)
      (fields : ∀ field, (r'.fields.find? field).map (·.type) =
        (r.fields.find? field).map (·.type)) :
      Alike (some (.recordInstance r)) (some (.recordInstance r'))

theorem alike_of_signature_eq {found found' : Option Symbol}
    (same : found'.map signature = found.map signature) : Alike found found' := by
  cases found with
  | none =>
    rw [Option.map_eq_none_iff.mp same]
    exact .none
  | some symbol =>
    obtain ⟨symbol', rfl, seen⟩ := Option.map_eq_some_iff.mp same
    cases symbol <;> cases symbol' <;> simp only [signature, declaration, reduceCtorEq] at seen
    case «variable».variable type value type' value' =>
      obtain ⟨rfl, -⟩ := Symbol.variable.inj seen
      exact .variable _ value value'
    case function.function f f' =>
      obtain ⟨name, parameters, returnType, -⟩ := FunctionSymbol.mk.inj (Symbol.function.inj seen)
      exact .function name (congrArg _ parameters) returnType
    case recordType.recordType r r' =>
      obtain rfl := Symbol.recordType.inj seen
      exact .recordType _
    case recordInstance.recordInstance r r' =>
      obtain ⟨type, fields⟩ := RecordInstance.mk.inj (Symbol.recordInstance.inj seen)
      refine .recordInstance type fun field => ?_
      have typed := congrArg (fun bs => (Bindings.find? field bs).map FieldSlot.type) fields
      simpa [Bindings.find?_mapValues, Function.comp_def] using typed

theorem map_signature_of_declaration_eq {found found' : Option Symbol}
    (same : found'.map declaration = found.map declaration) :
    found'.map signature = found.map signature := by
  have seen := congrArg (Option.map signature) same
  simpa [Function.comp_def, signature_declaration] using seen

theorem alike_of_declaration_eq {found found' : Option Symbol}
    (same : found'.map declaration = found.map declaration) : Alike found found' :=
  alike_of_signature_eq (map_signature_of_declaration_eq same)

end Symbol

namespace Store

/-- A check that asks for these names alone takes the two stores for the same. -/
structure LooksAlike (names : List String) (s t : Store) : Prop where
  alike : ∀ name ∈ names, Symbol.Alike (s.lookup? name) (t.lookup? name)
  isErrorAccessor : ∀ name ∈ names, t.isErrorAccessor name = s.isErrorAccessor name

theorem LooksAlike.mono {names more : List String} {s t : Store} (agree : s.LooksAlike names t)
    (fewer : ∀ name ∈ more, name ∈ names) : s.LooksAlike more t :=
  ⟨fun name listed => agree.alike name (fewer name listed),
    fun name listed => agree.isErrorAccessor name (fewer name listed)⟩

/-- The local scopes declare the same, and so does the global scope for each of these names that no
local scope binds. -/
structure Matches (names : List String) (s t : Store) : Prop where
  locals : t.locals.map Scope.outline = s.locals.map Scope.outline
  kind : t.global.kind = s.global.kind
  global : ∀ name ∈ names, findLocal? name s.locals = none →
    (t.global.symbols.find? name).map Symbol.declaration =
      (s.global.symbols.find? name).map Symbol.declaration

namespace Matches

variable {names more : List String} {s t s' t' : Store} {name : String}

theorem mono (agree : s.Matches names t) (fewer : ∀ name ∈ more, name ∈ names) :
    s.Matches more t :=
  ⟨agree.locals, agree.kind, fun name listed => agree.global name (fewer name listed)⟩

theorem of_sameScopes (agree : s.Matches names t) (same : s.SameScopes s') (same' : t.SameScopes t') :
    s'.Matches names t' := by
  refine ⟨?_, ?_, ?_⟩
  · rw [same.locals, same'.locals]
    exact agree.locals
  · rw [same.global, same'.global]
    exact agree.kind
  · rw [same.locals, same.global, same'.global]
    exact agree.global

/-- A name is looked up alike. -/
theorem alike (agree : s.Matches names t) (listed : name ∈ names) :
    Symbol.Alike (s.lookup? name) (t.lookup? name) := by
  apply Symbol.alike_of_declaration_eq
  have locals := findLocal?_outline agree.locals name
  rw [lookup?_eq_or, lookup?_eq_or]
  cases found : findLocal? name s.locals with
  | none =>
    rw [found, Option.map_none, Option.map_eq_none_iff] at locals
    simpa [locals] using agree.global name listed found
  | some scope =>
    rw [found] at locals
    obtain ⟨scope', found', same⟩ := Option.map_eq_some_iff.mp locals
    have bound := contains_of_findLocal?_eq_some found
    obtain ⟨symbol, held⟩ := Option.isSome_iff_exists.mp bound
    have declared := Scope.find?_of_outline_eq same name
    rw [held] at declared
    obtain ⟨symbol', held', declares⟩ := Option.map_eq_some_iff.mp declared
    simp [found', held, held', declares]

theorem resolvingKind? (agree : s.Matches names t) (listed : name ∈ names) :
    t.resolvingKind? name = s.resolvingKind? name := by
  have locals := findLocal?_outline agree.locals name
  unfold Store.resolvingKind? resolve?
  cases found : findLocal? name s.locals with
  | none =>
    rw [found, Option.map_none, Option.map_eq_none_iff] at locals
    have bound : t.global.symbols.contains name = s.global.symbols.contains name := by
      have isSome := congrArg Option.isSome (agree.global name listed found)
      rwa [Option.isSome_map, Option.isSome_map] at isSome
    rw [locals, bound]
    dsimp only
    split
    · exact congrArg some agree.kind
    · rfl
  | some scope =>
    rw [found] at locals
    obtain ⟨scope', found', same⟩ := Option.map_eq_some_iff.mp locals
    simp [found', Scope.kind_of_outline_eq same]

theorem isErrorAccessor (agree : s.Matches names t) (listed : name ∈ names) :
    t.isErrorAccessor name = s.isErrorAccessor name := by
  unfold Store.isErrorAccessor
  rw [agree.resolvingKind? listed]

theorem looksAlike (agree : s.Matches names t) : s.LooksAlike names t :=
  ⟨fun _ listed => agree.alike listed, fun _ listed => agree.isErrorAccessor listed⟩

theorem push (agree : s.Matches names t) (opened : String) (kind : ScopeKind)
    (ordinary : kind ≠ .function) : (s.push opened kind).Matches names (t.push opened kind) := by
  refine ⟨?_, agree.kind, fun name listed outside => agree.global name listed ?_⟩
  · rw [push_locals, push_locals, List.map_cons, List.map_cons, agree.locals]
    rfl
  · simpa [findLocal?, Bindings.contains, Bindings.find?, ordinary] using outside

/-- Inside a block, both stores bind new names with the same declarations. -/
theorem extend (agree : s.Matches names t) (nested : s.locals ≠ []) {added added' : Bindings Symbol}
    (same : added'.mapValues Symbol.declaration = added.mapValues Symbol.declaration)
    (bound : ∀ name ∈ more, name ∈ names ∨ name ∈ added.names) :
    (s.extend added).Matches more (t.extend added') := by
  obtain ⟨global, locals, nextId, history⟩ := s
  obtain ⟨global', locals', nextId', history'⟩ := t
  obtain ⟨outlines, kind, declared⟩ := agree
  cases locals with
  | nil => exact absurd rfl nested
  | cons scope outer =>
    obtain ⟨scope', outer', rfl, innermost, below⟩ := List.map_eq_cons_iff.mp outlines
    refine ⟨?_, kind, fun name listed outside => ?_⟩
    · simp only [Store.extend, List.map_cons, below,
        Scope.outline_extend_of_eq innermost same]
    · obtain ⟨before, free⟩ := findLocal?_eq_none_of_extend outside
      exact declared name ((bound name listed).resolve_right free) before

/-- Inside a block, the innermost scopes declare the same. -/
theorem current (agree : s.Matches names t) (nested : s.locals ≠ []) :
    t.current.outline = s.current.outline := by
  have outlines := agree.locals
  unfold Store.current
  cases inner : s.locals with
  | nil => exact absurd inner nested
  | cons scope outer =>
    rw [inner] at outlines
    obtain ⟨scope', outer', inner', innermost, -⟩ := List.map_eq_cons_iff.mp outlines
    rw [inner']
    exact innermost

end Matches

end Store

namespace Check

/-! ## Expressions -/

section

variable {s t : Store} {c : CheckContext}

theorem typeOfField_of_alike {record : Identifier}
    (alike : Symbol.Alike (s.lookup? record.name) (t.lookup? record.name)) (field : Identifier) :
    typeOfField t record field = typeOfField s record field := by
  unfold typeOfField
  generalize s.lookup? record.name = found at alike ⊢
  generalize t.lookup? record.name = found' at alike ⊢
  cases alike with
  | @recordInstance r r' type fields =>
    have same := fields field.name
    cases slot : r.fields.find? field.name with
    | none =>
      rw [slot, Option.map_none, Option.map_eq_none_iff] at same
      simp only [slot, same, type]
    | some held =>
      rw [slot] at same
      obtain ⟨held', slot', typed⟩ := Option.map_eq_some_iff.mp same
      simp only [slot, slot', typed]
  | _ => rfl

theorem elementTypeOf_of_alike {name : Identifier}
    (alike : Symbol.Alike (s.lookup? name.name) (t.lookup? name.name)) :
    elementTypeOf t name = elementTypeOf s name := by
  unfold elementTypeOf
  generalize s.lookup? name.name = found at alike ⊢
  generalize t.lookup? name.name = found' at alike ⊢
  cases alike with
  | «variable» type => cases type <;> rfl
  | _ => rfl

/-- What is wrong with arguments depends on the types of the parameters alone. -/
theorem argumentErrors_of_types {parameters parameters' : List FunctionParameter}
    (same : parameters'.map (·.type) = parameters.map (·.type)) (function : String)
    (position : Nat) (arguments : List (Option Ty × Span)) :
    argumentErrors function position arguments parameters' =
      argumentErrors function position arguments parameters := by
  induction arguments generalizing position parameters parameters' with
  | nil => rfl
  | cons argument rest ih =>
    obtain ⟨found, span⟩ := argument
    cases parameters with
    | nil =>
      rw [List.map_eq_nil_iff.mp same]
    | cons parameter parameters =>
      obtain ⟨parameter', parameters', rfl, type, later⟩ := List.map_eq_cons_iff.mp same
      simp only [argumentErrors, type, ih later]

theorem typeOfCall_of_alike {name : Identifier}
    (alike : Symbol.Alike (s.lookup? name.name) (t.lookup? name.name))
    (arguments : List (Option Ty × Span)) :
    typeOfCall t name arguments = typeOfCall s name arguments := by
  unfold typeOfCall
  generalize s.lookup? name.name = found at alike ⊢
  generalize t.lookup? name.name = found' at alike ⊢
  cases alike with
  | function named parameters returnType =>
    have count := congrArg List.length parameters
    rw [List.length_map, List.length_map] at count
    dsimp only
    rw [named, returnType, count, argumentErrors_of_types parameters]
  | _ => rfl

theorem typeOfIdentifier_of_alike {name : Identifier}
    (alike : Symbol.Alike (s.lookup? name.name) (t.lookup? name.name))
    (accessor : t.isErrorAccessor name.name = s.isErrorAccessor name.name) :
    typeOfIdentifier t c name = typeOfIdentifier s c name := by
  unfold typeOfIdentifier
  rw [accessor]
  generalize s.lookup? name.name = found at alike ⊢
  generalize t.lookup? name.name = found' at alike ⊢
  cases alike <;> rfl

mutual

/-- The type of an expression depends on the names in it alone. -/
theorem typeOf_of_looksAlike : (e : Expression) → s.LooksAlike e.names t → typeOf t c e = typeOf s c e
  | .identifier name _, agree => by
    have listed : name.name ∈ [name.name] := List.mem_singleton_self _
    exact typeOfIdentifier_of_alike (agree.alike _ listed) (agree.isErrorAccessor _ listed)
  | .index array position _, agree => by
    have index := typeOf_of_looksAlike position
      (agree.mono fun _ inner => List.mem_cons_of_mem _ inner)
    unfold typeOf typeOfIndex
    rw [index, elementTypeOf_of_alike (agree.alike _ List.mem_cons_self)]
  | .fieldAccess record field _, agree =>
    typeOfField_of_alike (agree.alike _ (List.mem_singleton_self _)) field
  | .call name arguments _, agree => by
    have inner := typesOf_of_looksAlike arguments
      (agree.mono fun _ inner => List.mem_cons_of_mem _ inner)
    unfold typeOf
    rw [agree.isErrorAccessor _ List.mem_cons_self, inner]
    dsimp only
    rw [typeOfCall_of_alike (agree.alike _ List.mem_cons_self)]
  | .unary operator operand _, agree => by
    unfold typeOf
    rw [typeOf_of_looksAlike operand agree]
  | .binary operator left right _, agree => by
    have first := typeOf_of_looksAlike left
      (agree.mono fun _ inner => List.mem_append_left _ inner)
    have second := typeOf_of_looksAlike right
      (agree.mono fun _ inner => List.mem_append_right _ inner)
    unfold typeOf
    rw [first, second]
  | .parenthesized inner _, agree => by
    unfold typeOf
    exact typeOf_of_looksAlike inner agree
  | .integer .., _ | .float .., _ | .str .., _ | .char .., _ | .boolean .., _
  | .numberArray .., _ | .charArray .., _ | .strArray .., _ => rfl

theorem typesOf_of_looksAlike : (es : List Expression) → s.LooksAlike (Expression.listNames es) t →
    typesOf t c es = typesOf s c es
  | [], _ => rfl
  | e :: rest, agree => by
    have first := typeOf_of_looksAlike e
      (agree.mono fun _ inner => List.mem_append_left _ inner)
    have later := typesOf_of_looksAlike rest
      (agree.mono fun _ inner => List.mem_append_right _ inner)
    unfold typesOf
    rw [first, later]

end

end

end Check

namespace Checking

open Check

/-! ## Rules that declare nothing -/

/-- The walks from `s` to `s'` and from `t` to `t'` have found the same. -/
def FindSame (s s' t t' : Checking) : Prop :=
  ∃ found, s'.diagnostics = s.diagnostics ++ found ∧ t'.diagnostics = t.diagnostics ++ found

namespace FindSame

variable {s s' s'' t t' t'' : Checking}

theorem refl (s t : Checking) : FindSame s s t t := ⟨[], by simp, by simp⟩

theorem trans (first : FindSame s s' t t') (second : FindSame s' s'' t' t'') :
    FindSame s s'' t t'' := by
  obtain ⟨found, left, right⟩ := first
  obtain ⟨more, left', right'⟩ := second
  exact ⟨found ++ more, by rw [left', left, List.append_assoc],
    by rw [right', right, List.append_assoc]⟩

theorem clean (same : FindSame s s' t t') (clean : s'.Clean) (before : t.Clean) : t'.Clean := by
  obtain ⟨found, left, right⟩ := same
  unfold Clean at clean before ⊢
  rw [left, Diagnostics.hasErrors_append, Bool.or_eq_false_iff] at clean
  rw [right, Diagnostics.hasErrors_append, before, clean.2]
  rfl

end FindSame

section

variable {s t : Checking} {c : CheckContext}

theorem findSame_note (found : List Diagnostic) : FindSame s (s.note found) t (t.note found) :=
  ⟨found, rfl, rfl⟩

theorem findSame_report (error : SemanticError) (span : Span) :
    FindSame s (s.report error span) t (t.report error span) :=
  findSame_note _

theorem findSame_expect (found : Option Ty) (expected : Ty) (span : Span) (what : String) :
    FindSame s (s.expect found expected span what) t (t.expect found expected span what) := by
  unfold expect
  split
  · exact .refl s t
  · split
    · exact .refl s t
    · exact findSame_report ..

variable {e : Expression}

theorem typeOf_of_looksAlike (agree : s.store.LooksAlike e.names t.store) :
    (t.typeOf c e).1 = (s.typeOf c e).1 ∧
      FindSame s (s.typeOf c e).2 t (t.typeOf c e).2 := by
  have typed := Check.typeOf_of_looksAlike (c := c) e agree
  unfold Checking.typeOf
  rw [typed]
  exact ⟨rfl, findSame_note _⟩

theorem findSame_condition (agree : s.store.LooksAlike e.names t.store) (construct : String) :
    FindSame s (s.condition c construct e) t (t.condition c construct e) := by
  obtain ⟨known, same⟩ := typeOf_of_looksAlike (c := c) agree
  unfold condition
  dsimp only
  rw [known]
  split
  · exact same
  · exact same
  · exact same.trans (findSame_report ..)

theorem findSame_assignment {name : Identifier}
    (agree : s.store.LooksAlike (name.name :: e.names) t.store) :
    FindSame s (s.assignment c name e) t (t.assignment c name e) := by
  obtain ⟨known, same⟩ := typeOf_of_looksAlike (c := c)
    (agree.mono fun _ inner => List.mem_cons_of_mem _ inner)
  have alike := agree.alike _ List.mem_cons_self
  unfold assignment
  dsimp only
  rw [known, show (t.typeOf c e).2.store = t.store from rfl,
    show (s.typeOf c e).2.store = s.store from rfl, agree.isErrorAccessor _ List.mem_cons_self]
  split
  · exact same.trans (findSame_report ..)
  · generalize s.store.lookup? name.name = found at alike ⊢
    generalize t.store.lookup? name.name = found' at alike ⊢
    cases alike with
    | «variable» => exact same.trans (findSame_expect ..)
    | _ => exact same.trans (findSame_report ..)

theorem findSame_fieldAssignment {record field : Identifier}
    (agree : s.store.LooksAlike (record.name :: e.names) t.store) :
    FindSame s (s.fieldAssignment c record field e) t (t.fieldAssignment c record field e) := by
  obtain ⟨known, same⟩ := typeOf_of_looksAlike (c := c)
    (agree.mono fun _ inner => List.mem_cons_of_mem _ inner)
  have target := typeOfField_of_alike (agree.alike _ List.mem_cons_self) field
  unfold fieldAssignment
  dsimp only
  rw [known, show (t.typeOf c e).2.store = t.store from rfl,
    show (s.typeOf c e).2.store = s.store from rfl, target]
  split
  · exact (same.trans (findSame_note _)).trans (findSame_expect ..)
  · exact same.trans (findSame_note _)

theorem findSame_returning {value : Option Expression}
    (agree : s.store.LooksAlike (Expression.optionNames value) t.store) (span : Span) :
    FindSame s (s.returning c value span) t (t.returning c value span) := by
  unfold returning
  cases value with
  | none =>
    dsimp only [Option.map_none]
    split
    · exact findSame_report ..
    · split
      · exact .refl s t
      · exact findSame_report ..
  | some e =>
    obtain ⟨known, same⟩ := typeOf_of_looksAlike (c := c) agree
    dsimp only [Option.map_some]
    rw [known]
    split
    · exact same.trans (findSame_report ..)
    · split
      · exact same.trans (findSame_report ..)
      · split
        · exact same
        · split
          · exact same
          · exact same.trans (findSame_report ..)

/-! ## Statements -/

theorem clean_declare_of_current {name : Identifier} {symbol symbol' : Symbol} {atRuntime : Bool}
    (same : t.store.current.outline = s.store.current.outline)
    (clean : (s.declare name symbol atRuntime).Clean) (before : t.Clean) :
    (t.declare name symbol' atRuntime).Clean := by
  have fresh := fresh_of_clean_declare clean
  rw [← Scope.contains_of_outline_eq same] at fresh
  rw [declare_of_fresh symbol' atRuntime fresh]
  exact before

theorem clean_declaration_of_matches {type : TypeName} {name : Identifier}
    {initializer : Option Expression}
    (agree : s.store.Matches (Expression.optionNames initializer) t.store)
    (nested : s.store.locals ≠ []) (clean : (s.declaration c type name initializer).Clean)
    (before : t.Clean) : (t.declaration c type name initializer).Clean := by
  unfold declaration at clean ⊢
  cases initializer with
  | none => exact clean_declare_of_current (agree.current nested) clean before
  | some e =>
    obtain ⟨known, same⟩ := typeOf_of_looksAlike (c := c) agree.looksAlike
    have expected : FindSame s _ t _ := same.trans (findSame_expect (s.typeOf c e).1
      (.ofTypeName type) e.span s!"declaration of '{name.name}'")
    have typed := ((grows_typeOf s c e).trans (grows_expect (s.typeOf c e).2 (s.typeOf c e).1
      (.ofTypeName type) e.span s!"declaration of '{name.name}'")).sameScopes
    have typed' := ((grows_typeOf t c e).trans (grows_expect (t.typeOf c e).2 (s.typeOf c e).1
      (.ofTypeName type) e.span s!"declaration of '{name.name}'")).sameScopes
    dsimp only at clean ⊢
    rw [known]
    refine clean_declare_of_current ?_ clean
      (expected.clean ((declares_declare ..).continues.clean clean) before)
    rw [typed'.current, typed.current]
    exact agree.current nested

theorem clean_recordInstance_of_matches {type name : Identifier}
    (agree : s.store.Matches [type.name] t.store) (nested : s.store.locals ≠ [])
    (clean : (s.recordInstance type name).Clean) (before : t.Clean) :
    (t.recordInstance type name).Clean := by
  have alike := agree.alike (List.mem_singleton_self _)
  have current := agree.current nested
  unfold recordInstance at clean ⊢
  generalize s.store.lookup? type.name = found at alike clean
  generalize t.store.lookup? type.name = found' at alike ⊢
  cases alike with
  | recordType r => exact clean_declare_of_current current clean before
  | _ => exact absurd clean (not_clean_report rfl)

end

end Checking

namespace Check

open Checking

/-- What a statement declares, it declares alike in both stores. -/
theorem declarations_of_matches {statement : Statement} {s t : Store}
    (agree : s.Matches statement.freeNames t) :
    (statement.declarations t).bindings.mapValues Symbol.declaration =
      (statement.declarations s).bindings.mapValues Symbol.declaration := by
  cases statement with
  | recordInstance type name span =>
    have alike := agree.alike (List.mem_singleton_self type.name)
    unfold Statement.declarations
    dsimp only
    generalize s.lookup? type.name = found at alike ⊢
    generalize t.lookup? type.name = found' at alike ⊢
    cases alike <;> rfl
  | _ => rfl

/-- Without an error, a statement declares the name that it is said to declare. -/
theorem mem_names_declarations {c : CheckContext} {statement : Statement} {s : Checking}
    (clean : (checkStatement c statement s).Clean) {name : String}
    (declared : some name = statement.declaredName?) :
    name ∈ (statement.declarations s.store).bindings.names := by
  cases statement with
  | «variable» | recordInstance =>
    have listed := mem_declarations_of_runtimeName? clean declared.symm
    obtain ⟨d, present, same⟩ := List.mem_map.mp listed
    rw [Declarations.names_bindings]
    exact List.mem_map.mpr ⟨d, present, by rw [same]⟩
  | function | recordType =>
    cases declared
    exact List.mem_singleton_self _
  | _ => cases declared

/-- The statements that follow a statement inside a block find the same names as well. -/
theorem matches_checkStatement {c : CheckContext} {statement : Statement} {s t : Checking}
    {names : List String} (nested : s.store.locals ≠ [])
    (agree : s.store.Matches (statement.freeNames ++
      names.filter fun n => some n != statement.declaredName?) t.store)
    (clean : (checkStatement c statement s).Clean) (clean' : (checkStatement c statement t).Clean) :
    (checkStatement c statement s).store.Matches names (checkStatement c statement t).store := by
  have own : s.store.Matches statement.freeNames t.store :=
    agree.mono fun _ free => List.mem_append_left _ free
  have declared := declarations_of_matches own
  refine (agree.extend nested declared fun name listed => ?_).of_sameScopes
    (grows_declarations clean).scopes (grows_declarations clean').scopes
  -- The name that the statement declares is the only one that had not to agree before.
  by_cases named : some name = statement.declaredName?
  · exact .inr (mem_names_declarations clean named)
  · exact .inl (List.mem_append_right _ (List.mem_filter.mpr ⟨listed, by simpa using named⟩))

theorem locals_push_ne_nil (s : Checking) (name : String) (kind : ScopeKind) :
    (s.push name kind).store.locals ≠ [] := List.cons_ne_nil _ _

theorem locals_checkStatement_ne_nil {c : CheckContext} {statement : Statement} {s : Checking}
    (nested : s.store.locals ≠ []) : (checkStatement c statement s).store.locals ≠ [] := by
  obtain ⟨added, grown, -⟩ := declares_checkStatement c statement s
  rw [grown.scopes.locals]
  exact fun none => nested (Store.extend_locals_eq_nil_iff.mp none)

mutual

/-- Inside a block, a statement that is checked without an error against one store is checked
without an error against every store that declares its free names alike. -/
theorem clean_of_matches : (statement : Statement) → {c : CheckContext} → {s t : Checking} →
    c.isTopLevel = false → s.store.locals ≠ [] → s.store.Matches statement.freeNames t.store →
    (checkStatement c statement s).Clean → t.Clean → (checkStatement c statement t).Clean
  | .variable .., _, _, _, _, nested, agree, clean, before => by
    unfold checkStatement at clean ⊢
    exact clean_declaration_of_matches agree nested clean before
  | .assignment .., _, _, _, _, _, agree, clean, before => by
    unfold checkStatement at clean ⊢
    exact (findSame_assignment agree.looksAlike).clean clean before
  | .fieldAssignment .., _, _, _, _, _, agree, clean, before => by
    unfold checkStatement at clean ⊢
    exact (findSame_fieldAssignment agree.looksAlike).clean clean before
  | .function .., _, _, _, inside, _, _, clean, _ => by
    cases registration?_eq_none_of_nested inside clean
  | .recordType .., _, _, _, inside, _, _, clean, _ => by
    cases registration?_eq_none_of_nested inside clean
  | .recordInstance .., _, _, _, _, nested, agree, clean, before => by
    unfold checkStatement at clean ⊢
    exact clean_recordInstance_of_matches agree nested clean before
  | .block (.mk statements _) _, _, _, _, _, _, agree, clean, before => by
    unfold checkStatement checkBlock
    exact cleanStatements_of_matches statements rfl (locals_push_ne_nil _ _ _)
      (agree.push "block" .block nofun) (clean_block clean) before
  | .conditional branches none _, _, _, _, inside, nested, agree, clean, before => by
    unfold checkStatement
    exact cleanBranches_of_matches branches inside nested agree (clean_branches clean) before
  | .conditional branches (some (.mk statements _)) _, c, s, t, inside, nested, agree, clean,
      before => by
    have tried := cleanBranches_of_matches branches inside nested
      (agree.mono fun _ free => List.mem_append_left _ free) (clean_branches clean) before
    have onward := (agree.mono fun _ free => List.mem_append_right _ free).of_sameScopes
      (grows_checkBranches c branches s).sameScopes (grows_checkBranches c branches t).sameScopes
    unfold checkStatement checkBlock
    exact cleanStatements_of_matches statements rfl (locals_push_ne_nil _ _ _)
      (onward.push "else" .branch nofun) (clean_otherwise clean) tried
  | .while condition (.mk statements _) _, c, s, t, _, _, agree, clean, before => by
    have tested := (findSame_condition
      (agree.mono fun _ free => List.mem_append_left _ free).looksAlike "While").clean (clean_loopCondition clean) before
    have onward := (agree.mono fun _ free => List.mem_append_right _ free).of_sameScopes
      (grows_condition s c "While" condition).sameScopes
      (grows_condition t c "While" condition).sameScopes
    unfold checkStatement checkBlock
    exact cleanStatements_of_matches statements rfl (locals_push_ne_nil _ _ _)
      (onward.push "while" .loop nofun) (clean_loopBody clean) tested
  | .break _, _, _, _, _, _, _, clean, before => by
    unfold checkStatement at clean ⊢
    split at clean
    · next inLoop => rwa [if_pos inLoop]
    · exact absurd clean (not_clean_report rfl)
  | .continue _, _, _, _, _, _, _, clean, before => by
    unfold checkStatement at clean ⊢
    split at clean
    · next inLoop => rwa [if_pos inLoop]
    · exact absurd clean (not_clean_report rfl)
  | .return _ span, _, _, _, _, _, agree, clean, before => by
    unfold checkStatement at clean ⊢
    exact (findSame_returning agree.looksAlike span).clean clean before
  | .print value _, c, s, t, _, _, agree, clean, before => by
    obtain ⟨known, same⟩ := Checking.typeOf_of_looksAlike (c := c) agree.looksAlike
    unfold checkStatement at clean ⊢
    dsimp only at clean ⊢
    rw [known]
    split at clean
    · exact absurd clean (not_clean_report rfl)
    · next valued =>
      rw [if_neg valued]
      exact same.clean clean before
  | .attempt (.mk guarded span) (.mk recovery _) _, c, s, t, _, _, agree, clean, before => by
    have tried : (checkStatements c.inBlock guarded (t.push "try" .guarded)).Clean :=
      cleanStatements_of_matches guarded rfl (locals_push_ne_nil _ _ _)
      ((agree.mono fun _ free => List.mem_append_left _ free).push "try" .guarded nofun)
      (clean_guarded clean) before
    have onward := (agree.mono fun _ free => List.mem_append_right _ free).of_sameScopes
      (grows_scopedBlock c.inBlock (.mk guarded span) s "try" .guarded).sameScopes
      (grows_scopedBlock c.inBlock (.mk guarded span) t "try" .guarded).sameScopes
    unfold checkStatement checkBlock
    dsimp only
    -- The error accessor need not be bound outside: the recover block binds it in both stores.
    refine cleanStatements_of_matches recovery rfl ?_ ?_ (clean_recovery clean) ?_
    · rw [bindErrorAccessor_push]
      exact nofun
    · rw [bindErrorAccessor_push, bindErrorAccessor_push]
      refine (onward.push "recover" .recovery nofun).extend nofun rfl fun name free => ?_
      by_cases accessor : name = errorAccessor
      · exact .inr (accessor ▸ List.mem_singleton_self _)
      · exact .inl (List.mem_filter.mpr ⟨free, by simpa using accessor⟩)
    · unfold bindErrorAccessor
      split <;> exact tried
  | .expression value _, c, _, _, _, _, agree, clean, before => by
    unfold checkStatement at clean ⊢
    exact (Checking.typeOf_of_looksAlike (c := c) agree.looksAlike).2.clean clean before

theorem cleanStatements_of_matches : (statements : List Statement) → {c : CheckContext} →
    {s t : Checking} → c.isTopLevel = false → s.store.locals ≠ [] →
    s.store.Matches (Statement.listFreeNames statements) t.store →
    (checkStatements c statements s).Clean → t.Clean → (checkStatements c statements t).Clean
  | [], _, _, _, _, _, _, _, before => by
    unfold checkStatements
    exact before
  | statement :: rest, c, s, t, inside, nested, agree, clean, before => by
    unfold checkStatements at clean ⊢
    have first : (checkStatement c statement s).Clean := (continues_checkStatements ..).clean clean
    have first' := clean_of_matches statement inside nested
      (agree.mono fun _ free => List.mem_append_left _ free) first before
    exact cleanStatements_of_matches rest inside (locals_checkStatement_ne_nil nested)
      (matches_checkStatement nested agree first first') clean first'

theorem cleanBranches_of_matches : (branches : List Branch) → {c : CheckContext} →
    {s t : Checking} → c.isTopLevel = false → s.store.locals ≠ [] →
    s.store.Matches (Branch.listFreeNames branches) t.store →
    (checkBranches c branches s).Clean → t.Clean → (checkBranches c branches t).Clean
  | [], _, _, _, _, _, _, _, before => by
    unfold checkBranches
    exact before
  | .mk condition (.mk statements span) _ :: rest, c, s, t, inside, nested, agree, clean,
      before => by
    have own := agree.mono fun _ free => List.mem_append_left _ free
    have tested := (findSame_condition
      (own.mono fun _ free => List.mem_append_left _ free).looksAlike "If").clean (clean_branchCondition clean) before
    have same := grows_condition s c "If" condition
    have same' := grows_condition t c "If" condition
    have body : (checkStatements c.inBlock statements
        ((t.condition c "If" condition).push "if" .branch)).Clean :=
      cleanStatements_of_matches statements rfl (locals_push_ne_nil _ _ _)
      (((own.mono fun _ free => List.mem_append_right _ free).of_sameScopes same.sameScopes
        same'.sameScopes).push "if" .branch nofun) (clean_branchBody clean) tested
    unfold checkBranches at clean ⊢
    refine cleanBranches_of_matches rest inside ?_ ?_ clean ?_
    · rw [(grows_scopedBlock ..).sameScopes.locals, same.sameScopes.locals]
      exact nested
    · exact (agree.mono fun _ free => List.mem_append_right _ free).of_sameScopes
        (same.sameScopes.trans (grows_scopedBlock ..).sameScopes)
        (same'.sameScopes.trans (grows_scopedBlock ..).sameScopes)
    · unfold checkBlock
      exact body

end

end Check

end CheckedScript
