import CheckedScript.Check.Program
import CheckedScript.Proofs.Store.Scopes

/-!
# What a walk of the checker leaves behind

Checking a statement closes every scope that it opens, changes no binding that exists, binds fresh
names in the innermost scope at most, and only adds to the findings (`grows_checkStatement`). Names
that are bound in the global scope are recorded, in the order of the bindings.
-/

namespace CheckedScript

/-- Names that a walk has declared, each with what it is bound to. -/
abbrev Declarations := List (DeclaredGlobal × Symbol)

def Declarations.bindings (added : Declarations) : Bindings Symbol :=
  added.map fun d => (d.1.name, d.2)

namespace Declarations

@[simp] theorem bindings_nil : bindings [] = [] := rfl

theorem names_bindings (added : Declarations) :
    (bindings added).names = added.map fun d => d.1.name := by
  simp [bindings, Bindings.names]

@[simp] theorem bindings_append (first second : Declarations) :
    bindings (first ++ second) = bindings first ++ bindings second := by
  simp [bindings]

end Declarations

namespace Checking

variable {s t u : Checking} {added more : Declarations}

/-- The walk from `s` to `t` has declared `added` in the innermost scope. -/
structure Grows (s : Checking) (added : Declarations) (t : Checking) : Prop where
  scopes : (s.store.extend added.bindings).SameScopes t.store
  globals : t.globals = s.globals ++ if s.store.isGlobal then added.map Prod.fst else []
  fresh : ∀ name ∈ added.bindings.names, name ∉ s.store.current.symbols.names
  distinct : added.bindings.names.Nodup
  findings : ∃ found, t.diagnostics = s.diagnostics ++ found

namespace Grows

theorem refl (s : Checking) : s.Grows [] s where
  scopes := by simp only [Declarations.bindings_nil, Store.extend_nil]; rfl
  globals := by simp
  fresh := by simp [Bindings.names]
  distinct := by simp [Bindings.names]
  findings := ⟨[], by simp⟩

theorem sameScopes (grown : s.Grows [] t) : s.store.SameScopes t.store := by
  simpa using grown.scopes

theorem current (grown : s.Grows added t) :
    t.store.current = s.store.current.extend added.bindings := by
  rw [grown.scopes.current, Store.current_extend]

theorem depth (grown : s.Grows added t) : t.store.depth = s.store.depth := by
  rw [grown.scopes.depth, Store.depth_extend]

theorem isGlobal (grown : s.Grows added t) : t.store.isGlobal = s.store.isGlobal := by
  rw [grown.scopes.isGlobal, Store.isGlobal_extend]

theorem trans (first : s.Grows added t) (second : t.Grows more u) : s.Grows (added ++ more) u where
  scopes := by
    have step := (first.scopes.extend more.bindings).trans second.scopes
    simpa using step
  globals := by
    rw [second.globals, first.globals, first.isGlobal]
    cases s.store.isGlobal <;> simp
  fresh := by
    intro name inside
    rw [Declarations.bindings_append, Bindings.names, List.map_append, List.mem_append] at inside
    cases inside with
    | inl early => exact first.fresh name early
    | inr late =>
      have unbound := second.fresh name late
      rw [first.current] at unbound
      exact fun bound => unbound (Scope.mem_names_extend_iff.mpr (.inl bound))
  distinct := by
    rw [Declarations.bindings_append, Bindings.names, List.map_append, List.nodup_append]
    refine ⟨first.distinct, second.distinct, ?_⟩
    rintro name early _ late rfl
    have unbound := second.fresh name late
    rw [first.current] at unbound
    exact unbound (Scope.mem_names_extend_iff.mpr (.inr early))
  findings := by
    obtain ⟨found, h⟩ := first.findings
    obtain ⟨found', h'⟩ := second.findings
    exact ⟨found ++ found', by rw [h', h, List.append_assoc]⟩

end Grows

/-- The walk from `s` to `t` has declared fresh names in the innermost scope at most. -/
def Continues (s t : Checking) : Prop := ∃ added, s.Grows added t

theorem Continues.trans (first : s.Continues t) (second : t.Continues u) : s.Continues u :=
  let ⟨_, grown⟩ := first
  let ⟨_, grown'⟩ := second
  ⟨_, grown.trans grown'⟩

theorem Grows.continues (grown : s.Grows added t) : s.Continues t := ⟨added, grown⟩

theorem Continues.depth (onward : s.Continues t) : t.store.depth = s.store.depth :=
  let ⟨_, grown⟩ := onward
  grown.depth

/-- The walk from `s` to `t` has declared no other name than `name?`. -/
def Declares (s : Checking) (name? : Option String) (t : Checking) : Prop :=
  ∃ added, s.Grows added t ∧ ∀ d ∈ added, name? = some d.1.name

theorem Grows.declares (grown : s.Grows [] t) (name? : Option String) : s.Declares name? t :=
  ⟨[], grown, fun _ inside => absurd inside List.not_mem_nil⟩

theorem Declares.continues {name? : Option String} (declared : s.Declares name? t) :
    s.Continues t :=
  let ⟨added, grown, _⟩ := declared
  ⟨added, grown⟩

theorem Declares.grows_of_none (declared : s.Declares none t) : s.Grows [] t := by
  obtain ⟨added, grown, only⟩ := declared
  cases added with
  | nil => exact grown
  | cons d rest => exact absurd (only d List.mem_cons_self) nofun

theorem Grows.trans_declares {name? : Option String} (first : s.Grows [] t)
    (second : t.Declares name? u) : s.Declares name? u :=
  let ⟨added, grown, only⟩ := second
  ⟨added, first.trans grown, only⟩

theorem Declares.trans_grows {name? : Option String} (first : s.Declares name? t)
    (second : t.Grows [] u) : s.Declares name? u :=
  let ⟨added, grown, only⟩ := first
  ⟨added, by simpa using grown.trans second, only⟩

theorem grows_note (s : Checking) (found : List Diagnostic) : s.Grows [] (s.note found) :=
  { Grows.refl s with findings := ⟨found, rfl⟩ }

theorem grows_report (s : Checking) (error : SemanticError) (span : Span) :
    s.Grows [] (s.report error span) :=
  grows_note s _

theorem declare_of_fresh {name : Identifier} (symbol : Symbol) (atRuntime : Bool)
    (fresh : s.store.current.symbols.contains name.name = false) :
    s.declare name symbol atRuntime =
      { s with
        store := s.store.extend [(name.name, symbol)]
        globals := s.globals ++ if s.store.isGlobal then [⟨name.name, atRuntime⟩] else [] } := by
  unfold declare
  rw [Store.define_of_fresh symbol fresh]
  cases s.store.isGlobal <;> simp

theorem declare_of_taken {name : Identifier} (symbol : Symbol) (atRuntime : Bool)
    (taken : s.store.current.symbols.contains name.name = true) :
    s.declare name symbol atRuntime = s.report (.duplicateDefinition name.name) name.span := by
  unfold declare
  rw [Store.define_of_taken symbol taken]

theorem grows_declare_of_fresh {name : Identifier} (symbol : Symbol) (atRuntime : Bool)
    (fresh : s.store.current.symbols.contains name.name = false) :
    s.Grows [(⟨name.name, atRuntime⟩, symbol)] (s.declare name symbol atRuntime) := by
  rw [declare_of_fresh symbol atRuntime fresh]
  refine ⟨.refl _, by simp, ?_, by simp [Declarations.bindings, Bindings.names], [], by simp⟩
  intro other inside
  have same : other = name.name := by simpa [Declarations.bindings, Bindings.names] using inside
  rw [same]
  exact Bindings.contains_eq_false_iff.mp fresh

theorem declares_declare (s : Checking) (name : Identifier) (symbol : Symbol) (atRuntime : Bool) :
    s.Declares (some name.name) (s.declare name symbol atRuntime) := by
  cases taken : s.store.current.symbols.contains name.name with
  | false => exact ⟨_, grows_declare_of_fresh symbol atRuntime taken, by simp⟩
  | true =>
    rw [declare_of_taken symbol atRuntime taken]
    exact (grows_report ..).declares _

/-! ## Rules that declare nothing -/

theorem grows_typeOf (s : Checking) (context : CheckContext) (e : Expression) :
    s.Grows [] (s.typeOf context e).2 :=
  grows_note s _

theorem grows_expect (s : Checking) (found : Option Ty) (expected : Ty) (span : Span)
    (context : String) : s.Grows [] (s.expect found expected span context) := by
  unfold expect
  split
  · exact .refl s
  · split
    · exact .refl s
    · exact grows_report ..

theorem grows_condition (s : Checking) (context : CheckContext) (construct : String)
    (e : Expression) : s.Grows [] (s.condition context construct e) := by
  unfold condition
  have typed := grows_typeOf s context e
  dsimp only
  split
  · exact typed
  · exact typed
  · exact typed.trans (grows_report ..)

theorem grows_assignment (s : Checking) (context : CheckContext) (name : Identifier)
    (value : Expression) : s.Grows [] (s.assignment context name value) := by
  unfold assignment
  have typed := grows_typeOf s context value
  dsimp only
  split
  · exact typed.trans (grows_report ..)
  · split
    · exact typed.trans (grows_expect ..)
    · exact typed.trans (grows_report ..)
    · exact typed.trans (grows_report ..)

theorem grows_fieldAssignment (s : Checking) (context : CheckContext) (record field : Identifier)
    (value : Expression) : s.Grows [] (s.fieldAssignment context record field value) := by
  unfold fieldAssignment
  have typed := grows_typeOf s context value
  dsimp only
  split
  · exact (typed.trans (grows_note ..)).trans (grows_expect ..)
  · exact typed.trans (grows_note ..)

theorem grows_returning (s : Checking) (context : CheckContext) (value : Option Expression)
    (span : Span) : s.Grows [] (s.returning context value span) := by
  unfold returning
  cases value with
  | none =>
    dsimp only [Option.map_none]
    split
    · exact grows_report ..
    · split
      · exact .refl s
      · exact grows_report ..
  | some e =>
    have typed := grows_typeOf s context e
    dsimp only [Option.map_some]
    split
    · exact typed.trans (grows_report ..)
    · split
      · exact typed.trans (grows_report ..)
      · split
        · exact typed
        · split
          · exact typed
          · exact typed.trans (grows_report ..)

theorem grows_fields (record : String) (declarators : List Declarator) (bound : Bindings Ty)
    (s : Checking) : s.Grows [] (fields record declarators (bound, s)).2 := by
  induction declarators generalizing bound s with
  | nil => exact .refl s
  | cons field rest ih =>
    unfold fields
    split
    · exact (grows_report ..).trans (ih ..)
    · exact ih ..

/-! ## Rules that declare a name -/

theorem declares_declaration (s : Checking) (context : CheckContext) (type : TypeName)
    (name : Identifier) (initializer : Option Expression) :
    s.Declares (some name.name) (s.declaration context type name initializer) := by
  unfold declaration
  cases initializer with
  | none => exact declares_declare ..
  | some e =>
    exact ((grows_typeOf s context e).trans (grows_expect ..)).trans_declares (declares_declare ..)

theorem declares_recordType (s : Checking) (context : CheckContext) (name : Identifier)
    (declarators : List Declarator) :
    s.Declares (some name.name) (s.recordType context name declarators) := by
  unfold recordType
  split
  · exact (grows_fields ..).trans_declares (declares_declare ..)
  · exact (grows_report ..).declares _

theorem declares_recordInstance (s : Checking) (type name : Identifier) :
    s.Declares (some name.name) (s.recordInstance type name) := by
  unfold recordInstance
  split
  · exact declares_declare ..
  · exact (grows_report ..).declares _

theorem continues_parameters (parameters : List Declarator) (s : Checking) :
    s.Continues (parameters.foldl parameter s) := by
  induction parameters generalizing s with
  | nil => exact (Grows.refl s).continues
  | cons p rest ih => exact (declares_declare ..).continues.trans (ih _)

theorem declares_function (s : Checking) (name : Identifier) (symbol : FunctionSymbol) :
    s.Declares (some name.name) (s.function name symbol) := by
  unfold function
  split
  · exact (grows_report ..).declares _
  · exact (grows_report ..).declares _
  · exact declares_declare ..

/-! ## Scopes that a construct opens -/

/-- `t` stands in a scope that was opened in `s`. -/
structure Nested (s t : Checking) : Prop where
  locals : ∃ opened, t.store.locals = opened :: s.store.locals
  global : t.store.global = s.store.global
  globals : t.globals = s.globals
  findings : ∃ found, t.diagnostics = s.diagnostics ++ found

theorem nested_push (s : Checking) (name : String) (kind : ScopeKind) :
    s.Nested (s.push name kind) :=
  ⟨⟨_, rfl⟩, rfl, rfl, [], by simp [push]⟩

namespace Nested

theorem isGlobal (nested : s.Nested t) : t.store.isGlobal = false := by
  obtain ⟨opened, locals⟩ := nested.locals
  simp [Store.isGlobal, locals]

theorem continues (nested : s.Nested t) (onward : t.Continues u) : s.Nested u := by
  obtain ⟨added, grown⟩ := onward
  obtain ⟨opened, locals⟩ := nested.locals
  obtain ⟨found, diagnostics⟩ := nested.findings
  obtain ⟨found', diagnostics'⟩ := grown.findings
  refine ⟨⟨opened.extend added.bindings, ?_⟩, ?_, ?_, found ++ found', ?_⟩
  · rw [grown.scopes.locals]
    simp [Store.extend, locals]
  · rw [grown.scopes.global, Store.extend_global_of_locals_ne_nil (by simp [locals]), nested.global]
  · rw [grown.globals, nested.isGlobal, nested.globals]
    simp
  · rw [diagnostics', diagnostics, List.append_assoc]

theorem bindErrorAccessor (nested : s.Nested t) : s.Nested t.bindErrorAccessor := by
  unfold Checking.bindErrorAccessor
  cases defined : t.store.define errorAccessor (.variable .str .null) with
  | error _ => exact nested
  | ok store =>
    obtain ⟨opened, locals⟩ := nested.locals
    obtain ⟨-, rfl⟩ := Store.define_eq_ok_iff.mp defined
    refine ⟨⟨opened.extend [(errorAccessor, .variable .str .null)], ?_⟩, ?_, nested.globals,
      nested.findings⟩
    · simp [Store.extend, locals]
    · rw [Store.extend_global_of_locals_ne_nil (by simp [locals]), nested.global]

/-- Closing the scope leaves nothing but findings. -/
theorem close (nested : s.Nested t) {depth : Nat} (before : depth = s.store.depth) :
    s.Grows [] (t.backTo depth) where
  scopes := by
    obtain ⟨opened, locals⟩ := nested.locals
    simp only [Declarations.bindings_nil, Store.extend_nil]
    exact ⟨by simp [backTo, nested.global], Store.truncate_locals_of_opened locals before⟩
  globals := by simp [backTo, nested.globals]
  fresh := by simp [Bindings.names]
  distinct := by simp [Bindings.names]
  findings := nested.findings

end Nested

theorem nested_parameters (s : Checking) (name : String) (parameters : List Declarator) :
    s.Nested (parameters.foldl parameter (s.push name .function)) :=
  (nested_push s name .function).continues (continues_parameters ..)

end Checking

/-- The name that a statement binds in its own scope. -/
def Statement.declaredName? : Statement → Option String
  | .variable _ name _ _ | .function name _ _ _ _ | .recordType name _ _
  | .recordInstance _ name _ => some name.name
  | _ => none

namespace Check

open Checking

/-- What follows the declaration of a function declares nothing more. -/
theorem grows_checkFunction {context : CheckContext} {name : Identifier}
    {parameters : List Declarator} {returnType : Option TypeName} {body : Block} {span : Span}
    {s : Checking} (top : context.isTopLevel = true)
    (walk : ∀ context (s : Checking), s.Continues (checkBlock context body s)) :
    (s.function name (functionSymbol name parameters (.ofReturnType returnType) body)).Grows []
      (checkStatement context (.function name parameters returnType body span) s) := by
  unfold checkStatement
  dsimp only
  rw [if_pos top]
  -- The function may have been refused, and its body is walked through nevertheless.
  have depth := (declares_function s name
    (functionSymbol name parameters (.ofReturnType returnType) body)).continues.depth
  have walked := ((nested_parameters (s.function name
    (functionSymbol name parameters (.ofReturnType returnType) body)) name.name
      parameters).continues (walk (context.inFunction ⟨name.name, .ofReturnType returnType⟩)
        _)).close depth.symm
  split
  · exact walked
  · exact walked.trans (grows_report ..)

mutual

/-- Checking a statement binds no other name than its own, and that one in the innermost scope. -/
theorem declares_checkStatement (context : CheckContext) :
    (statement : Statement) → (s : Checking) →
      s.Declares statement.declaredName? (checkStatement context statement s)
  | .variable .., s => by
    unfold checkStatement
    exact declares_declaration ..
  | .assignment .., s => by
    unfold checkStatement
    exact (grows_assignment ..).declares _
  | .fieldAssignment .., s => by
    unfold checkStatement
    exact (grows_fieldAssignment ..).declares _
  | .function name parameters returnType body _, s => by
    by_cases top : context.isTopLevel = true
    · exact (declares_function s name _).trans_grows
        (grows_checkFunction top fun context s => continues_checkBlock context body s)
    · unfold checkStatement
      rw [if_neg top]
      exact (grows_report ..).declares _
  | .block body _, s => by
    unfold checkStatement
    have walked := (nested_push s "block" .block).continues
      (continues_checkBlock context.inBlock body _)
    exact (walked.close rfl).declares _
  | .conditional branches none _, s => by
    unfold checkStatement
    exact (grows_checkBranches context branches s).declares _
  | .conditional branches (some otherwise) _, s => by
    unfold checkStatement
    have tried := grows_checkBranches context branches s
    have walked := (nested_push (checkBranches context branches s) "else" .branch).continues
      (continues_checkBlock context.inBlock otherwise _)
    exact (tried.trans (walked.close rfl)).declares _
  | .while condition body _, s => by
    unfold checkStatement
    have tested := grows_condition s context "While" condition
    have walked := (nested_push (s.condition context "While" condition) "while" .loop).continues
      (continues_checkBlock context.inLoopBody body _)
    exact (tested.trans (walked.close rfl)).declares _
  | .break _, s => by
    unfold checkStatement
    split
    · exact (Grows.refl s).declares _
    · exact (grows_report ..).declares _
  | .continue _, s => by
    unfold checkStatement
    split
    · exact (Grows.refl s).declares _
    · exact (grows_report ..).declares _
  | .return .., s => by
    unfold checkStatement
    exact (grows_returning ..).declares _
  | .print value _, s => by
    unfold checkStatement
    have typed := grows_typeOf s context value
    dsimp only
    split
    · exact (typed.trans (grows_report ..)).declares _
    · exact typed.declares _
  | .attempt guarded recovery _, s => by
    unfold checkStatement
    have tried := ((nested_push s "try" .guarded).continues
      (continues_checkBlock context.inBlock guarded _)).close rfl
    have opened := (nested_push ((checkBlock context.inBlock guarded
      (s.push "try" .guarded)).backTo s.store.depth) "recover" .recovery).bindErrorAccessor
    have walked := opened.continues (continues_checkBlock context.inRecoverBlock recovery _)
    exact (tried.trans (walked.close tried.depth.symm)).declares _
  | .recordType .., s => by
    unfold checkStatement
    exact declares_recordType ..
  | .recordInstance .., s => by
    unfold checkStatement
    exact declares_recordInstance ..
  | .expression value _, s => by
    unfold checkStatement
    exact (grows_typeOf s context value).declares _

theorem continues_checkBlock (context : CheckContext) :
    (block : Block) → (s : Checking) → s.Continues (checkBlock context block s)
  | .mk statements _, s => by
    unfold checkBlock
    exact continues_checkStatements context statements s

theorem continues_checkStatements (context : CheckContext) :
    (statements : List Statement) → (s : Checking) →
      s.Continues (checkStatements context statements s)
  | [], s => by
    unfold checkStatements
    exact (Grows.refl s).continues
  | statement :: rest, s => by
    unfold checkStatements
    exact (declares_checkStatement context statement s).continues.trans
      (continues_checkStatements context rest _)

theorem grows_checkBranches (context : CheckContext) :
    (branches : List Branch) → (s : Checking) → s.Grows [] (checkBranches context branches s)
  | [], s => by
    unfold checkBranches
    exact .refl s
  | .mk condition body _ :: rest, s => by
    unfold checkBranches
    have tested := grows_condition s context "If" condition
    have walked := ((nested_push (s.condition context "If" condition) "if" .branch).continues
      (continues_checkBlock context.inBlock body _)).close rfl
    exact (tested.trans walked).trans (grows_checkBranches context rest _)

end

/-- A block that is checked in a scope of its own leaves nothing but findings. -/
theorem grows_scopedBlock (context : CheckContext) (body : Block) (s : Checking) (name : String)
    (kind : ScopeKind) :
    s.Grows [] ((checkBlock context body (s.push name kind)).backTo s.store.depth) :=
  ((nested_push s name kind).continues (continues_checkBlock context body _)).close rfl

end Check

/-! ## Walks that find no error -/

namespace Checking

variable {s t : Checking} {added : Declarations}

/-- No error has been found so far. -/
def Clean (s : Checking) : Prop := Diagnostics.hasErrors s.diagnostics = false

theorem clean_note_iff {found : List Diagnostic} :
    (s.note found).Clean ↔ s.Clean ∧ Diagnostics.hasErrors found = false := by
  simp [Clean, note, Diagnostics.hasErrors_append]

theorem clean_report_iff {error : SemanticError} {span : Span} :
    (s.report error span).Clean ↔ s.Clean ∧ error.isWarning = true := by
  rw [report, clean_note_iff]
  simp [Diagnostics.hasErrors, Diagnostic.isError]

/-- An error is never overlooked. -/
theorem not_clean_report {error : SemanticError} {span : Span} (serious : error.isWarning = false) :
    ¬ (s.report error span).Clean := by
  rw [clean_report_iff, serious]
  exact fun reported => absurd reported.2 Bool.false_ne_true

theorem Grows.clean (grown : s.Grows added t) (clean : t.Clean) : s.Clean := by
  obtain ⟨found, diagnostics⟩ := grown.findings
  rw [Clean, diagnostics, Diagnostics.hasErrors_append, Bool.or_eq_false_iff] at clean
  exact clean.1

theorem Continues.clean (onward : s.Continues t) (clean : t.Clean) : s.Clean :=
  let ⟨_, grown⟩ := onward
  grown.clean clean

theorem Nested.clean (nested : s.Nested t) (clean : t.Clean) : s.Clean := by
  obtain ⟨found, diagnostics⟩ := nested.findings
  rw [Clean, diagnostics, Diagnostics.hasErrors_append, Bool.or_eq_false_iff] at clean
  exact clean.1

/-- A name that is declared without an error was not bound in the innermost scope. -/
theorem fresh_of_clean_declare {name : Identifier} {symbol : Symbol} {atRuntime : Bool}
    (clean : (s.declare name symbol atRuntime).Clean) :
    s.store.current.symbols.contains name.name = false := by
  cases taken : s.store.current.symbols.contains name.name with
  | false => rfl
  | true =>
    rw [declare_of_taken symbol atRuntime taken] at clean
    exact absurd clean (not_clean_report rfl)

theorem function_of_clean {name : Identifier} {symbol : FunctionSymbol}
    (clean : (s.function name symbol).Clean) :
    s.function name symbol = s.declare name (.function symbol) false := by
  unfold function at clean ⊢
  split at clean
  · exact absurd clean (not_clean_report rfl)
  · exact absurd clean (not_clean_report rfl)
  · rfl

theorem grows_declare_of_clean {name : Identifier} {symbol : Symbol} {atRuntime : Bool}
    (clean : (s.declare name symbol atRuntime).Clean) :
    s.Grows [(⟨name.name, atRuntime⟩, symbol)] (s.declare name symbol atRuntime) :=
  grows_declare_of_fresh symbol atRuntime (fresh_of_clean_declare clean)

end Checking

end CheckedScript
