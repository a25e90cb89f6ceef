import CheckedScript.Proofs.Check.Growth
import CheckedScript.Proofs.Store.Outline

/-!
# What statements declare

A statement that is checked without an error declares exactly what it says: a variable or a record,
which is bound again when the statement is executed, or, at the top level, a function or a record
type, which stays.
-/

namespace CheckedScript

namespace Statement

/-- What a statement of a program binds for good once the program has passed its check. -/
def registration? : Statement → Option (String × Symbol)
  | function name parameters returnType body _ =>
    some (name.name, .function ⟨name.name,
      parameters.map fun p => ⟨p.name.name, .ofTypeName p.type⟩, .ofReturnType returnType, body⟩)
  | recordType name fields _ =>
    some (name.name, .recordType ⟨name.name,
      fields.map fun field => (field.name.name, .ofTypeName field.type)⟩)
  | _ => none

/-- The name that a statement binds when it is executed. -/
def runtimeName? : Statement → Option String
  | «variable» _ name _ _ | recordInstance _ name _ => some name.name
  | _ => none

/-- What the check of a statement binds in the innermost scope of this store. -/
def declarations (store : Store) : Statement → Declarations
  | «variable» type name _ _ =>
    [(⟨name.name, true⟩, .variable (.ofTypeName type) (Ty.ofTypeName type).defaultValue)]
  | recordInstance type name _ =>
    match store.lookup? type.name with
    | some (.recordType r) => [(⟨name.name, true⟩, .recordInstance r.instantiate)]
    | _ => []
  | statement => statement.registration?.toList.map fun b => (⟨b.1, false⟩, b.2)

theorem not_isData_of_registration? {statement : Statement} {b : String × Symbol}
    (registered : statement.registration? = some b) : ¬ b.2.IsData := by
  cases statement with
  | function | recordType =>
    cases registered
    exact id
  | _ => cases registered

theorem mem_declarations_of_registration? {statement : Statement} {b : String × Symbol}
    (registered : statement.registration? = some b) (store : Store) :
    b ∈ (statement.declarations store).bindings := by
  cases statement with
  | function | recordType =>
    cases registered
    exact List.mem_cons_self
  | _ => cases registered

/-- What is bound again at run time is a variable or a record, by the name that the statement
binds. -/
theorem of_declared_atRuntime (statement : Statement) {store : Store}
    {d : DeclaredGlobal × Symbol} (inside : d ∈ statement.declarations store)
    (runtime : d.1.atRuntime = true) : statement.runtimeName? = some d.1.name ∧ d.2.IsData := by
  cases statement with
  | «variable» =>
    rw [List.mem_singleton.mp inside]
    exact ⟨rfl, trivial⟩
  | recordInstance =>
    unfold declarations at inside
    dsimp only at inside
    split at inside
    · rw [List.mem_singleton.mp inside]
      exact ⟨rfl, trivial⟩
    · cases inside
  | function | recordType =>
    rw [List.mem_singleton.mp inside] at runtime
    cases runtime
  | _ => cases inside

end Statement

namespace Checking

variable {s : Checking}

/-- The fields of a record type without repetition are all of its declarators. -/
theorem fields_of_clean {record : String} {declarators : List Declarator} {bound : Bindings Ty}
    (clean : (fields record declarators (bound, s)).2.Clean) :
    (fields record declarators (bound, s)).1 =
      bound ++ declarators.map fun field => (field.name.name, .ofTypeName field.type) := by
  induction declarators generalizing bound s with
  | nil => simp [fields]
  | cons field rest ih =>
    unfold fields at clean ⊢
    split at clean
    · have reported := (grows_fields record rest bound _).clean clean
      exact absurd reported (not_clean_report rfl)
    · next unbound =>
      rw [if_neg unbound, ih clean]
      simp [Bindings.append]

end Checking

namespace Check

open Checking

variable {context : CheckContext} {s : Checking} {statement : Statement}

/-- Without an error, a statement declares what it says and nothing else. -/
theorem grows_declarations (clean : (checkStatement context statement s).Clean) :
    s.Grows (statement.declarations s.store) (checkStatement context statement s) := by
  have declared := declares_checkStatement context statement s
  cases statement with
  | «variable» type name initializer span =>
    unfold checkStatement declaration at clean ⊢
    cases initializer with
    | none => exact grows_declare_of_clean clean
    | some e =>
      exact ((grows_typeOf s context e).trans (grows_expect ..)).trans (grows_declare_of_clean clean)
  | recordInstance type name span =>
    unfold checkStatement recordInstance at clean ⊢
    split at clean
    · next r found =>
      simp only [Statement.declarations, found]
      exact grows_declare_of_clean clean
    · exact absurd clean (not_clean_report rfl)
  | recordType name declarators span =>
    unfold checkStatement recordType at clean ⊢
    split at clean
    · next top =>
      rw [if_pos top]
      have listed := fields_of_clean ((declares_declare ..).continues.clean clean)
      have grown := (grows_fields name.name declarators [] s).trans (grows_declare_of_clean clean)
      rw [listed] at grown
      simpa [Statement.declarations, Statement.registration?, listed] using grown
    · exact absurd clean (not_clean_report rfl)
  | function name parameters returnType body span =>
    by_cases top : context.isTopLevel = true
    · have walked : (s.function name (functionSymbol name parameters (.ofReturnType returnType)
          body)).Grows [] (checkStatement context (.function name parameters returnType body span)
            s) :=
        grows_checkFunction top fun context s => continues_checkBlock context body s
      have declaredClean := walked.clean clean
      rw [function_of_clean declaredClean] at walked declaredClean
      have grown := (grows_declare_of_clean declaredClean).trans walked
      rwa [List.append_nil] at grown
    · unfold checkStatement at clean
      rw [if_neg top] at clean
      exact absurd clean (not_clean_report rfl)
  | _ => exact declared.grows_of_none

/-- Functions and record types are declared at the top level only. -/
theorem registration?_eq_none_of_nested (nested : context.isTopLevel = false)
    (clean : (checkStatement context statement s).Clean) : statement.registration? = none := by
  cases statement with
  | function name parameters returnType body span =>
    unfold checkStatement at clean
    rw [if_neg (by simp [nested])] at clean
    exact absurd clean (not_clean_report rfl)
  | recordType name declarators span =>
    unfold checkStatement recordType at clean
    rw [if_neg (by simp [nested])] at clean
    exact absurd clean (not_clean_report rfl)
  | _ => rfl

/-- Without an error, a statement that binds a name at run time has declared it. -/
theorem mem_declarations_of_runtimeName? (clean : (checkStatement context statement s).Clean)
    {name : String} (runtimeName : statement.runtimeName? = some name) :
    ⟨name, true⟩ ∈ (statement.declarations s.store).map Prod.fst := by
  cases statement with
  | «variable» type name initializer span =>
    cases runtimeName
    simp [Statement.declarations]
  | recordInstance type name span =>
    cases runtimeName
    unfold checkStatement recordInstance at clean
    split at clean
    · next r found => simp [Statement.declarations, found]
    · exact absurd clean (not_clean_report rfl)
  | _ => cases runtimeName

end Check

end CheckedScript
