import CheckedScript.Proofs.Check.Transaction

/-!
# Functions that may end without a value

The check warns of a function that declares a return type and whose body may be left at its end. If
it warns of none, every function that the program registers is complete.
-/

namespace CheckedScript

open Check Checking

/-- The check has no missing `return` to warn of: the function yields nothing, or every path through
its body runs into a `return`. -/
def FunctionSymbol.IsComplete (f : FunctionSymbol) : Prop :=
  f.returnType = .void ∨ f.body.alwaysReturns = true

/-- No function is said to miss a `return`. -/
def Diagnostics.MissNoReturn (ds : List Diagnostic) : Prop :=
  ∀ d ∈ ds, ∀ function expected, d.error ≠ .missingReturn function expected

/-- This function is not said to miss a `return`. -/
def Diagnostics.Spare (ds : List Diagnostic) (f : FunctionSymbol) : Prop :=
  ∀ d ∈ ds, d.error ≠ .missingReturn f.name f.returnType

theorem Checking.Continues.spare {s t : Checking} {f : FunctionSymbol} (onward : s.Continues t)
    (spared : Diagnostics.Spare t.diagnostics f) : Diagnostics.Spare s.diagnostics f := by
  obtain ⟨added, grown⟩ := onward
  obtain ⟨found, noted⟩ := grown.findings
  exact fun d inside => spared d (noted ▸ List.mem_append_left _ inside)

variable {c : CheckContext} {s : Checking} {name : String} {f : FunctionSymbol}
  {program : Program} {store : Store}

/-- Each of some statements is checked, and nothing that is found then is lost. -/
theorem exists_checked_of_mem {statement : Statement} {statements : List Statement}
    (inside : statement ∈ statements) (c : CheckContext) (s : Checking) :
    ∃ s', (checkStatement c statement s').Continues (checkStatements c statements s) := by
  induction statements generalizing s with
  | nil => cases inside
  | cons first rest ih =>
    unfold checkStatements
    rcases List.mem_cons.mp inside with rfl | later
    · exact ⟨s, continues_checkStatements c rest _⟩
    · exact ih later _

/-- Every function of a program is checked where it is declared. -/
theorem exists_checked_of_registrations (registered : (name, .function f) ∈ program.registrations)
    (store : Store) :
    ∃ statement s, statement.registration? = some (name, .function f) ∧
      (checkStatement .topLevel statement s).Continues
        (checkStatements .topLevel program.statements (.start store)) := by
  obtain ⟨statement, inside, registers⟩ := List.mem_filterMap.mp registered
  obtain ⟨s, onward⟩ := exists_checked_of_mem inside .topLevel (.start store)
  exact ⟨statement, s, registers, onward⟩

theorem isComplete_of_checkStatement {statement : Statement} (top : c.isTopLevel = true)
    (spared : Diagnostics.Spare (checkStatement c statement s).diagnostics f)
    (registered : statement.registration? = some (name, .function f)) : f.IsComplete := by
  cases statement with
  | function identifier parameters returnType body span =>
    cases registered
    unfold checkStatement at spared
    rw [if_pos top] at spared
    dsimp only at spared
    split at spared
    · next sound => exact sound
    · exact absurd rfl (spared _ (List.mem_append_right _ (List.mem_singleton_self _)))
  | _ => cases registered

/-- A function of the program that the check does not warn of is complete. -/
theorem isComplete_of_spared (spared : Diagnostics.Spare (checkProgram program store).diagnostics f)
    (registered : (name, .function f) ∈ program.registrations) : f.IsComplete := by
  obtain ⟨statement, s, registers, onward⟩ := exists_checked_of_registrations registered store
  rw [diagnostics_checkProgram] at spared
  exact isComplete_of_checkStatement rfl (onward.spare spared) registers

/-- If the check misses no `return`, the functions of the program are complete. -/
theorem isComplete_of_registrations
    (complete : Diagnostics.MissNoReturn (checkProgram program store).diagnostics)
    (registered : (name, .function f) ∈ program.registrations) : f.IsComplete :=
  isComplete_of_spared (fun d inside => complete d inside _ _) registered

end CheckedScript
