import CheckedScript.Check.Statement

/-!
# Checking programs

A program is checked as a whole before any of it runs. If it passes, its functions and record types
stay declared, while the variables and records that its statements declare again when they run are
removed. If it does not pass, every global name it declared is removed.
-/

namespace CheckedScript

/-- The store that a check leaves behind, and its findings. -/
structure CheckResult where
  store : Store
  diagnostics : List Diagnostic

/-- Whether the program may run. -/
def CheckResult.passed (r : CheckResult) : Bool := !Diagnostics.hasErrors r.diagnostics

def removeGlobals (s : Store) (globals : List DeclaredGlobal) : Store :=
  globals.foldl (fun s g => s.removeGlobal g.name) s

def checkProgram (program : Program) (store : Store) : CheckResult :=
  let s := Check.checkStatements .topLevel program.statements (.start store)
  let left := s.store.truncate store.depth
  if Diagnostics.hasErrors s.diagnostics then ⟨removeGlobals left s.globals, s.diagnostics⟩
  else ⟨removeGlobals left (s.globals.filter (·.atRuntime)), s.diagnostics⟩

end CheckedScript
