import CheckedScript.Console.Transcript
import CheckedScript.Session

/-!
# Reports

How the errors and warnings about a source are told to whoever wrote it.
-/

namespace CheckedScript

/-- A finding about a source, with what is said at the place it points to. -/
structure Report where
  origin : String
  message : String
  label : Label
  help : Option String
deriving DecidableEq, Inhabited

namespace Report

def ofParseError (origin : String) (e : ParseError) : Report := ⟨origin, e.message, e.label, e.help⟩

def ofDiagnostic (origin : String) (d : Diagnostic) : Report :=
  ⟨origin, d.text, d.label, d.error.help⟩

def ofRuntimeError (origin : String) (e : RuntimeError) : Report :=
  ⟨origin, e.text, e.label, e.fault.help⟩

def text (r : Report) : String :=
  let finding := s!"{r.origin}: {r.message} (at byte {r.label.start}: {r.label.text})"
  match r.help with
  | some help => s!"{finding}\n  help: {help}"
  | none => finding

end Report

namespace Transcript

def ofDiagnostics (origin : String) (ds : List Diagnostic) : Transcript :=
  ds.foldl (fun front d => front ++ reported (Report.ofDiagnostic origin d).text) empty

/-- Shows a failure. What a run had printed before it failed comes first. -/
def ofSessionError (origin : String) : SessionError → Transcript
  | .parse e => reported (Report.ofParseError origin e).text
  | .check ds => ofDiagnostics origin ds ++ reported (Diagnostics.summary ds)
  | .runtime e output =>
    lineUnlessEmpty output ++ reported (Report.ofRuntimeError origin e).text

end Transcript

end CheckedScript
