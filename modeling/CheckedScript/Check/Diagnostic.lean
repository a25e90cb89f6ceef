import CheckedScript.Check.Error
import CheckedScript.Source.Label

/-!
# Diagnostics

The findings of one check, in the order in which they were made. An error forbids that the program
is run, a warning does not.
-/

namespace CheckedScript

/-- A finding and the source text it is about. -/
structure Diagnostic where
  error : SemanticError
  span : Span
deriving DecidableEq, Inhabited

namespace Diagnostic

def isError (d : Diagnostic) : Bool := !d.error.isWarning

def severity (d : Diagnostic) : String := if d.isError then "error" else "warning"

def text (d : Diagnostic) : String :=
  s!"[{d.error.category}] Line {d.span.line}:{d.span.column} - {d.error.message}"

def label (d : Diagnostic) : Label := .onSpan d.error.category.toLower d.span

end Diagnostic

namespace Diagnostics

def hasErrors (ds : List Diagnostic) : Bool := ds.any Diagnostic.isError

def errors (ds : List Diagnostic) : List Diagnostic := ds.filter Diagnostic.isError

def warnings (ds : List Diagnostic) : List Diagnostic := ds.filter fun d => !d.isError

/-- One line for each finding. -/
def text (ds : List Diagnostic) : String := "\n".intercalate (ds.map Diagnostic.text)

def counted (count : Nat) (word : String) : String :=
  if count = 1 then s!"{count} {word}" else s!"{count} {word}s"

/-- How many errors and warnings there are. -/
def summary (ds : List Diagnostic) : String :=
  counted (errors ds).length "error" ++ ", " ++ counted (warnings ds).length "warning"

theorem hasErrors_append (ds es : List Diagnostic) :
    hasErrors (ds ++ es) = (hasErrors ds || hasErrors es) := by
  simp [hasErrors]

theorem warnings_eq_self {ds : List Diagnostic} (passed : hasErrors ds = false) :
    warnings ds = ds := by
  simpa [warnings, hasErrors, List.filter_eq_self] using passed

end Diagnostics

end CheckedScript
