import CheckedScript.Source.Span

/-!
# Labels

A label is a short text attached to a stretch of source text, as a report of an error shows it.
-/

namespace CheckedScript

structure Label where
  text : String
  start : Nat
  size : Nat
deriving DecidableEq, Inhabited

def Label.onSpan (text : String) (span : Span) : Label := ⟨text, span.start, span.size⟩

end CheckedScript
