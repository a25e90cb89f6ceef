import CheckedScript.Grammar.Rule
import CheckedScript.Source.Label

/-!
# Parse errors

The causes for which a text is no program, and the wording of each.
-/

namespace CheckedScript

inductive ParseError where
  /-- The text does not match the grammar; `expected` holds what would have gone on from `place`. -/
  | mismatch (place : Position) (expected : List String)
  /-- A concrete tree has another shape than its rule gives it; `none` stands for a missing part. -/
  | malformed (expected : String) (found : Option Grammar.Rule) (span : Span)
  | integerRange (literal : String) (span : Span)
  | floatFormat (literal : String) (span : Span)
  | unknownEscape (escape : String) (span : Span)
deriving DecidableEq, Inhabited

/-- Joins alternatives as `a, b or c`. -/
def joinAlternatives : List String → String
  | [] => ""
  | [only] => only
  | first :: rest => go first rest
where
  go (front : String) : List String → String
    | [] => front
    | [last] => front ++ " or " ++ last
    | next :: rest => go (front ++ ", " ++ next) rest

namespace ParseError

def message : ParseError → String
  | mismatch place _ => s!"Syntax error at line {place.line}, column {place.column}"
  | malformed expected _ _ => s!"Unexpected syntax: expected {expected}"
  | integerRange literal _ => s!"Invalid integer literal '{literal}'"
  | floatFormat literal _ => s!"Invalid float literal '{literal}'"
  | unknownEscape escape _ => s!"Invalid escape sequence '{escape}'"

def code : ParseError → String
  | mismatch _ _ => "bibi::parse::syntax_error"
  | malformed _ _ _ => "bibi::parse::unexpected_rule"
  | integerRange _ _ => "bibi::parse::invalid_integer"
  | floatFormat _ _ => "bibi::parse::invalid_float"
  | unknownEscape _ _ => "bibi::parse::invalid_escape"

def help : ParseError → Option String
  | mismatch _ _ => some "Check the syntax near the highlighted location"
  | malformed _ _ _ => none
  | integerRange _ _ => some "Integer literals must fit in a signed 64-bit integer"
  | floatFormat _ _ =>
    some "Float literals are written with digits on both sides of the point (e.g., 3.14)"
  | unknownEscape _ _ => some "Valid escape sequences: \\n, \\t, \\r, \\0, \\\\, \\\", \\'"

/-- The text that no expectation explains is called unexpected. -/
def label : ParseError → Label
  | mismatch place [] => ⟨"unexpected input", place.offset, 0⟩
  | mismatch place expected => ⟨"expected " ++ joinAlternatives expected, place.offset, 0⟩
  | malformed _ none span => .onSpan "found nothing" span
  | malformed _ (some rule) span => .onSpan ("found " ++ rule.description) span
  | integerRange _ span => .onSpan "invalid integer" span
  | floatFormat _ span => .onSpan "invalid float" span
  | unknownEscape _ span => .onSpan "invalid escape sequence" span

end ParseError

end CheckedScript
