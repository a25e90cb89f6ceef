import CheckedScript.Grammar.Rule

/-!
# Patterns

A pattern says what a stretch of source text has to look like. Choice is ordered: the second
alternative is tried only where the first one fails, and repetition takes as much as it can.
-/

namespace CheckedScript.Grammar

inductive Pattern where
  /-- Exactly these characters. -/
  | text (characters : List Char)
  /-- One character that passes a test. -/
  | satisfying (test : Char → Bool)
  | endOfText
  /-- A stretch that matches another rule. -/
  | rule (name : Rule)
  | seq (first second : Pattern)
  | alt (first second : Pattern)
  /-- As many repetitions as there are, or none. -/
  | many (item : Pattern)
  | optional (item : Pattern)
  /-- Nothing, where the item does not match. -/
  | absent (item : Pattern)

namespace Pattern

instance : Append Pattern := ⟨seq⟩

instance : OrElse Pattern := ⟨fun first second => alt first (second ())⟩

/-- Exactly the characters of `s`. -/
def word (s : String) : Pattern := text s.toList

/-- Nothing. In front of a sequence it stands for the blanks that may precede its first part. -/
def nothing : Pattern := text []

def anyChar : Pattern := satisfying fun _ => true

/-- At least one repetition. -/
def oneOrMore (item : Pattern) : Pattern := item ++ many item

/-- An item and further items after commas. -/
def commaSeparated (item : Pattern) : Pattern := item ++ many (word "," ++ item)

/-- The first of several words that matches. -/
def anyWord : List String → Pattern
  | [] => absent nothing
  | [s] => word s
  | s :: rest => alt (word s) (anyWord rest)

end Pattern

/-- How the rules treat blanks and comments, and whether what they match is kept. -/
inductive Spacing where
  /-- Blanks and comments may stand between the parts of a sequence. -/
  | free
  /-- Nothing stands between the parts, and the rules matched inside are kept. -/
  | tight
  /-- Nothing stands between the parts, and the rules matched inside leave no trace. -/
  | sealed
deriving DecidableEq, Inhabited

end CheckedScript.Grammar
