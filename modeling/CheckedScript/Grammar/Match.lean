import CheckedScript.Grammar.Attempts
import CheckedScript.Grammar.Node
import CheckedScript.Grammar.Rules

/-!
# Matching

Matching a rule against a source text yields its concrete syntax tree, or fails and leaves the
furthest failures behind. Rules call each other, so a match is bounded by how deep such calls may
nest; a match that needs more depth is cut off, which is told apart from a failure. The bound that
`parse` chooses grows with the text: between two characters a rule can only call rules that come
later in a fixed order, so no match of the grammar is ever cut off.
-/

namespace CheckedScript.Grammar

/-- The outcome of matching at one place. -/
inductive Match where
  | success (nodes : List Node) (rest : Cursor) (attempts : Attempts)
  | failure (attempts : Attempts)
  | cutOff

namespace Match

/-- Goes on with `next` where `m` stopped, and keeps the nodes of both. -/
def andThen (m : Match) (next : Cursor → Attempts → Match) : Match :=
  match m with
  | success nodes rest attempts =>
    match next rest attempts with
    | success more rest attempts => success (nodes ++ more) rest attempts
    | other => other
  | other => other

/-- Tries `next` where `m` failed. -/
def orElse (m : Match) (next : Attempts → Match) : Match :=
  match m with
  | failure attempts => next attempts
  | other => other

/-- A match that neither reads nor tries anything. -/
def ofOption (start : Option Cursor) (attempts : Attempts) : Match :=
  match start with
  | some rest => success [] rest attempts
  | none => failure attempts

end Match

/-- How a rule is matched at a place, given the spacing around it. -/
abbrev RuleMatcher := Rule → Spacing → Cursor → Attempts → Match

/-- What separates two parts of a sequence. -/
def Spacing.gap : Spacing → Cursor → Cursor
  | .free, c => c.skipGap
  | _, c => c

/-- Matches `item` over and over, at most `limit` times, until it fails. The nodes found so far are
in `found`, the last one first. -/
def repeatMatch (item : Cursor → Attempts → Match) :
    (limit : Nat) → (found : List Node) → Cursor → Attempts → Match
  | 0, _, _, _ => .cutOff
  | limit + 1, found, start, attempts =>
    match item start attempts with
    | .success nodes rest attempts =>
      repeatMatch item limit (nodes.reverse ++ found) rest attempts
    | .failure attempts => .success found.reverse start attempts
    | .cutOff => .cutOff

/-- Matches a pattern, where `call` matches the rules in it and `limit` bounds its repetitions. -/
def Pattern.run (limit : Nat) (call : RuleMatcher) (spacing : Spacing) :
    Pattern → Cursor → Attempts → Match
  | .text characters, start, attempts => .ofOption (start.takeText characters) attempts
  | .satisfying test, start, attempts => .ofOption (start.takeIf test) attempts
  | .endOfText, start, attempts =>
    if start.rest.isEmpty then .success [] start attempts else .failure attempts
  | .rule name, start, attempts => call name spacing start attempts
  | .seq first second, start, attempts =>
    (first.run limit call spacing start attempts).andThen fun rest attempts =>
      second.run limit call spacing (spacing.gap rest) attempts
  | .alt first second, start, attempts =>
    (first.run limit call spacing start attempts).orElse fun attempts =>
      second.run limit call spacing start attempts
  | .many item, start, attempts =>
    match item.run limit call spacing start attempts with
    | .success nodes rest attempts =>
      repeatMatch (fun c a => item.run limit call spacing (spacing.gap c) a) limit nodes.reverse rest
        attempts
    | .failure attempts => .success [] start attempts
    | .cutOff => .cutOff
  | .optional item, start, attempts =>
    (item.run limit call spacing start attempts).orElse fun attempts => .success [] start attempts
  | .absent item, start, attempts =>
    match item.run limit call spacing start attempts with
    | .success _ _ _ => .failure attempts
    | .failure _ => .success [] start attempts
    | .cutOff => .cutOff

/-- The spacing inside a rule that stands where `outer` holds. -/
def Rule.innerSpacing (rule : Rule) (outer : Spacing) : Spacing :=
  match rule.spacing with
  | .free => outer
  | inner => inner

/-- Matches a rule whose calls nest at most `depth` deep. -/
def matchRule (limit : Nat) : (depth : Nat) → RuleMatcher
  | 0, _, _, _, _ => .cutOff
  | depth + 1, rule, outer, start, attempts =>
    let traced := decide (outer ≠ .sealed)
    match rule.pattern.run limit (matchRule limit depth) (rule.innerSpacing outer) start attempts with
    | .success nodes rest later =>
      .success (if traced then [.mk rule start rest nodes] else []) rest later
    | .failure later =>
      .failure (if traced then attempts.recordFailure later rule start.offset else later)
    | .cutOff => .cutOff

/-- The number of rules that can call each other without reading a character is below this. -/
def depthPerCharacter : Nat := 16

/-- Matches a rule against a whole text. -/
def matchText (rule : Rule) (text : List Char) : Match :=
  let size := text.length + 1
  matchRule size (depthPerCharacter * size) rule .free (.ofText text) .empty

end CheckedScript.Grammar
