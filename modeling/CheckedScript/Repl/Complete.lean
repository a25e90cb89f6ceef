/-!
# Complete input

Input that is typed over several lines is complete once its brackets are closed. Brackets in quotes
and in comments do not count, and a quote that is still open asks for more input.
-/

namespace CheckedScript

/-- What the text at hand stands inside of. -/
inductive QuoteState where
  | code
  | string
  | char
  | comment
deriving DecidableEq, Inhabited

/-- Reads `text` and returns how many more brackets were opened than closed, and what its end stands
inside of. -/
def scanBrackets : QuoteState → (depth : Int) → (text : List Char) → Int × QuoteState
  | state, depth, [] => (depth, state)
  | .comment, depth, c :: rest =>
    scanBrackets (if c = '\n' then .code else .comment) depth rest
  | .code, depth, '/' :: '/' :: rest => scanBrackets .comment depth rest
  | .code, depth, c :: rest =>
    if c = '"' then scanBrackets .string depth rest
    else if c = '\'' then scanBrackets .char depth rest
    else if c = '\x7b' ∨ c = '[' ∨ c = '(' then scanBrackets .code (depth + 1) rest
    else if c = '\x7d' ∨ c = ']' ∨ c = ')' then scanBrackets .code (depth - 1) rest
    else scanBrackets .code depth rest
  | state, depth, '\\' :: _ :: rest => scanBrackets state depth rest
  | .string, depth, c :: rest => scanBrackets (if c = '"' then .code else .string) depth rest
  | .char, depth, c :: rest => scanBrackets (if c = '\'' then .code else .char) depth rest

/-- Whether no bracket and no quote is left open. -/
def isInputComplete (input : String) : Bool :=
  let (depth, state) := scanBrackets .code 0 input.toList
  decide (depth ≤ 0) && state != .string && state != .char

end CheckedScript
