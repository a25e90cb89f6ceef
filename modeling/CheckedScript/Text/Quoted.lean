import CheckedScript.Text.GraphemeExtend
import CheckedScript.Text.Printable

/-!
# Quoted text

Text as it is shown between quotes: the enclosing quote, the backslash, and whatever cannot be seen
on its own are written as escapes. `escapeStrict` writes every character outside printable ASCII as
an escape.
-/

namespace CheckedScript.Text

/-- The lower-case hexadecimal digits of `n`, the first one first. -/
def hexDigits (n : Nat) : List Char := Nat.toDigits 16 n

/-- The escape that names a character by its code point. -/
def codePointEscape (c : Char) : List Char := ['\\', 'u', '\x7b'] ++ hexDigits c.toNat ++ ['\x7d']

/-- How `c` is written between two characters `quote`. -/
def escapeChar (quote c : Char) : List Char :=
  if c = '\x00' then ['\\', '0']
  else if c = '\t' then ['\\', 't']
  else if c = '\r' then ['\\', 'r']
  else if c = '\n' then ['\\', 'n']
  else if c = '\\' ∨ c = quote then ['\\', c]
  else if isGraphemeExtend c || !isPrintable c then codePointEscape c
  else [c]

/-- A text between two characters `quote`. -/
def quotedBy (quote : Char) (text : List Char) : List Char :=
  quote :: text.flatMap (escapeChar quote) ++ [quote]

def quoteString (s : String) : String := .ofList (quotedBy '"' s.toList)

def quoteChar (c : Char) : String := .ofList (quotedBy '\'' [c])

/-- How `c` is written where only printable ASCII may stand. -/
def escapeStrict (c : Char) : List Char :=
  if c = '\t' then ['\\', 't']
  else if c = '\r' then ['\\', 'r']
  else if c = '\n' then ['\\', 'n']
  else if c = '\'' ∨ c = '"' ∨ c = '\\' then ['\\', c]
  else if ' ' ≤ c ∧ c ≤ '~' then [c]
  else codePointEscape c

end CheckedScript.Text
