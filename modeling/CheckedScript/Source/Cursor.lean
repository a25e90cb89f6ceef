import CheckedScript.Source.Position

/-!
# Reading a source text

A cursor is the text that is still unread together with the place where it starts. Blanks and
comments may stand between any two tokens, and `Cursor.skipGap` passes over them.
-/

namespace CheckedScript

/-- The unread part of a source text and the place where it starts. -/
structure Cursor where
  rest : List Char
  position : Position
deriving DecidableEq, Inhabited

namespace Cursor

/-- The cursor before the first character of `text`. -/
def ofText (text : List Char) : Cursor := ⟨text, .origin⟩

def offset (c : Cursor) : Nat := c.position.offset

/-- Reads one character that passes `test`. -/
def takeIf (test : Char → Bool) : Cursor → Option Cursor
  | ⟨[], _⟩ => none
  | ⟨c :: rest, position⟩ => if test c then some ⟨rest, position.advance c⟩ else none

/-- Reads exactly the characters of `text`. -/
def takeText : (text : List Char) → Cursor → Option Cursor
  | [], cursor => some cursor
  | _ :: _, ⟨[], _⟩ => none
  | expected :: text, ⟨c :: rest, position⟩ =>
    if c = expected then takeText text ⟨rest, position.advance c⟩ else none

/-- The characters of `text` that fill the first `bytes` bytes. -/
def takeBytes : (bytes : Nat) → (text : List Char) → List Char
  | 0, _ => []
  | _ + 1, [] => []
  | bytes + 1, c :: text => c :: takeBytes (bytes + 1 - c.utf8Size) text
termination_by structural _ text => text

/-- The text read between `start` and `stop`. -/
def textUpTo (start stop : Cursor) : List Char := takeBytes (stop.offset - start.offset) start.rest

/-- Space, tab, carriage return and line feed. -/
def isBlank (c : Char) : Bool := c = ' ' || c = '\t' || c = '\r' || c = '\n'

/-- Passes over blanks and `//` comments. A comment runs up to the end of its line; `inComment` says
whether the unread text stands inside one. -/
def skipGapFrom : (inComment : Bool) → (rest : List Char) → Position → Cursor
  | _, [], position => ⟨[], position⟩
  | true, c :: rest, position => skipGapFrom (c ≠ '\n') rest (position.advance c)
  | false, c :: rest, position =>
    if isBlank c then skipGapFrom false rest (position.advance c)
    else match c, rest with
      | '/', '/' :: rest => skipGapFrom true rest ((position.advance '/').advance '/')
      | c, rest => ⟨c :: rest, position⟩

def skipGap (c : Cursor) : Cursor := skipGapFrom false c.rest c.position

end Cursor

end CheckedScript
