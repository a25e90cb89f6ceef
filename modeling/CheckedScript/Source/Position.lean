/-!
# Places in a source text

A place counts the bytes before it and names the line and column that a reader sees. A line feed
ends a line; every other character, a carriage return included, is one column wide.
-/

namespace CheckedScript

/-- A place in a source text: bytes before it, and line and column counted from one. -/
structure Position where
  offset : Nat
  line : Nat
  column : Nat
deriving DecidableEq, Inhabited

namespace Position

/-- The place before the first character. -/
def origin : Position := ⟨0, 1, 1⟩

/-- The place after reading `c` at `p`. -/
def advance (p : Position) (c : Char) : Position :=
  if c = '\n' then ⟨p.offset + c.utf8Size, p.line + 1, 1⟩
  else ⟨p.offset + c.utf8Size, p.line, p.column + 1⟩

/-- The place after reading a whole text. -/
def advanceBy (p : Position) (text : List Char) : Position := text.foldl advance p

@[simp] theorem advance_offset (p : Position) (c : Char) :
    (p.advance c).offset = p.offset + c.utf8Size := by
  unfold advance; split <;> rfl

@[simp] theorem advanceBy_nil (p : Position) : p.advanceBy [] = p := rfl

@[simp] theorem advanceBy_cons (p : Position) (c : Char) (text : List Char) :
    p.advanceBy (c :: text) = (p.advance c).advanceBy text := rfl

theorem advanceBy_append (p : Position) (front back : List Char) :
    p.advanceBy (front ++ back) = (p.advanceBy front).advanceBy back := by
  simp [advanceBy]

end Position

end CheckedScript
