import CheckedScript.Source.Position

/-!
# Spans of source text

A span keeps the byte offsets of its two ends, and the line and column of the first one.
-/

namespace CheckedScript

/-- A stretch of source text, from byte `start` up to byte `stop`. -/
structure Span where
  start : Nat
  stop : Nat
  line : Nat
  column : Nat
deriving DecidableEq, Inhabited

namespace Span

/-- The text between two places. -/
def between (start stop : Position) : Span := ⟨start.offset, stop.offset, start.line, start.column⟩

/-- The number of bytes covered; a span that ends before it starts covers none. -/
def size (s : Span) : Nat := s.stop - s.start

def isEmpty (s : Span) : Bool := s.size == 0

/-- The span that starts where `a` does and reaches the end of whichever of the two ends last. -/
def through (a b : Span) : Span := { a with stop := max b.stop a.stop }

@[simp] theorem through_start (a b : Span) : (a.through b).start = a.start := rfl

theorem stop_le_through_left (a b : Span) : a.stop ≤ (a.through b).stop := Nat.le_max_right ..

theorem stop_le_through_right (a b : Span) : b.stop ≤ (a.through b).stop := Nat.le_max_left ..

end Span

end CheckedScript
