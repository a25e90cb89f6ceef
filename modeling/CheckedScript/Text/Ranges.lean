/-!
# Sets of characters as ranges

A set of characters is listed as ascending ranges of code points.
-/

namespace CheckedScript.Text

/-- Whether one of the ascending `ranges` covers the code point `n`. -/
def covers : (ranges : List (Nat × Nat)) → (n : Nat) → Bool
  | [], _ => false
  | (first, last) :: rest, n => decide (first ≤ n) && (decide (n ≤ last) || covers rest n)

end CheckedScript.Text
