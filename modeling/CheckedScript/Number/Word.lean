/-!
# Integers of the language

An integer is a signed 64-bit word. A result that does not fit is never wrapped: `Word.ofInt?`
refuses it.
-/

namespace CheckedScript

abbrev Word := Int64

namespace Word

/-- The word with the exact value `n`, if there is one. -/
def ofInt? (n : Int) : Option Word :=
  if Int64.minValue.toInt ≤ n ∧ n ≤ Int64.maxValue.toInt then some (.ofInt n) else none

theorem toInt_of_ofInt?_eq_some {n : Int} {w : Word} (h : ofInt? n = some w) : w.toInt = n := by
  unfold ofInt? at h
  split at h
  · next bounds =>
    cases h
    exact Int64.toInt_ofInt_of_le bounds.1 (Int.lt_add_one_of_le bounds.2)
  · cases h

theorem ofInt?_toInt (w : Word) : ofInt? w.toInt = some w := by
  have lower : Int64.minValue.toInt ≤ w.toInt := w.le_toInt
  have upper : w.toInt ≤ Int64.maxValue.toInt := Int.le_of_lt_add_one w.toInt_lt
  unfold ofInt?
  rw [if_pos ⟨lower, upper⟩, Int64.ofInt_toInt]

end Word

/-- The number that a run of decimal digits writes. -/
def decimalNat (digits : List Char) : Nat :=
  digits.foldl (fun n c => 10 * n + (c.toNat - '0'.toNat)) 0

end CheckedScript
