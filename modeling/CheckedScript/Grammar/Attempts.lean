import CheckedScript.Grammar.Rule

/-!
# Furthest failures

A syntax error is reported at the furthest place where a rule was tried in vain, and names the rules
that were tried there. A rule replaces the attempts made inside it, unless exactly one was made
there: then that one says more than the rule itself.
-/

namespace CheckedScript.Grammar

/-- The furthest place where rules failed, in bytes, and those rules in the order they failed. -/
structure Attempts where
  furthest : Nat
  rules : List Rule
deriving DecidableEq, Inhabited

namespace Attempts

def empty : Attempts := ⟨0, []⟩

/-- How many attempts are recorded at `place`. -/
def countAt (a : Attempts) (place : Nat) : Nat :=
  if a.furthest = place then a.rules.length else 0

/-- Records that `rule` failed at `place`, where `earlier` is the record from before it was tried
and `later` the record that its parts have left. -/
def recordFailure (earlier later : Attempts) (rule : Rule) (place : Nat) : Attempts :=
  if later.countAt place = earlier.countAt place + 1 then later
  else if later.furthest = place then
    ⟨place, later.rules.take (earlier.countAt place) ++ [rule]⟩
  else if later.furthest < place then ⟨place, [rule]⟩
  else later

/-- The record never moves backwards. -/
theorem le_furthest_recordFailure (earlier later : Attempts) (rule : Rule) (place : Nat) :
    later.furthest ≤ (recordFailure earlier later rule place).furthest := by
  unfold recordFailure
  split
  · exact Nat.le_refl _
  · split
    · next h => exact Nat.le_of_eq h
    · split
      · next h => exact Nat.le_of_lt h
      · exact Nat.le_refl _

end Attempts

end CheckedScript.Grammar
