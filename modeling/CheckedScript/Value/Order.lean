import CheckedScript.Value.Basic

/-!
# Comparing values

Values of one kind are ordered, and numbers of both kinds are ordered together. Arrays are ordered
by the first element in which they differ; an array comes after each of its proper beginnings.
Values of different kinds, a NaN, and `null` have no order.
-/

namespace CheckedScript.Value

/-- The order of two floats, if neither is a NaN. -/
def compareFloats (x y : Float) : Option Ordering :=
  if x < y then some .lt
  else if x == y then some .eq
  else if y < x then some .gt
  else none

mutual

def compare? : Value → Value → Option Ordering
  | int a, int b => some (compare a.toInt b.toInt)
  | int a, float b => compareFloats a.toFloat b
  | float a, int b => compareFloats a b.toFloat
  | float a, float b => compareFloats a b
  | str a, str b => some (compare a b)
  | char a, char b => some (compare a b)
  | bool a, bool b => some (compare a b)
  | array a, array b => compareElements? a b
  | _, _ => none

def compareElements? : List Value → List Value → Option Ordering
  | [], [] => some .eq
  | [], _ :: _ => some .lt
  | _ :: _, [] => some .gt
  | a :: as, b :: bs =>
    match compare? a b with
    | some .eq => compareElements? as bs
    | other => other

end

mutual

/-- Equality of values as data: kinds are never mixed, and a NaN differs from itself. -/
def beq : Value → Value → Bool
  | int a, int b => a == b
  | float a, float b => a == b
  | str a, str b => a == b
  | char a, char b => a == b
  | bool a, bool b => a == b
  | array a, array b => beqElements a b
  | null, null => true
  | _, _ => false

def beqElements : List Value → List Value → Bool
  | [], [] => true
  | a :: as, b :: bs => beq a b && beqElements as bs
  | _, _ => false

end

instance : BEq Value := ⟨beq⟩

end CheckedScript.Value
