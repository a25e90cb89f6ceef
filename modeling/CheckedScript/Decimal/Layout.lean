import CheckedScript.Decimal.Shortest

/-!
# Writing floats

Two ways of writing a float. `plain` never uses an exponent, and writes a whole number exactly with
one zero after the point. `general` keeps to the shortest digits and uses an exponent for magnitudes
from `10 ^ 16` upwards and below `10 ^ -4`.
-/

namespace CheckedScript.Decimal

namespace Scaled

/-- The digits with the point in its place; a whole number gets no point. -/
def positional (d : Scaled) : String :=
  let digits := (toString d.digits).toList
  if 0 ≤ d.scale then .ofList (digits ++ List.replicate d.scale.toNat '0')
  else
    let places := (-d.scale).toNat
    let padded := List.replicate (places + 1 - digits.length) '0' ++ digits
    let whole := padded.length - places
    .ofList (padded.take whole ++ '.' :: padded.drop whole)

/-- The exponent of the first digit. -/
def leadingExponent (d : Scaled) : Int := d.scale + (toString d.digits).length - 1

/-- The first digit, a point and the other digits if there are any, and the exponent. -/
def scientific (d : Scaled) : String :=
  let exponent := "e" ++ toString d.leadingExponent
  match (toString d.digits).toList with
  | [] => exponent
  | [only] => .singleton only ++ exponent
  | first :: rest => .ofList (first :: '.' :: rest) ++ exponent

end Scaled

def sign (negative : Bool) : String := if negative then "-" else ""

/-- The text of a float in printed output. -/
def plain (x : Float) : String :=
  match Parts.ofFloat x with
  | .nan => "NaN"
  | .infinite negative => sign negative ++ "inf"
  | .finite negative b =>
    match b.natValue? with
    | some n => sign negative ++ toString n ++ ".0"
    | none => sign negative ++ (shortest b).positional

/-- Whether the exponent of the first digit asks for scientific notation. -/
def needsExponent (d : Scaled) : Bool :=
  d.digits != 0 && (decide (16 ≤ d.leadingExponent) || decide (d.leadingExponent < -4))

/-- The text of a float in a syntax tree. -/
def general (x : Float) : String :=
  match Parts.ofFloat x with
  | .nan => "NaN"
  | .infinite negative => sign negative ++ "inf"
  | .finite negative b =>
    let d := shortest b
    if needsExponent d then sign negative ++ d.scientific
    else if 0 ≤ d.scale then sign negative ++ d.positional ++ ".0"
    else sign negative ++ d.positional

end CheckedScript.Decimal
