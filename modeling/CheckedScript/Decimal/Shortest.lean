import CheckedScript.Decimal.Binary

/-!
# The shortest decimal that reads back

Every real number between the two midpoints around a float reads back as that float; a midpoint does
so iff the mantissa is even. The decimal chosen lies on the coarsest grid of multiples of a power of
ten that has a point between them. If two neighbouring points do, the one nearer to the float is
taken, and the greater one if they are equally near.
-/

namespace CheckedScript.Decimal

/-- The value `digits * 10 ^ scale`. -/
structure Scaled where
  digits : Nat
  scale : Int
deriving DecidableEq, Inhabited

/-- The numbers that read back as one float, in quarters of its last binary place. -/
structure Neighbourhood where
  lowest : Nat
  value : Nat
  highest : Nat
  exponent : Int
  closed : Bool

/-- Below a power of two floats lie twice as dense, unless the exponent is already the least. -/
def Neighbourhood.around (b : Binary) : Neighbourhood where
  lowest := 4 * b.mantissa - (if b.mantissa = 1 <<< 52 ∧ b.exponent ≠ -1074 then 1 else 2)
  value := 4 * b.mantissa
  highest := 4 * b.mantissa + 2
  exponent := b.exponent - 2
  closed := b.mantissa % 2 == 0

/-- Whether `point * unit` lies among the numbers `n * scale` of a neighbourhood. -/
def Neighbourhood.contains (n : Neighbourhood) (scale unit point : Nat) : Bool :=
  if n.closed then
    decide (n.lowest * scale ≤ point * unit) && decide (point * unit ≤ n.highest * scale)
  else
    decide (n.lowest * scale < point * unit) && decide (point * unit < n.highest * scale)

/-- The multiple of `10 ^ scale` that is chosen in a neighbourhood, if it holds one. -/
def Neighbourhood.pointOn? (n : Neighbourhood) (scale : Int) : Option Nat :=
  let factor := Nat.pow 10 (-scale).toNat <<< n.exponent.toNat
  let unit := Nat.pow 10 scale.toNat <<< (-n.exponent).toNat
  let below := n.value * factor / unit
  let above := below + 1
  match n.contains factor unit below, n.contains factor unit above with
  | true, true =>
    if 2 * (n.value * factor) < (below + above) * unit then some below else some above
  | true, false => some below
  | false, true => some above
  | false, false => none

/-- Searches ever finer grids, at most `steps` of them. -/
def Neighbourhood.search (n : Neighbourhood) : (steps : Nat) → (scale : Int) → Scaled
  | 0, scale => ⟨0, scale⟩
  | steps + 1, scale =>
    match n.pointOn? scale with
    | some digits => ⟨digits, scale⟩
    | none => n.search steps (scale - 1)

/-- A power of ten above the number: 0.30103 is just above the decimal logarithm of two. -/
def Binary.scaleAbove (b : Binary) : Int :=
  (b.exponent + (b.mantissa.log2 + 2 : Nat)) * 30103 / 100000 + 1

/-- The shortest decimal that reads back as the float `b`. Seventeen digits always suffice. -/
def shortest (b : Binary) : Scaled :=
  if b.mantissa = 0 then ⟨0, 0⟩ else (Neighbourhood.around b).search 24 b.scaleAbove

end CheckedScript.Decimal
