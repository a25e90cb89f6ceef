/-!
# Floats as binary numbers

A finite float is a sign and a natural number times a power of two.
-/

namespace CheckedScript.Decimal

/-- The value `mantissa * 2 ^ exponent`. -/
structure Binary where
  mantissa : Nat
  exponent : Int
deriving DecidableEq, Inhabited

/-- What a float stands for. -/
inductive Parts where
  | nan
  | infinite (negative : Bool)
  | finite (negative : Bool) (magnitude : Binary)
deriving DecidableEq, Inhabited

/-- Reads the sign, the exponent and the fraction from the 64 bits of a float. A zero exponent field
has no hidden leading bit. -/
def Parts.ofBits (bits : Nat) : Parts :=
  let negative := bits.testBit 63
  let exponent : Nat := (bits >>> 52) % 2048
  let fraction := bits % (1 <<< 52)
  if exponent = 2047 then if fraction = 0 then .infinite negative else .nan
  else if exponent = 0 then .finite negative ⟨fraction, -1074⟩
  else .finite negative ⟨fraction + (1 <<< 52), (exponent : Int) - 1075⟩

def Parts.ofFloat (x : Float) : Parts := .ofBits x.toBits.toNat

namespace Binary

/-- The whole number that a binary number is equal to, if it is one. -/
def natValue? (b : Binary) : Option Nat :=
  if 0 ≤ b.exponent then some (b.mantissa <<< b.exponent.toNat)
  else
    let divisor := 1 <<< (-b.exponent).toNat
    if b.mantissa % divisor = 0 then some (b.mantissa / divisor) else none

end Binary

end CheckedScript.Decimal
