/-!
# Durations

A span of time, counted in nanoseconds. It is written in the largest of the units s, ms, µs and ns
that it reaches, with as many decimal places as it takes.
-/

namespace CheckedScript

structure Duration where
  nanoseconds : Nat
deriving DecidableEq, Inhabited

namespace Duration

instance : LE Duration := ⟨fun d e => d.nanoseconds ≤ e.nanoseconds⟩

instance (d e : Duration) : Decidable (d ≤ e) :=
  inferInstanceAs (Decidable (d.nanoseconds ≤ e.nanoseconds))

def zero : Duration := ⟨0⟩

def ofSeconds (n : Nat) : Duration := ⟨n * Nat.pow 10 9⟩

/-- A number stands for as many seconds. -/
instance : Coe Nat Duration := ⟨ofSeconds⟩

/-- The whole seconds of a duration. -/
def seconds (d : Duration) : Nat := d.nanoseconds / Nat.pow 10 9

theorem refl (d : Duration) : d ≤ d := Nat.le_refl d.nanoseconds

theorem trans {d e f : Duration} (first : d ≤ e) (second : e ≤ f) : d ≤ f :=
  Nat.le_trans first second

/-- The decimal places of `part` in `10 ^ places`, without the zeros at their end. -/
def placesOf : (places : Nat) → (part : Nat) → List Char
  | 0, _ => []
  | places + 1, part =>
    if part = 0 then []
    else (part / Nat.pow 10 places).digitChar :: placesOf places (part % Nat.pow 10 places)

/-- An amount of which `10 ^ places` make up one unit, written in that unit. -/
def inUnit (amount places : Nat) (unit : String) : String :=
  let fraction := match placesOf places (amount % Nat.pow 10 places) with
    | [] => []
    | digits => '.' :: digits
  toString (amount / Nat.pow 10 places) ++ .ofList fraction ++ unit

/-- A second and fifty milliseconds are `1.05s`, and no time at all is `0ns`. -/
def text (d : Duration) : String :=
  if Nat.pow 10 9 ≤ d.nanoseconds then inUnit d.nanoseconds 9 "s"
  else if Nat.pow 10 6 ≤ d.nanoseconds then inUnit d.nanoseconds 6 "ms"
  else if Nat.pow 10 3 ≤ d.nanoseconds then inUnit d.nanoseconds 3 "µs"
  else inUnit d.nanoseconds 0 "ns"

end Duration

end CheckedScript
