import CheckedScript.Number.Duration

/-!
# Limits on a run

How often a loop may run, how deep calls may nest, and how long a run may take. What the clock shows
while a program runs is an input of the run: a loop looks at it before each of its iterations and
learns whether the deadline has passed.
-/

namespace CheckedScript

structure Limits where
  /-- The iterations of one execution of a loop. -/
  maxIterations : Nat
  /-- The calls that may be active at one time. -/
  maxCallDepth : Nat
  /-- The time that a run may take. -/
  timeout : Duration
deriving DecidableEq, Inhabited

/-- The time that has gone by since a run started, each time that the run looks at its clock. -/
structure Clock where
  elapsed : Nat → Duration
  /-- No clock goes back. -/
  advances : ∀ n, elapsed n ≤ elapsed (n + 1)

/-- The clock of a run that takes no time. -/
def Clock.still : Clock := ⟨fun _ => .zero, fun _ => Duration.refl _⟩

/-- The answers that a run gets, one after the other, when it asks whether its deadline has
passed. -/
@[ext]
structure Deadline where
  passed : Nat → Bool
  /-- A deadline that has passed stays behind. -/
  stays : ∀ n, passed n = true → passed (n + 1) = true

namespace Deadline

/-- The answers that are left after the next one. -/
def later (d : Deadline) : Deadline := ⟨fun n => d.passed (n + 1), fun n => d.stays (n + 1)⟩

end Deadline

namespace Limits

def standard : Limits := ⟨1000, 256, .ofSeconds 5⟩

/-- The whole seconds that a run may take. -/
def timeoutSeconds (l : Limits) : Nat := l.timeout.seconds

/-- The deadline of a run that goes by this clock. It never passes if the timeout is longer than
anything that the clock comes to show. -/
def deadline (l : Limits) (clock : Clock) : Deadline where
  passed n := l.timeout ≤ clock.elapsed n
  stays n passed := by
    simp only [decide_eq_true_eq] at passed ⊢
    exact Duration.trans passed (clock.advances n)

end Limits

end CheckedScript
