import CheckedScript.Proofs.Execution.Outcome
import CheckedScript.Proofs.Execution.Tandem
import Mathlib.Data.Set.Card

/-!
# The limits of a loop

One execution of a loop is told here by its own rounds alone: the condition held, and the body ended
in the normal way or with `continue`. The counter of the loop counts these rounds and nothing else, so
where no deadline passes the limit stops exactly the loop whose condition holds once more after as
many rounds as are allowed (`loop_valve_exact`). Behind its deadline a run starts no further round
of any loop (`executeLoop_of_passed`).
-/

namespace CheckedScript

namespace Run

variable {α : Type}

/-- The computation ends in this way, on some fuel that does not run out. -/
def Ends (x : Nat → Run α) (m : Machine) (ended : Except Unwind α × Machine) : Prop :=
  ended.1 ≠ .error .outOfFuel ∧ ∃ fuel, x fuel m = ended

/-- More fuel changes nothing about what has ended. -/
def Settled (x : Nat → Run α) : Prop := ∀ fuel more, fuel ≤ more → (x fuel).ExtendsTo (x more)

variable {x : Nat → Run α} {m : Machine} {ended ended' : Except Unwind α × Machine} {fuel : Nat}

theorem Ends.eventually (ends : Ends x m ended) (settled : Settled x) :
    ∃ enough, ∀ more, enough ≤ more → x more m = ended := by
  obtain ⟨sufficed, fuel, rfl⟩ := ends
  exact ⟨fuel, fun more enough => settled fuel more enough m sufficed⟩

theorem Ends.unique (ends : Ends x m ended) (ends' : Ends x m ended') (settled : Settled x) :
    ended = ended' := by
  obtain ⟨enough, same⟩ := ends.eventually settled
  obtain ⟨enough', same'⟩ := ends'.eventually settled
  have first := same (max enough enough') (Nat.le_max_left ..)
  exact first.symm.trans (same' (max enough enough') (Nat.le_max_right ..))

/-- Whatever fuel suffices, the end is the same. -/
theorem Ends.eq_of_sufficed (ends : Ends x m ended) (settled : Settled x)
    (sufficed : (x fuel m).1 ≠ .error .outOfFuel) : x fuel m = ended :=
  Ends.unique ⟨sufficed, fuel, rfl⟩ ends settled

/-- On the machines of this kind the computations end alike, and with a machine of this kind. -/
structure EndAlike (P : Machine → Prop) (x y : Nat → Run α) : Prop where
  same : ∀ m, P m → ∀ ended, Ends x m ended ↔ Ends y m ended
  keeps : ∀ m, P m → ∀ ended, Ends x m ended → P ended.2

theorem EndAlike.symm {P : Machine → Prop} {x y : Nat → Run α} (alike : EndAlike P x y) :
    EndAlike P y x where
  same m kind ended := (alike.same m kind ended).symm
  keeps m kind ended ends := alike.keeps m kind ended ((alike.same m kind ended).mpr ends)

end Run

/-- No deadline passes, however long the machine runs. -/
def Machine.Untimed (m : Machine) : Prop := m.deadline = .never

namespace Execution

open Run

/-! ## Rounds -/

/-- The condition has held and the body has ended in the normal way or with `continue`, so many times
one after the other. -/
inductive Rounds (test : Nat → Run Bool) (round : Nat → Run Signal) :
    Nat → Machine → Machine → Prop
  | none (m : Machine) : Rounds test round 0 m m
  | next {n : Nat} {m m₁ m₂ m₃ : Machine} {signal : Signal} (holds : Ends test m (.ok true, m₁))
      (done : Ends round m₁ (.ok signal, m₂)) (onward : signal = .normal ∨ signal = .continue)
      (rest : Rounds test round n m₂ m₃) : Rounds test round (n + 1) m m₃

/-- How a loop stops after so many rounds, if `allowed` are allowed and one more is refused with
`refusal`. -/
inductive Stops (test : Nat → Run Bool) (round : Nat → Run Signal) (allowed : Nat)
    (refusal : Unwind) (n : Nat) (m : Machine) : Except Unwind Signal × Machine → Prop
  | finished {m₁ : Machine} (fails : Ends test m (.ok false, m₁)) :
      Stops test round allowed refusal n m (.ok .normal, m₁)
  | unwound {m₁ : Machine} {u : Unwind} (raised : Ends test m (.error u, m₁)) :
      Stops test round allowed refusal n m (.error u, m₁)
  | broken {m₁ m₂ : Machine} (within : n < allowed) (holds : Ends test m (.ok true, m₁))
      (done : Ends round m₁ (.ok .break, m₂)) :
      Stops test round allowed refusal n m (.ok .normal, m₂)
  | returned {m₁ m₂ : Machine} {v : Value} (within : n < allowed)
      (holds : Ends test m (.ok true, m₁)) (done : Ends round m₁ (.ok (.return v), m₂)) :
      Stops test round allowed refusal n m (.ok (.return v), m₂)
  | unwoundBody {m₁ m₂ : Machine} {u : Unwind} (within : n < allowed)
      (holds : Ends test m (.ok true, m₁)) (raised : Ends round m₁ (.error u, m₂)) :
      Stops test round allowed refusal n m (.error u, m₂)
  | refused {m₁ : Machine} (all : n = allowed) (holds : Ends test m (.ok true, m₁)) :
      Stops test round allowed refusal n m (.error refusal, m₁)

section

variable {test test' : Nat → Run Bool} {round round' : Nat → Run Signal} {n k : Nat}
  {m m₁ m₂ m₃ : Machine}

theorem Rounds.append (first : Rounds test round n m m₁) (second : Rounds test round k m₁ m₂) :
    Rounds test round (n + k) m m₂ := by
  induction first with
  | none m => rwa [Nat.zero_add]
  | next holds done onward rest ih =>
    rw [Nat.add_right_comm]
    exact .next holds done onward (ih second)

theorem Rounds.split (rounds : Rounds test round (n + k) m m₂) :
    ∃ m₁, Rounds test round n m m₁ ∧ Rounds test round k m₁ m₂ := by
  induction n generalizing m with
  | zero => exact ⟨m, .none m, by rwa [Nat.zero_add] at rounds⟩
  | succ n ih =>
    rw [Nat.add_right_comm] at rounds
    cases rounds with
    | next holds done onward rest =>
      obtain ⟨m₁, first, second⟩ := ih rest
      exact ⟨m₁, .next holds done onward first, second⟩

theorem Rounds.unique (rounds : Rounds test round n m m₁) (rounds' : Rounds test round n m m₂)
    (settled : Settled test) (settled' : Settled round) : m₁ = m₂ := by
  induction rounds with
  | none m =>
    cases rounds'
    rfl
  | next holds done onward rest ih =>
    cases rounds' with
    | next holds' done' onward' rest' =>
      cases holds.unique holds' settled
      cases done.unique done' settled'
      exact ih rest'

variable {P : Machine → Prop} (tests : EndAlike P test test') (bodies : EndAlike P round round')

include tests bodies

/-- Only how the condition and the body end counts for the rounds. -/
theorem Rounds.congr (rounds : Rounds test round n m m₁) (begun : P m) :
    Rounds test' round' n m m₁ ∧ P m₁ := by
  induction rounds with
  | none m => exact ⟨.none m, begun⟩
  | next holds done onward rest ih =>
    have within := tests.keeps _ begun _ holds
    obtain ⟨further, ended⟩ := ih (bodies.keeps _ within _ done)
    have holds' := (tests.same _ begun _).mp holds
    have done' := (bodies.same _ within _).mp done
    exact ⟨.next holds' done' onward further, ended⟩

theorem Stops.congr {allowed : Nat} {refusal : Unwind} {ended : Except Unwind Signal × Machine}
    (stops : Stops test round allowed refusal n m ended) (begun : P m) :
    Stops test' round' allowed refusal n m ended := by
  have tested {ended : Except Unwind Bool × Machine} (ends : Ends test m ended) :
      Ends test' m ended := (tests.same m begun _).mp ends
  have known {m₁ : Machine} {ended : Except Unwind Signal × Machine}
      (holds : Ends test m (.ok true, m₁)) (ends : Ends round m₁ ended) : Ends round' m₁ ended :=
    (bodies.same m₁ (tests.keeps m begun _ holds) _).mp ends
  cases stops with
  | finished fails => exact .finished (tested fails)
  | unwound raised => exact .unwound (tested raised)
  | broken within holds done => exact .broken within (tested holds) (known holds done)
  | returned within holds done => exact .returned within (tested holds) (known holds done)
  | unwoundBody within holds raised => exact .unwoundBody within (tested holds) (known holds raised)
  | refused all holds => exact .refused all (tested holds)

end

/-! ## One execution of a loop -/

/-- The condition of a loop. -/
def loopTest (a : Activation) (condition : Expression) : Nat → Run Bool :=
  fun fuel => evaluateCondition fuel a condition

/-- The body of a loop, in its own scope. -/
def loopRound (a : Activation) (body : Block) : Nat → Run Signal :=
  fun fuel => Run.inScope "while" .loop (executeAll fuel a body.statements)

/-- How a loop is unwound that wants to run too often. -/
def loopRefusal (a : Activation) (span : Span) : Unwind :=
  a.unwinding (.loopLimitExceeded (.iterations a.limits.maxIterations)) span

section

variable (a : Activation) (condition : Expression) (body : Block) (span : Span)

theorem settled_loopTest : Settled (loopTest a condition) :=
  fun _ _ enough => (extendsAt enough).condition a condition

theorem settled_loopRound : Settled (loopRound a body) :=
  fun _ _ enough => ((extendsAt enough).executeAll a body.statements).inScope "while" .loop

theorem settled_executeLoop (completed : Nat) :
    Settled fun fuel => executeLoop fuel a condition body span completed :=
  fun _ _ enough => (extendsAt enough).loop a condition body span completed

end

variable {a : Activation} {condition : Expression} {body : Block} {span : Span}

theorem exceededLimit?_of_untimed {limits : Limits} {m : Machine} (untimed : m.Untimed)
    (completed : Nat) :
    exceededLimit? limits completed m =
      (.ok (if limits.maxIterations ≤ completed then some (.iterations limits.maxIterations)
        else none), m) := by
  obtain ⟨store, output, deadline⟩ := m
  obtain rfl : deadline = .never := untimed
  rw [exceededLimit?_apply]
  split <;> rfl

theorem untimed_of_ends_loopTest {m : Machine} {ended : Except Unwind Bool × Machine}
    (untimed : m.Untimed) (ends : Ends (loopTest a condition) m ended) : ended.2.Untimed := by
  obtain ⟨-, fuel, rfl⟩ := ends
  exact (leadsTo_perform ⟨fuel, a, .condition condition, m⟩).eq_always untimed

theorem untimed_of_ends_loopRound {m : Machine} {ended : Except Unwind Signal × Machine}
    (untimed : m.Untimed) (ends : Ends (loopRound a body) m ended) : ended.2.Untimed := by
  obtain ⟨-, fuel, rfl⟩ := ends
  exact (leadsTo_perform
    ⟨fuel, a, .executeAll body.statements, m.enter "while" .loop⟩).eq_always untimed

theorem untimed_of_round {m m₁ m₂ : Machine} {signal : Signal} (untimed : m.Untimed)
    (holds : Ends (loopTest a condition) m (.ok true, m₁))
    (done : Ends (loopRound a body) m₁ (.ok signal, m₂)) : m₂.Untimed :=
  untimed_of_ends_loopRound (untimed_of_ends_loopTest untimed holds) done

theorem Rounds.untimed {n : Nat} {m m₁ : Machine}
    (rounds : Rounds (loopTest a condition) (loopRound a body) n m m₁) (untimed : m.Untimed) :
    m₁.Untimed := by
  induction rounds with
  | none m => exact untimed
  | next holds done onward rest ih =>
    exact ih (untimed_of_round untimed holds done)

theorem executeLoop_succ {m : Machine} (untimed : m.Untimed) (fuel completed : Nat) :
    executeLoop (fuel + 1) a condition body span completed m =
      match loopTest a condition fuel m with
      | (.error u, m₁) => (.error u, m₁)
      | (.ok false, m₁) => (.ok .normal, m₁)
      | (.ok true, m₁) =>
        if a.limits.maxIterations ≤ completed then (.error (loopRefusal a span), m₁)
        else
          match loopRound a body fuel m₁ with
          | (.error u, m₂) => (.error u, m₂)
          | (.ok .break, m₂) => (.ok .normal, m₂)
          | (.ok (.return v), m₂) => (.ok (.return v), m₂)
          | (.ok _, m₂) => executeLoop fuel a condition body span (completed + 1) m₂ := by
  rw [executeLoop, bind_apply]
  unfold loopTest
  rcases tested : evaluateCondition fuel a condition m with ⟨u | (_ | _), m₁⟩
  · rfl
  · rfl
  · have holds : Ends (loopTest a condition) m (.ok true, m₁) := ⟨nofun, fuel, tested⟩
    have untimed₁ : m₁.Untimed := untimed_of_ends_loopTest untimed holds
    dsimp only
    rw [if_pos rfl, bind_apply, exceededLimit?_of_untimed untimed₁]
    by_cases all : a.limits.maxIterations ≤ completed
    · rw [if_pos all, if_pos all]
      rfl
    · rw [if_neg all, if_neg all]
      dsimp only
      rw [bind_apply]
      unfold loopRound
      rcases Run.inScope "while" .loop (executeAll fuel a body.statements) m₁ with
        ⟨u | (_ | _ | _ | _), m₂⟩ <;> rfl

/-- After so many completed rounds and as many further ones as are allowed at most, the loop stops in
this way. -/
def StopsFrom (a : Activation) (condition : Expression) (body : Block) (span : Span)
    (completed : Nat) (m : Machine) (ended : Except Unwind Signal × Machine) : Prop :=
  ∃ n m₁, completed + n ≤ a.limits.maxIterations ∧
    Rounds (loopTest a condition) (loopRound a body) n m m₁ ∧
    Stops (loopTest a condition) (loopRound a body) a.limits.maxIterations (loopRefusal a span)
      (completed + n) m₁ ended

section

variable {fuel completed : Nat} {m m₁ m₂ : Machine} {ended : Except Unwind Signal × Machine}

theorem StopsFrom.here (within : completed ≤ a.limits.maxIterations)
    (stops : Stops (loopTest a condition) (loopRound a body) a.limits.maxIterations
      (loopRefusal a span) completed m ended) :
    StopsFrom a condition body span completed m ended :=
  ⟨0, m, within, .none m, stops⟩

theorem StopsFrom.next {signal : Signal}
    (holds : Ends (loopTest a condition) m (.ok true, m₁))
    (done : Ends (loopRound a body) m₁ (.ok signal, m₂))
    (onward : signal = .normal ∨ signal = .continue)
    (rest : StopsFrom a condition body span (completed + 1) m₂ ended) :
    StopsFrom a condition body span completed m ended := by
  obtain ⟨n, m₃, within, rounds, stops⟩ := rest
  rw [Nat.add_right_comm, Nat.add_assoc] at within stops
  exact ⟨n + 1, m₃, within, .next holds done onward rounds, stops⟩

variable (untimed : m.Untimed)

include untimed

/-- A loop that does not run out of fuel stops. -/
theorem stopsFrom_executeLoop (within : completed ≤ a.limits.maxIterations)
    (sufficed : (executeLoop fuel a condition body span completed m).1 ≠ .error .outOfFuel) :
    StopsFrom a condition body span completed m
      (executeLoop fuel a condition body span completed m) := by
  induction fuel generalizing completed m with
  | zero => exact absurd rfl sufficed
  | succ fuel ih =>
    rw [executeLoop_succ untimed] at sufficed ⊢
    rcases tested : loopTest a condition fuel m with ⟨u | (_ | _), m₁⟩ <;>
      rw [tested] at sufficed <;> dsimp only at sufficed ⊢
    · exact .here within (.unwound ⟨by simpa using sufficed, fuel, tested⟩)
    · exact .here within (.finished ⟨nofun, fuel, tested⟩)
    have holds : Ends (loopTest a condition) m (.ok true, m₁) := ⟨nofun, fuel, tested⟩
    have untimed₂ {m₂ : Machine} {signal : Signal}
        (done : loopRound a body fuel m₁ = (.ok signal, m₂)) : m₂.Untimed := by
      have done' : Ends (loopRound a body) m₁ (.ok signal, m₂) := ⟨nofun, fuel, done⟩
      exact untimed_of_round untimed holds done'
    by_cases all : a.limits.maxIterations ≤ completed
    · rw [if_pos all]
      exact .here within (.refused (Nat.le_antisymm within all) holds)
    rw [if_neg all] at sufficed ⊢
    have fewer := Nat.lt_of_not_le all
    rcases done : loopRound a body fuel m₁ with ⟨u | (_ | v | _ | _), m₂⟩ <;>
      rw [done] at sufficed <;> dsimp only at sufficed ⊢
    · exact .here within (.unwoundBody fewer holds ⟨sufficed, fuel, done⟩)
    · exact .next holds ⟨nofun, fuel, done⟩ (.inl rfl) (ih (untimed₂ done) fewer sufficed)
    · exact .here within (.returned fewer holds ⟨nofun, fuel, done⟩)
    · exact .here within (.broken fewer holds ⟨nofun, fuel, done⟩)
    · exact .next holds ⟨nofun, fuel, done⟩ (.inr rfl) (ih (untimed₂ done) fewer sufficed)

omit untimed in
/-- Some fuel suffices for the condition and for the body after it. -/
theorem eventually_round {result : Except Unwind Signal}
    (holds : Ends (loopTest a condition) m (.ok true, m₁))
    (done : Ends (loopRound a body) m₁ (result, m₂)) :
    ∃ enough, ∀ more, enough ≤ more →
      loopTest a condition more m = (.ok true, m₁) ∧ loopRound a body more m₁ = (result, m₂) := by
  obtain ⟨enough, tested⟩ := holds.eventually (settled_loopTest a condition)
  obtain ⟨enough', known⟩ := done.eventually (settled_loopRound a body)
  refine ⟨max enough enough', fun more sufficient => ?_⟩
  exact ⟨tested more (le_of_max_le_left sufficient), known more (le_of_max_le_right sufficient)⟩

theorem ends_of_stops
    (stops : Stops (loopTest a condition) (loopRound a body) a.limits.maxIterations
      (loopRefusal a span) completed m ended) :
    Ends (fun fuel => executeLoop fuel a condition body span completed) m ended := by
  cases stops with
  | finished fails =>
    obtain ⟨-, fuel, tested⟩ := fails
    exact ⟨nofun, fuel + 1, by simp only [executeLoop_succ untimed, tested]⟩
  | unwound raised =>
    obtain ⟨sufficed, fuel, tested⟩ := raised
    exact ⟨by simpa using sufficed, fuel + 1, by simp only [executeLoop_succ untimed, tested]⟩
  | refused all holds =>
    obtain ⟨-, fuel, tested⟩ := holds
    refine ⟨?_, fuel + 1, by simp only [executeLoop_succ untimed, tested, if_pos all.ge]⟩
    exact fun same => a.unwinding_ne_outOfFuel _ span (Except.error.inj same)
  | broken within holds done =>
    obtain ⟨enough, known⟩ := eventually_round holds done
    obtain ⟨tested, known⟩ := known enough le_rfl
    exact ⟨nofun, enough + 1,
      by simp only [executeLoop_succ untimed, tested, if_neg within.not_ge, known]⟩
  | returned within holds done =>
    obtain ⟨enough, known⟩ := eventually_round holds done
    obtain ⟨tested, known⟩ := known enough le_rfl
    exact ⟨nofun, enough + 1,
      by simp only [executeLoop_succ untimed, tested, if_neg within.not_ge, known]⟩
  | unwoundBody within holds raised =>
    obtain ⟨enough, known⟩ := eventually_round holds raised
    obtain ⟨tested, known⟩ := known enough le_rfl
    exact ⟨raised.1, enough + 1,
      by simp only [executeLoop_succ untimed, tested, if_neg within.not_ge, known]⟩

/-- What the rounds and their end say of a loop is how it ends. -/
theorem StopsFrom.ends (stops : StopsFrom a condition body span completed m ended) :
    Ends (fun fuel => executeLoop fuel a condition body span completed) m ended := by
  obtain ⟨n, m₁, within, rounds, stops⟩ := stops
  induction n generalizing completed m with
  | zero =>
    cases rounds
    exact ends_of_stops untimed stops
  | succ n ih =>
    cases rounds with
    | @next _ _ m₁ m₂ _ signal holds done onward rest =>
      rw [← Nat.add_assoc, Nat.add_right_comm] at within stops
      have further := ih (untimed_of_round untimed holds done) within rest stops
      obtain ⟨enough, known⟩ := eventually_round holds done
      obtain ⟨enough', ran⟩ := further.eventually (settled_executeLoop a condition body span _)
      obtain ⟨tested, known⟩ := known (max enough enough') (Nat.le_max_left ..)
      refine ⟨further.1, max enough enough' + 1, ?_⟩
      have fewer : ¬ a.limits.maxIterations ≤ completed := by omega
      simp only [executeLoop_succ untimed, tested, if_neg fewer, known]
      rcases onward with rfl | rfl <;> exact ran _ (Nat.le_max_right ..)

/-- A loop does the rounds that are allowed and stops. -/
theorem ends_executeLoop_iff (within : completed ≤ a.limits.maxIterations) :
    Ends (fun fuel => executeLoop fuel a condition body span completed) m ended ↔
      StopsFrom a condition body span completed m ended := by
  refine ⟨?_, StopsFrom.ends untimed⟩
  rintro ⟨sufficed, fuel, rfl⟩
  exact stopsFrom_executeLoop untimed within sufficed

end

/-! ## The turns of one execution -/

/-- The second moment is a turn of the loop that the first one executes: its condition is due, at the
start or after a round of this execution. -/
inductive Turn : Moment → Moment → Prop
  | first {fuel : Nat} {a : Activation} {m : Machine} {condition : Expression} {body : Block}
      {span : Span} :
      Turn ⟨fuel + 1, a, .execute (.while condition body span), m⟩
        ⟨fuel, a, .loop condition body span 0, m⟩
  | again {x y z : Moment} {condition : Expression} {body : Block} {span : Span} {completed : Nat}
      (turn : Turn x y) (entered : Enters y z)
      (loop : z.task = .loop condition body span completed) : Turn x z

/-- The moments at which a loop that is executed enters its body. -/
def Moment.bodyEntries (x : Moment) : Set Moment :=
  {y | ∃ z statements, Turn x z ∧ Enters z y ∧ y.task = .executeAll statements}

section

variable {fuel completed n : Nat} {m m₁ m₂ : Machine} {x y z : Moment}

theorem lt_of_allowed (untimed : m.Untimed)
    (holds : evaluateCondition fuel a condition m = (.ok true, m₁))
    (allowed : exceededLimit? a.limits completed m₁ = (.ok none, m₂)) :
    completed < a.limits.maxIterations ∧ m₁ = m₂ := by
  have holds' : Ends (loopTest a condition) m (.ok true, m₁) := ⟨nofun, fuel, holds⟩
  rw [exceededLimit?_of_untimed (untimed_of_ends_loopTest untimed holds')] at allowed
  split at allowed
  · cases allowed
  · next more =>
    cases allowed
    exact ⟨Nat.lt_of_not_le more, rfl⟩

/-- The counter of a loop is the number of its own rounds. -/
theorem Turn.exists_rounds (turn : Turn x z) (untimed : m.Untimed)
    (loop : x = ⟨fuel, a, .execute (.while condition body span), m⟩) :
    ∃ left completed m', z = ⟨left, a, .loop condition body span completed, m'⟩ ∧
      left + 1 + completed = fuel ∧ completed ≤ a.limits.maxIterations ∧
      Rounds (loopTest a condition) (loopRound a body) completed m m' := by
  induction turn with
  | first =>
    cases loop
    exact ⟨_, 0, m, rfl, rfl, Nat.zero_le _, .none m⟩
  | again turn entered again ih =>
    obtain ⟨left, completed, m', rfl, count, within, rounds⟩ := ih loop
    cases entered with
    | loopCondition => cases again
    | loopBody => cases again
    | @nextIteration left _ _ m₁ m₂ m₃ _ _ _ signal _ holds allowed done onward =>
      obtain ⟨fewer, rfl⟩ := lt_of_allowed (rounds.untimed untimed) holds allowed
      have round : Rounds (loopTest a condition) (loopRound a body) 1 m' m₃ :=
        .next ⟨nofun, left, holds⟩ ⟨nofun, left, done⟩ onward (.none m₃)
      exact ⟨left, completed + 1, m₃, rfl, by omega, fewer, rounds.append round⟩

/-- How many rounds a loop has behind it where it enters its body. -/
def Moment.roundsBefore (x y : Moment) : Nat := x.fuel - (y.fuel + 2)

theorem exists_of_mem_bodyEntries (untimed : m.Untimed)
    (entry : y ∈ (Moment.mk fuel a (.execute (.while condition body span)) m).bodyEntries) :
    ∃ left completed m' m₁, left + 2 + completed = fuel ∧ completed < a.limits.maxIterations ∧
      Rounds (loopTest a condition) (loopRound a body) completed m m' ∧
      loopTest a condition left m' = (.ok true, m₁) ∧
      y = ⟨left, a, .executeAll body.statements, m₁.enter "while" .loop⟩ := by
  obtain ⟨z, statements, turn, entered, inside⟩ := entry
  obtain ⟨left, completed, m', rfl, count, -, rounds⟩ := turn.exists_rounds untimed rfl
  cases entered with
  | loopCondition => cases inside
  | nextIteration => cases inside
  | @loopBody left _ _ m₁ m₂ _ _ _ _ holds allowed =>
    obtain ⟨fewer, rfl⟩ := lt_of_allowed (rounds.untimed untimed) holds allowed
    exact ⟨left, completed, m', m₁, count, fewer, rounds, holds, rfl⟩

theorem injOn_roundsBefore (untimed : m.Untimed) :
    Set.InjOn (Moment.mk fuel a (.execute (.while condition body span)) m).roundsBefore
      (Moment.mk fuel a (.execute (.while condition body span)) m).bodyEntries := by
  intro y entry y' entry' same
  obtain ⟨left, completed, m', m₁, count, -, rounds, tested, rfl⟩ :=
    exists_of_mem_bodyEntries untimed entry
  obtain ⟨left', completed', m'', m₁', count', -, rounds', tested', rfl⟩ :=
    exists_of_mem_bodyEntries untimed entry'
  simp only [Moment.roundsBefore] at same
  obtain rfl : left = left' := by omega
  obtain rfl : completed = completed' := by omega
  obtain rfl := rounds.unique rounds' (settled_loopTest a condition) (settled_loopRound a body)
  cases tested.symm.trans tested'
  rfl

/-- Each round enters the body once, so there are no more entries than rounds are allowed. -/
theorem encard_bodyEntries_le (untimed : m.Untimed) :
    (Moment.mk fuel a (.execute (.while condition body span)) m).bodyEntries.encard ≤
      a.limits.maxIterations := by
  have counted : Set.MapsTo (Moment.mk fuel a (.execute (.while condition body span)) m).roundsBefore
      (Moment.mk fuel a (.execute (.while condition body span)) m).bodyEntries
      (Finset.range a.limits.maxIterations) := by
    intro y entry
    obtain ⟨left, completed, m', m₁, count, fewer, -, -, rfl⟩ :=
      exists_of_mem_bodyEntries untimed entry
    rw [Finset.mem_coe, Finset.mem_range]
    show fuel - (left + 2) < _
    omega
  have bounded := Set.encard_le_encard_of_injOn counted (injOn_roundsBefore untimed)
  rwa [Set.encard_coe_eq_coe_finsetCard, Finset.card_range] at bounded

/-! ### Turns on enough fuel -/

variable (untimed : m.Untimed)

include untimed

theorem allowed_of_lt (within : completed < a.limits.maxIterations) :
    exceededLimit? a.limits completed m = (.ok none, m) := by
  rw [exceededLimit?_of_untimed untimed, if_neg within.not_ge]

theorem tested_of_sufficed (holds : Ends (loopTest a condition) m (.ok true, m₁))
    (sufficed : (executeLoop (fuel + 1) a condition body span completed m).1 ≠ .error .outOfFuel) :
    loopTest a condition fuel m = (.ok true, m₁) := by
  refine holds.eq_of_sufficed (settled_loopTest a condition) fun exhausted => sufficed ?_
  rw [executeLoop_succ untimed]
  rcases tested : loopTest a condition fuel m with ⟨u | again, m₁⟩ <;> rw [tested] at exhausted
  · cases exhausted
    rfl
  · cases exhausted

theorem known_of_sufficed {signal : Signal} (tested : loopTest a condition fuel m = (.ok true, m₁))
    (within : completed < a.limits.maxIterations)
    (done : Ends (loopRound a body) m₁ (.ok signal, m₂))
    (sufficed : (executeLoop (fuel + 1) a condition body span completed m).1 ≠ .error .outOfFuel) :
    loopRound a body fuel m₁ = (.ok signal, m₂) := by
  refine done.eq_of_sufficed (settled_loopRound a body) fun exhausted => sufficed ?_
  simp only [executeLoop_succ untimed, tested, if_neg within.not_ge]
  rcases known : loopRound a body fuel m₁ with ⟨u | signal, m₂⟩ <;> rw [known] at exhausted
  · cases exhausted
    rfl
  · cases exhausted

/-- Where the fuel suffices, a loop comes to every turn that its rounds lead to. -/
theorem Turn.exists_turn (turn : Turn x ⟨fuel, a, .loop condition body span completed, m⟩)
    (sufficed : (executeLoop fuel a condition body span completed m).1 ≠ .error .outOfFuel)
    (rounds : Rounds (loopTest a condition) (loopRound a body) n m m₁)
    (within : completed + n ≤ a.limits.maxIterations) :
    ∃ left, Turn x ⟨left, a, .loop condition body span (completed + n), m₁⟩ ∧
      executeLoop left a condition body span (completed + n) m₁ =
        executeLoop fuel a condition body span completed m := by
  induction n generalizing fuel completed m with
  | zero =>
    cases rounds
    exact ⟨fuel, turn, rfl⟩
  | succ n ih =>
    cases fuel with
    | zero => exact absurd rfl sufficed
    | succ fuel =>
      cases rounds with
      | @next _ _ m₂ m₃ _ signal holds done onward rest =>
        have fewer : completed < a.limits.maxIterations := by omega
        have untimed₂ : m₂.Untimed := untimed_of_ends_loopTest untimed holds
        have untimed₃ : m₃.Untimed := untimed_of_round untimed holds done
        have tested := tested_of_sufficed untimed holds sufficed
        have known := known_of_sufficed untimed tested fewer done sufficed
        have same : executeLoop (fuel + 1) a condition body span completed m =
            executeLoop fuel a condition body span (completed + 1) m₃ := by
          simp only [executeLoop_succ untimed, tested, if_neg fewer.not_ge, known]
          rcases onward with rfl | rfl <;> rfl
        rw [same] at sufficed ⊢
        rw [← Nat.add_assoc, Nat.add_right_comm] at within ⊢
        exact ih untimed₃
          (turn.again (.nextIteration tested (allowed_of_lt untimed₂ fewer) known onward) rfl)
          sufficed rest within

/-- A loop that does not run out of fuel comes to the turn after its rounds, and goes on from there. -/
theorem exists_turn_of_rounds
    (sufficed : (execute fuel a (.while condition body span) m).1 ≠ .error .outOfFuel)
    (rounds : Rounds (loopTest a condition) (loopRound a body) n m m₁)
    (within : n ≤ a.limits.maxIterations) (holds : Ends (loopTest a condition) m₁ (.ok true, m₂)) :
    ∃ left, Turn ⟨fuel, a, .execute (.while condition body span), m⟩
        ⟨left + 1, a, .loop condition body span n, m₁⟩ ∧
      evaluateCondition left a condition m₁ = (.ok true, m₂) ∧
      executeLoop (left + 1) a condition body span n m₁ =
        execute fuel a (.while condition body span) m := by
  cases fuel with
  | zero => exact absurd rfl sufficed
  | succ fuel =>
    have start : execute (fuel + 1) a (.while condition body span) m =
        executeLoop fuel a condition body span 0 m := rfl
    rw [start] at sufficed ⊢
    obtain ⟨left, turn, same⟩ := Turn.first.exists_turn untimed sufficed rounds (by omega)
    rw [Nat.zero_add] at turn same
    rw [← same] at sufficed
    cases left with
    | zero => exact absurd rfl sufficed
    | succ left =>
      exact ⟨left, turn, tested_of_sufficed (rounds.untimed untimed) holds sufficed, same⟩

/-- The loop is refused one more round if and only if its condition holds after all that are
allowed. -/
theorem exists_raises_iff
    (sufficed : (execute fuel a (.while condition body span) m).1 ≠ .error .outOfFuel) :
    (∃ z u limit, Turn ⟨fuel, a, .execute (.while condition body span), m⟩ z ∧ Raises z u ∧
      u.fault? = some (.loopLimitExceeded limit)) ↔
    ∃ m₁ m₂, Rounds (loopTest a condition) (loopRound a body) a.limits.maxIterations m m₁ ∧
      Ends (loopTest a condition) m₁ (.ok true, m₂) := by
  constructor
  · rintro ⟨z, u, limit, turn, raised, fault⟩
    obtain ⟨left, completed, m', rfl, -, within, rounds⟩ := turn.exists_rounds untimed rfl
    cases raised with
    | exhausted => cases fault
    | @limit left _ _ m₁ _ _ _ _ limit _ holds exceeded =>
      have holds' : Ends (loopTest a condition) m' (.ok true, m₁) := ⟨nofun, left, holds⟩
      have all : ¬ completed < a.limits.maxIterations := by
        intro fewer
        rw [allowed_of_lt (untimed_of_ends_loopTest (rounds.untimed untimed) holds') fewer]
          at exceeded
        cases exceeded
      rw [Nat.le_antisymm within (Nat.not_lt.mp all)] at rounds
      exact ⟨m', m₁, rounds, holds'⟩
  · rintro ⟨m₁, m₂, rounds, holds⟩
    obtain ⟨left, turn, tested, -⟩ := exists_turn_of_rounds untimed sufficed rounds le_rfl holds
    have exceeded : exceededLimit? a.limits a.limits.maxIterations m₂ =
        (.ok (some (.iterations a.limits.maxIterations)), m₂) := by
      rw [exceededLimit?_of_untimed (untimed_of_ends_loopTest (rounds.untimed untimed) holds),
        if_pos le_rfl]
    exact ⟨_, _, _, turn, .limit tested exceeded, a.fault?_unwinding _ span⟩

theorem exists_mem_bodyEntries
    (sufficed : (execute fuel a (.while condition body span) m).1 ≠ .error .outOfFuel)
    (rounds : Rounds (loopTest a condition) (loopRound a body) n m m₁)
    (within : n < a.limits.maxIterations) (holds : Ends (loopTest a condition) m₁ (.ok true, m₂)) :
    let x : Moment := ⟨fuel, a, .execute (.while condition body span), m⟩
    ∃ y ∈ x.bodyEntries, x.roundsBefore y = n := by
  obtain ⟨left, turn, tested, -⟩ := exists_turn_of_rounds untimed sufficed rounds within.le holds
  have untimed₂ : m₂.Untimed := untimed_of_ends_loopTest (rounds.untimed untimed) holds
  refine ⟨_, ⟨_, _, turn, .loopBody tested (allowed_of_lt untimed₂ within), rfl⟩, ?_⟩
  obtain ⟨_, _, _, same, count, -⟩ := turn.exists_rounds untimed rfl
  cases same
  show fuel - (left + 2) = n
  omega

/-- A loop that is refused has entered its body as often as is allowed, and the refusal ends it. -/
theorem execute_while_of_refused
    (sufficed : (execute fuel a (.while condition body span) m).1 ≠ .error .outOfFuel)
    (rounds : Rounds (loopTest a condition) (loopRound a body) a.limits.maxIterations m m₁)
    (holds : Ends (loopTest a condition) m₁ (.ok true, m₂)) :
    (Moment.mk fuel a (.execute (.while condition body span)) m).bodyEntries.encard =
        a.limits.maxIterations ∧
      execute fuel a (.while condition body span) m = (.error (loopRefusal a span), m₂) := by
  constructor
  · refine le_antisymm (encard_bodyEntries_le untimed) ?_
    have every : (Finset.range a.limits.maxIterations : Set Nat) ⊆
        (Moment.mk fuel a (.execute (.while condition body span)) m).roundsBefore ''
          (Moment.mk fuel a (.execute (.while condition body span)) m).bodyEntries := by
      intro n inside
      rw [Finset.mem_coe, Finset.mem_range] at inside
      obtain ⟨k, split⟩ := Nat.exists_eq_add_of_lt inside
      rw [split, Nat.add_assoc] at rounds
      obtain ⟨m', first, second⟩ := rounds.split
      cases second with
      | next holds' => exact exists_mem_bodyEntries untimed sufficed first inside holds'
    calc (a.limits.maxIterations : ENat)
        = (Finset.range a.limits.maxIterations : Set Nat).encard := by
          rw [Set.encard_coe_eq_coe_finsetCard, Finset.card_range]
      _ ≤ _ := Set.encard_le_encard every
      _ ≤ _ := Set.encard_image_le _ _
  · obtain ⟨left, turn, tested, same⟩ := exists_turn_of_rounds untimed sufficed rounds le_rfl holds
    have known : loopTest a condition left m₁ = (.ok true, m₂) := tested
    rw [← same]
    simp only [executeLoop_succ (rounds.untimed untimed), known, if_pos le_rfl]

/-- How often a loop runs depends on how its condition and its body end, and on nothing else that
they do. -/
theorem ends_while_congr {condition' : Expression} {body' : Block}
    (tests : EndAlike Machine.Untimed (loopTest a condition) (loopTest a condition'))
    (bodies : EndAlike Machine.Untimed (loopRound a body) (loopRound a body'))
    {ended : Except Unwind Signal × Machine}
    (ends : Ends (fun fuel => execute fuel a (.while condition body span)) m ended) :
    Ends (fun fuel => execute fuel a (.while condition' body' span)) m ended := by
  obtain ⟨sufficed, fuel, ran⟩ := ends
  cases fuel with
  | zero => exact absurd (congrArg Prod.fst ran).symm sufficed
  | succ fuel =>
    obtain ⟨n, m₁, within, rounds, stops⟩ :=
      (ends_executeLoop_iff untimed (Nat.zero_le _)).mp ⟨sufficed, fuel, ran⟩
    obtain ⟨rounds', untimed₁⟩ := rounds.congr tests bodies untimed
    have stops' : StopsFrom a condition' body' span 0 m ended :=
      ⟨n, m₁, within, rounds', stops.congr tests bodies untimed₁⟩
    obtain ⟨-, fuel', ran'⟩ := stops'.ends untimed
    exact ⟨sufficed, fuel' + 1, ran'⟩

end

/-- Where no deadline passes, one execution of a loop enters its body as often as is allowed at most,
and its counter is the number of its own rounds. It is refused one more round if and only if its
condition holds after all that are allowed, and the refusal then ends it. Loops inside of it or in the
functions that it calls, and other executions of it, leave no trace in its count: loops whose
conditions and bodies end alike end alike. -/
theorem loop_valve_exact {m : Machine} (untimed : m.Untimed) (condition : Expression) (body : Block)
    (span : Span) :
    let test := loopTest a condition
    let round := loopRound a body
    let allowed := a.limits.maxIterations
    (∃ enough, ∀ more,
      (execute (enough + more) a (.while condition body span) m).1 ≠ .error .outOfFuel) ∧
    (∀ fuel, let x : Moment := ⟨fuel, a, .execute (.while condition body span), m⟩
      x.bodyEntries.encard ≤ allowed ∧
      (∀ z, Turn x z → ∃ left completed m', z = ⟨left, a, .loop condition body span completed, m'⟩ ∧
        completed ≤ allowed ∧ Rounds test round completed m m') ∧
      (x.perform.1 ≠ .error .outOfFuel →
        ((∃ z u limit, Turn x z ∧ Raises z u ∧ u.fault? = some (.loopLimitExceeded limit)) ↔
          ∃ m₁ m₂, Rounds test round allowed m m₁ ∧ Ends test m₁ (.ok true, m₂)) ∧
        ∀ m₁ m₂, Rounds test round allowed m m₁ → Ends test m₁ (.ok true, m₂) →
          x.bodyEntries.encard = allowed ∧
          x.perform = (.error (a.unwinding (.loopLimitExceeded (.iterations allowed)) span), m₂))) ∧
    ∀ condition' body',
      (∀ m : Machine, m.Untimed → ∀ ended,
        Ends test m ended ↔ Ends (loopTest a condition') m ended) →
      (∀ m : Machine, m.Untimed → ∀ ended,
        Ends round m ended ↔ Ends (loopRound a body') m ended) →
      ∀ ended, Ends (fun fuel => execute fuel a (.while condition body span)) m ended ↔
        Ends (fun fuel => execute fuel a (.while condition' body' span)) m ended := by
  intro test round allowed
  refine ⟨exists_sufficient a (.execute (.while condition body span)) m, fun fuel => ?_, ?_⟩
  · refine ⟨encard_bodyEntries_le untimed, fun z turn => ?_, fun sufficed => ?_⟩
    · obtain ⟨left, completed, m', same, -, within, rounds⟩ := turn.exists_rounds untimed rfl
      exact ⟨left, completed, m', same, within, rounds⟩
    · exact ⟨exists_raises_iff untimed sufficed,
        fun m₁ m₂ => execute_while_of_refused untimed sufficed⟩
  · intro condition' body' tests bodies ended
    have tests' : EndAlike Machine.Untimed (loopTest a condition) (loopTest a condition') :=
      ⟨tests, fun m untimed ended => untimed_of_ends_loopTest untimed⟩
    have bodies' : EndAlike Machine.Untimed (loopRound a body) (loopRound a body') :=
      ⟨bodies, fun m untimed ended => untimed_of_ends_loopRound untimed⟩
    exact ⟨ends_while_congr untimed tests' bodies',
      ends_while_congr untimed tests'.symm bodies'.symm⟩

/-- The body of a loop in which another loop does one round of its own. -/
def loopingBody : Block :=
  let again : Identifier := ⟨"again", default⟩
  let inner : Statement := .while (.identifier again default)
    (.mk [.assignment again (.boolean false default) default] default) default
  .mk [.variable ⟨.bool, false, default⟩ again (some (.boolean true default)) default, inner] default

/-- With one iteration allowed, the inner loop comes to its end, and only the outer one is refused
another round. -/
theorem loop_valve_exact_loopingBody :
    let a := Activation.topLevel ⟨1, 256, .ofSeconds 5⟩
    let condition : Expression := .boolean true default
    let m : Machine := ⟨.empty Store.defaultHistoryLimit, #[], .never⟩
    let x : Moment := ⟨12, a, .execute (.while condition loopingBody default), m⟩
    let m₁ := (loopRound a loopingBody 10 m).2
    m.Untimed ∧ x.perform.1 ≠ .error .outOfFuel ∧
    Rounds (loopTest a condition) (loopRound a loopingBody) 1 m m₁ ∧ x.bodyEntries.encard = 1 ∧
    x.perform = (.error (.fatal ⟨.loopLimitExceeded (.iterations 1), default⟩), m₁) := by
  intro a condition m x m₁
  have untimed : m.Untimed := rfl
  have sufficed : x.perform.1 ≠ .error .outOfFuel := by
    have ran : x.perform.1 = .error (.fatal ⟨.loopLimitExceeded (.iterations 1), default⟩) := rfl
    rw [ran]
    exact nofun
  have holds (m : Machine) : Ends (loopTest a condition) m (.ok true, m) := ⟨nofun, 2, rfl⟩
  have round : Ends (loopRound a loopingBody) m (.ok .normal, m₁) := ⟨nofun, 10, rfl⟩
  have rounds : Rounds (loopTest a condition) (loopRound a loopingBody) 1 m m₁ :=
    .next (holds m) round (.inl rfl) (.none m₁)
  obtain ⟨-, turns, -⟩ := loop_valve_exact (a := a) untimed condition loopingBody default
  obtain ⟨entries, refused⟩ := ((turns 12).2.2 sufficed).2 m₁ m₁ rounds (holds m₁)
  exact ⟨untimed, sufficed, rounds, entries, refused⟩

/-! ## The deadline -/

section

variable {fuel completed : Nat} {m m₁ : Machine} (expired : m.deadline.passed 0 = true)

include expired

/-- The deadline does not come back while the condition of a loop is evaluated. -/
theorem passed_of_evaluateCondition {result : Except Unwind Bool}
    (ended : evaluateCondition fuel a condition m = (result, m₁)) :
    m₁.deadline.passed 0 = true := by
  have led := leadsTo_perform ⟨fuel, a, .condition condition, m⟩
  have same : (Moment.mk fuel a (.condition condition) m).perform = (result, m₁) := ended
  rw [same] at led
  exact led.passed expired

/-- A loop whose turn comes behind the deadline performs nothing but its condition. -/
theorem task_eq_condition_of_passed {y : Moment}
    (entered : Enters ⟨fuel, a, .loop condition body span completed, m⟩ y) :
    y.task = .condition condition := by
  cases entered with
  | loopCondition => rfl
  | loopBody holds allowed | nextIteration holds allowed =>
    obtain ⟨-, ahead, -⟩ := exceededLimit?_eq_none_iff.mp allowed
    cases ahead.symm.trans (passed_of_evaluateCondition expired holds)

/-- If the condition holds behind the deadline, the loop is stopped, and the error tells how much
time the run was allowed. -/
theorem executeLoop_of_passed (within : completed < a.limits.maxIterations)
    (holds : evaluateCondition fuel a condition m = (.ok true, m₁)) :
    executeLoop (fuel + 1) a condition body span completed m =
      (.error (a.unwinding (.loopLimitExceeded (.timeout a.limits.timeout)) span),
        { m₁ with deadline := m₁.deadline.later }) := by
  have passed := passed_of_evaluateCondition expired holds
  rw [executeLoop, bind_apply, holds]
  dsimp only
  rw [if_pos rfl, bind_apply, exceededLimit?_apply, if_neg (Nat.not_le_of_lt within), passed]
  rfl

end

end Execution

end CheckedScript
