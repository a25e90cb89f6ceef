import CheckedScript.Proofs.Check.Closed

/-!
# Unknown types

The check gives up on the type of an expression only where it has reported an error in that very
expression (`settled_typeOf`), so the expressions around it need not report it again. A check without
errors finds a type for every expression that it comes to (`unknown_type_reported`).
-/

namespace CheckedScript

open Check Checking

/-- Where no type is known, an error was found. -/
theorem Typing.Settled.reported {t : Typing} (settled : t.Settled) (unknown : t.type = none) :
    ∃ d ∈ t.diagnostics, d.isError = true := by
  cases found : Diagnostics.hasErrors t.diagnostics with
  | true => exact List.any_eq_true.mp found
  | false =>
    obtain ⟨type, known⟩ := settled found
    cases unknown.symm.trans known

/-- The type of an accepted expression is known. -/
theorem Check.Point.Accepted.exists_type {p : Point} {e : Expression} (accepted : p.Accepted)
    (task : p.task = .evaluate e) : ∃ type, (p.checking.typeOf p.context e).1 = some type := by
  unfold Point.Accepted at accepted
  rw [task] at accepted
  obtain ⟨type, typed⟩ := accepted
  exact ⟨type, typed.1⟩

/-- Typing an expression without finding its type adds an error to the findings and changes nothing
else. So where the check of a program ends without errors, every expression that it has come to has a
type. -/
theorem unknown_type_reported :
    (∀ (s : Checking) (context : CheckContext) (e : Expression), (s.typeOf context e).1 = none →
      ∃ found, (s.typeOf context e).2 = s.note found ∧ ∃ d ∈ found, d.isError = true) ∧
    ∀ (program : Program) (store : Store), (checkProgram program store).passed = true →
      ∀ (p : Point) (e : Expression), Relation.ReflTransGen Walks (.start program store) p →
        p.task = .evaluate e → ∃ type, (p.checking.typeOf p.context e).1 = some type := by
  refine ⟨fun s context e unknown => ?_, fun program store passed p e comes task => ?_⟩
  · exact ⟨_, rfl, (settled_typeOf s.store context e).reported unknown⟩
  · have begins : (Point.start program store).Accepted := passed_iff_clean.mp passed
    exact (begins.of_comes comes).exists_type task

/-- The undeclared name deep inside of a difference is reported, and the operators around it hide
nothing; without it, the sum in the parentheses has a type. -/
theorem unknown_type_reported_insideOperators :
    let negated := fun e : Expression =>
      Expression.unary .negate
        (.parenthesized (.binary .add (.integer 1 default) e default) default) default
    let undeclared := negated (.identifier ⟨"x", default⟩ default)
    let program : Program := ⟨[.print (negated (.integer 2 default)) default], default⟩
    let s := Checking.start (.empty 0)
    ((s.typeOf .topLevel undeclared).1 = none ∧
      ∃ found, (s.typeOf .topLevel undeclared).2 = s.note found ∧ ∃ d ∈ found, d.isError = true) ∧
      (checkProgram program (.empty 0)).passed = true ∧
      ∃ type, (s.typeOf .topLevel
        (.binary .add (.integer 1 default) (.integer 2 default) default)).1 = some type := by
  intro negated undeclared program s
  have unknown : (s.typeOf .topLevel undeclared).1 = none := by decide +kernel
  have passed : (checkProgram program (.empty 0)).passed = true := by decide +kernel
  have comes : Relation.ReflTransGen Walks (.start program (.empty 0))
      ⟨.topLevel, s, .evaluate (.binary .add (.integer 1 default) (.integer 2 default) default)⟩ :=
    .head .topStatement (.head .printed (.head .operand (.single .inner)))
  exact ⟨⟨unknown, unknown_type_reported.1 _ _ _ unknown⟩, passed,
    unknown_type_reported.2 program _ passed _ _ comes rfl⟩

end CheckedScript
