import CheckedScript.Check.Returns
import CheckedScript.Proofs.Execution.Run

/-!
# Statements that always return

Control never goes on behind statements of which one always returns (`diverts_of_anyReturns`): they
end with an error or with a signal that a construct around them takes up. So the syntactic test that
the checker makes of a function body is sound.
-/

namespace CheckedScript

theorem Block.anyReturns_statements {body : Block} (returns : body.alwaysReturns = true) :
    Statement.anyReturns body.statements = true := by
  cases body
  exact returns

namespace Run

variable {α : Type}

/-- However the computation ends, control does not go on behind it. -/
def Diverts (x : Run Signal) : Prop := ∀ m m', x m ≠ (.ok .normal, m')

namespace Diverts

theorem unwind (u : Unwind) : (Run.unwind u).Diverts := fun _ _ => nofun

theorem pure {signal : Signal} (other : signal ≠ .normal) : (Run.pure signal).Diverts := by
  rintro m m' ⟨⟩
  exact other rfl

theorem bind (x : Run α) {f : α → Run Signal} (second : ∀ a, (f a).Diverts) :
    (x >>= f).Diverts := by
  intro m m' ended
  obtain ⟨a, m₁, -, ended⟩ := bind_eq_ok_iff.mp ended
  exact second a m₁ m' ended

/-- Whatever would follow a normal end is not reached. -/
theorem bind_of_diverts {x : Run Signal} (first : x.Diverts) {f : Signal → Run Signal}
    (second : ∀ signal, signal ≠ .normal → (f signal).Diverts) : (x >>= f).Diverts := by
  intro m m' ended
  obtain ⟨signal, m₁, done, ended⟩ := bind_eq_ok_iff.mp ended
  refine second signal ?_ m₁ m' ended
  rintro rfl
  exact first m m₁ done

theorem inScope {x : Run Signal} (body : x.Diverts) (name : String) (kind : ScopeKind) :
    (Run.inScope name kind x).Diverts := by
  intro m m' ended
  obtain ⟨left, ended, -⟩ := inScope_eq_ok_iff.mp ended
  exact body _ left ended

theorem recover {x : Run Signal} {handler : RuntimeError → Run Signal} (body : x.Diverts)
    (handled : ∀ error, (handler error).Diverts) : (Run.recover x handler).Diverts := by
  intro m m' ended
  rcases recover_cases ended with whole | ⟨error, m₁, -, taken⟩
  · exact body m m' whole
  · exact handled error m₁ m' taken

end Diverts

end Run

namespace Execution

open Run

/-- What always returns diverts control if it runs on this fuel. -/
structure DivertsAt (fuel : Nat) : Prop where
  execute : ∀ a {statement : Statement}, statement.alwaysReturns = true →
    (execute fuel a statement).Diverts
  executeAll : ∀ a {statements : List Statement}, Statement.anyReturns statements = true →
    (executeAll fuel a statements).Diverts
  branches : ∀ a {branches : List Branch} {otherwise : Block}, Branch.allReturn branches = true →
    otherwise.alwaysReturns = true → (executeBranches fuel a branches (some otherwise)).Diverts

section

variable {fuel : Nat} (below : DivertsAt fuel) (a : Activation)

include below

theorem DivertsAt.block {body : Block} (returns : body.alwaysReturns = true) (name : String)
    (kind : ScopeKind) : (inScope name kind (Execution.executeAll fuel a body.statements)).Diverts :=
  (below.executeAll a (Block.anyReturns_statements returns)).inScope name kind

theorem diverts_execute {statement : Statement} (returns : statement.alwaysReturns = true) :
    (execute (fuel + 1) a statement).Diverts := by
  unfold execute
  cases statement with
  | «return» value span =>
    cases value with
    | none => exact .pure nofun
    | some e => exact .bind _ fun v => .pure nofun
  | block body span => exact below.block a returns "block" .block
  | conditional branches otherwise span =>
    cases otherwise with
    | none => cases returns
    | some otherwise =>
      obtain ⟨last, tried⟩ := Bool.and_eq_true_iff.mp returns
      exact below.branches a tried last
  | attempt guarded recovery span =>
    obtain ⟨first, second⟩ := Bool.and_eq_true_iff.mp returns
    refine (below.block a.inGuard first "try" .guarded).recover fun error => ?_
    refine Diverts.inScope (.bind _ fun _ => ?_) "recover" .recovery
    exact below.executeAll a.inRecovery (Block.anyReturns_statements second)
  | _ => cases returns

theorem diverts_executeAll {statements : List Statement}
    (returns : Statement.anyReturns statements = true) :
    (executeAll (fuel + 1) a statements).Diverts := by
  unfold executeAll
  cases statements with
  | nil => cases returns
  | cons statement rest =>
    rcases Bool.or_eq_true_iff.mp returns with first | later
    · refine (below.execute a first).bind_of_diverts fun signal other => ?_
      cases signal with
      | normal => exact absurd rfl other
      | _ => exact .pure nofun
    · refine .bind _ fun signal => ?_
      cases signal with
      | normal => exact below.executeAll a later
      | _ => exact .pure nofun

theorem diverts_branches {branches : List Branch} {otherwise : Block}
    (tried : Branch.allReturn branches = true) (last : otherwise.alwaysReturns = true) :
    (executeBranches (fuel + 1) a branches (some otherwise)).Diverts := by
  unfold executeBranches
  cases branches with
  | nil => exact below.block a last "else" .branch
  | cons branch rest =>
    obtain ⟨condition, body, span⟩ := branch
    obtain ⟨here, later⟩ := Bool.and_eq_true_iff.mp tried
    refine .bind _ fun taken => ?_
    cases taken with
    | true => exact below.block a here "if" .branch
    | false => exact below.branches a later last

end

theorem divertsAt (fuel : Nat) : DivertsAt fuel := by
  induction fuel with
  | zero => exact ⟨fun _ _ _ => .unwind _, fun _ _ _ => .unwind _, fun _ _ _ _ _ => .unwind _⟩
  | succ fuel below =>
    exact ⟨diverts_execute below, diverts_executeAll below, diverts_branches below⟩

/-- Statements of which one always returns never end in the normal way. -/
theorem diverts_of_anyReturns (fuel : Nat) (a : Activation) {statements : List Statement}
    (returns : Statement.anyReturns statements = true) :
    (executeAll fuel a statements).Diverts :=
  (divertsAt fuel).executeAll a returns

end Execution

end CheckedScript
