import CheckedScript.Proofs.Check.Declares
import CheckedScript.Proofs.Check.Rules
import CheckedScript.Proofs.Execution.Task
import Mathlib.Logic.Relation

/-!
# What a check comes through

The parts that a check of a program visits are the tasks that a run performs, each with the context
and the state of the check there. A check without an error accepts every part that it visits, and
it has visited the body of every function that it finds in the global scope.
-/

namespace CheckedScript

namespace Check

open Checking Execution

/-- A part of a program, where a check stands when it comes to it. -/
structure Point where
  context : CheckContext
  checking : Checking
  task : Task

/-- Where the check of a program against a store begins. -/
def Point.start (program : Program) (store : Store) : Point :=
  ⟨.topLevel, .start store, .program program.statements none⟩

/-- The check of the first part comes to the second one directly. -/
inductive Walks : Point → Point → Prop
  | position {c : CheckContext} {s : Checking} {array : Identifier} {index : Expression}
      {span : Span} :
      Walks ⟨c, s, .evaluate (.index array index span)⟩ ⟨c, s, .evaluate index⟩
  | called {c : CheckContext} {s : Checking} {name : Identifier} {arguments : List Expression}
      {span : Span} (function : (arguments.isEmpty && s.store.isErrorAccessor name.name) = false) :
      Walks ⟨c, s, .evaluate (.call name arguments span)⟩ ⟨c, s, .call name arguments span⟩
  | operand {c : CheckContext} {s : Checking} {operator : UnaryOperator} {operand : Expression}
      {span : Span} :
      Walks ⟨c, s, .evaluate (.unary operator operand span)⟩ ⟨c, s, .evaluate operand⟩
  | left {c : CheckContext} {s : Checking} {operator : BinaryOperator} {left right : Expression}
      {span : Span} :
      Walks ⟨c, s, .evaluate (.binary operator left right span)⟩ ⟨c, s, .evaluate left⟩
  | right {c : CheckContext} {s : Checking} {operator : BinaryOperator} {left right : Expression}
      {span : Span} :
      Walks ⟨c, s, .evaluate (.binary operator left right span)⟩ ⟨c, s, .evaluate right⟩
  | inner {c : CheckContext} {s : Checking} {inner : Expression} {span : Span} :
      Walks ⟨c, s, .evaluate (.parenthesized inner span)⟩ ⟨c, s, .evaluate inner⟩
  | firstArgument {c : CheckContext} {s : Checking} {e : Expression} {rest : List Expression} :
      Walks ⟨c, s, .evaluateAll (e :: rest)⟩ ⟨c, s, .evaluate e⟩
  | nextArguments {c : CheckContext} {s : Checking} {e : Expression} {rest : List Expression} :
      Walks ⟨c, s, .evaluateAll (e :: rest)⟩ ⟨c, s, .evaluateAll rest⟩
  | arguments {c : CheckContext} {s : Checking} {name : Identifier} {arguments : List Expression}
      {span : Span} :
      Walks ⟨c, s, .call name arguments span⟩ ⟨c, s, .evaluateAll arguments⟩
  | truth {c : CheckContext} {s : Checking} {e : Expression} :
      Walks ⟨c, s, .condition e⟩ ⟨c, s, .evaluate e⟩
  | initializer {c : CheckContext} {s : Checking} {type : TypeName} {name : Identifier}
      {e : Expression} {span : Span} :
      Walks ⟨c, s, .execute (.variable type name (some e) span)⟩ ⟨c, s, .evaluate e⟩
  | assigned {c : CheckContext} {s : Checking} {name : Identifier} {value : Expression}
      {span : Span} :
      Walks ⟨c, s, .execute (.assignment name value span)⟩ ⟨c, s, .evaluate value⟩
  | fieldAssigned {c : CheckContext} {s : Checking} {record field : Identifier}
      {value : Expression} {span : Span} :
      Walks ⟨c, s, .execute (.fieldAssignment record field value span)⟩ ⟨c, s, .evaluate value⟩
  | declared {c : CheckContext} {s : Checking} {name : Identifier} {parameters : List Declarator}
      {returnType : Option TypeName} {body : Block} {span : Span} (top : c.isTopLevel = true) :
      Walks ⟨c, s, .execute (.function name parameters returnType body span)⟩
        ⟨c.inFunction ⟨name.name, .ofReturnType returnType⟩,
          parameters.foldl parameter ((s.function name
            (functionSymbol name parameters (.ofReturnType returnType) body)).push name.name
              .function), .executeAll body.statements⟩
  | block {c : CheckContext} {s : Checking} {body : Block} {span : Span} :
      Walks ⟨c, s, .execute (.block body span)⟩
        ⟨c.inBlock, s.push "block" .block, .executeAll body.statements⟩
  | conditional {c : CheckContext} {s : Checking} {branches : List Branch}
      {otherwise : Option Block} {span : Span} :
      Walks ⟨c, s, .execute (.conditional branches otherwise span)⟩
        ⟨c, s, .branches branches otherwise⟩
  | while {c : CheckContext} {s : Checking} {condition : Expression} {body : Block} {span : Span} :
      Walks ⟨c, s, .execute (.while condition body span)⟩ ⟨c, s, .loop condition body span 0⟩
  | returned {c : CheckContext} {s : Checking} {e : Expression} {span : Span} :
      Walks ⟨c, s, .execute (.return (some e) span)⟩ ⟨c, s, .evaluate e⟩
  | printed {c : CheckContext} {s : Checking} {e : Expression} {span : Span} :
      Walks ⟨c, s, .execute (.print e span)⟩ ⟨c, s, .evaluate e⟩
  | guarded {c : CheckContext} {s : Checking} {guarded recovery : Block} {span : Span} :
      Walks ⟨c, s, .execute (.attempt guarded recovery span)⟩
        ⟨c.inBlock, s.push "try" .guarded, .executeAll guarded.statements⟩
  | recovery {c : CheckContext} {s : Checking} {guarded recovery : Block} {span : Span} :
      Walks ⟨c, s, .execute (.attempt guarded recovery span)⟩
        ⟨c.inRecoverBlock,
          (((checkBlock c.inBlock guarded (s.push "try" .guarded)).backTo s.store.depth).push
            "recover" .recovery).bindErrorAccessor, .executeAll recovery.statements⟩
  | discarded {c : CheckContext} {s : Checking} {e : Expression} {span : Span} :
      Walks ⟨c, s, .execute (.expression e span)⟩ ⟨c, s, .evaluate e⟩
  | first {c : CheckContext} {s : Checking} {statement : Statement} {rest : List Statement} :
      Walks ⟨c, s, .executeAll (statement :: rest)⟩ ⟨c, s, .execute statement⟩
  | next {c : CheckContext} {s : Checking} {statement : Statement} {rest : List Statement} :
      Walks ⟨c, s, .executeAll (statement :: rest)⟩
        ⟨c, checkStatement c statement s, .executeAll rest⟩
  | otherwise {c : CheckContext} {s : Checking} {otherwise : Block} :
      Walks ⟨c, s, .branches [] (some otherwise)⟩
        ⟨c.inBlock, s.push "else" .branch, .executeAll otherwise.statements⟩
  | branchCondition {c : CheckContext} {s : Checking} {condition : Expression} {body : Block}
      {span : Span} {rest : List Branch} {otherwise : Option Block} :
      Walks ⟨c, s, .branches (.mk condition body span :: rest) otherwise⟩ ⟨c, s, .condition condition⟩
  | branchBody {c : CheckContext} {s : Checking} {condition : Expression} {body : Block}
      {span : Span} {rest : List Branch} {otherwise : Option Block} :
      Walks ⟨c, s, .branches (.mk condition body span :: rest) otherwise⟩
        ⟨c.inBlock, (s.condition c "If" condition).push "if" .branch, .executeAll body.statements⟩
  | nextBranch {c : CheckContext} {s : Checking} {condition : Expression} {body : Block}
      {span : Span} {rest : List Branch} {otherwise : Option Block} :
      Walks ⟨c, s, .branches (.mk condition body span :: rest) otherwise⟩
        ⟨c, (checkBlock c.inBlock body ((s.condition c "If" condition).push "if" .branch)).backTo
          (s.condition c "If" condition).store.depth, .branches rest otherwise⟩
  | loopCondition {c : CheckContext} {s : Checking} {condition : Expression} {body : Block}
      {span : Span} {completed : Nat} :
      Walks ⟨c, s, .loop condition body span completed⟩ ⟨c, s, .condition condition⟩
  | loopBody {c : CheckContext} {s : Checking} {condition : Expression} {body : Block}
      {span : Span} {completed : Nat} :
      Walks ⟨c, s, .loop condition body span completed⟩
        ⟨c.inLoopBody, (s.condition c "While" condition).push "while" .loop,
          .executeAll body.statements⟩
  | nextIteration {c : CheckContext} {s : Checking} {condition : Expression} {body : Block}
      {span : Span} {completed : Nat} :
      Walks ⟨c, s, .loop condition body span completed⟩
        ⟨c, s, .loop condition body span (completed + 1)⟩
  | topExpression {c : CheckContext} {s : Checking} {e : Expression} {span : Span}
      {rest : List Statement} {last : Option Value} :
      Walks ⟨c, s, .program (.expression e span :: rest) last⟩ ⟨c, s, .evaluate e⟩
  | topStatement {c : CheckContext} {s : Checking} {statement : Statement} {rest : List Statement}
      {last : Option Value} :
      Walks ⟨c, s, .program (statement :: rest) last⟩ ⟨c, s, .execute statement⟩
  | afterTop {c : CheckContext} {s : Checking} {statement : Statement} {rest : List Statement}
      {last last' : Option Value} :
      Walks ⟨c, s, .program (statement :: rest) last⟩
        ⟨c, checkStatement c statement s, .program rest last'⟩

/-- The check finds no error in the part. -/
def Point.Accepted (p : Point) : Prop :=
  match p.task with
  | .evaluate e => ∃ type, Types p.checking.store p.context e type
  | .evaluateAll es => ∀ e ∈ es, ∃ type, Types p.checking.store p.context e type
  | .call name arguments _ =>
    ∃ f, p.checking.store.lookup? name.name = some (.function f) ∧
      List.Forall₂ (fun e (q : FunctionParameter) => Types p.checking.store p.context e q.type)
        arguments f.parameters
  | .condition e => Types p.checking.store p.context e .bool
  | .execute statement => (checkStatement p.context statement p.checking).Clean
  | .executeAll statements | .program statements _ =>
    (checkStatements p.context statements p.checking).Clean
  | .branches tried otherwise =>
    (checkStatement p.context (.conditional tried otherwise default) p.checking).Clean
  | .loop test body _ _ => (checkStatement p.context (.while test body default) p.checking).Clean

theorem types_of_forall₂ {store : Store} {c : CheckContext} {arguments : List Expression}
    {parameters : List FunctionParameter}
    (fits : List.Forall₂ (fun e (q : FunctionParameter) => Types store c e q.type) arguments
      parameters) : ∀ e ∈ arguments, ∃ type, Types store c e type := by
  induction fits with
  | nil => exact nofun
  | @cons e q arguments parameters typed _ ih =>
    intro e inside
    rcases List.mem_cons.mp inside with rfl | later
    · exact ⟨q.type, typed⟩
    · exact ih e later

/-! ## The bodies of a statement without errors -/

section

variable {c : CheckContext} {s : Checking} {span : Span}

theorem clean_block {body : Block} (clean : (checkStatement c (.block body span) s).Clean) :
    (checkStatements c.inBlock body.statements (s.push "block" .block)).Clean := by
  unfold checkStatement at clean
  rw [checkBlock_eq] at clean
  exact clean

theorem clean_loopBody {test : Expression} {body : Block}
    (clean : (checkStatement c (.while test body span) s).Clean) :
    (checkStatements c.inLoopBody body.statements
      ((s.condition c "While" test).push "while" .loop)).Clean := by
  unfold checkStatement at clean
  dsimp only at clean
  rw [checkBlock_eq] at clean
  exact clean

theorem clean_loopCondition {test : Expression} {body : Block}
    (clean : (checkStatement c (.while test body span) s).Clean) :
    (s.condition c "While" test).Clean :=
  (nested_push ..).clean ((continues_checkStatements ..).clean (clean_loopBody clean))

theorem clean_otherwise {tried : List Branch} {otherwise : Block}
    (clean : (checkStatement c (.conditional tried (some otherwise) span) s).Clean) :
    (checkStatements c.inBlock otherwise.statements
      ((checkBranches c tried s).push "else" .branch)).Clean := by
  unfold checkStatement at clean
  dsimp only at clean
  rw [checkBlock_eq] at clean
  exact clean

theorem clean_branches {tried : List Branch} {otherwise : Option Block}
    (clean : (checkStatement c (.conditional tried otherwise span) s).Clean) :
    (checkBranches c tried s).Clean := by
  cases otherwise with
  | none =>
    unfold checkStatement at clean
    exact clean
  | some otherwise =>
    exact (nested_push ..).clean ((continues_checkStatements ..).clean (clean_otherwise clean))

theorem clean_branchBody {test : Expression} {body : Block} {rest : List Branch}
    (clean : (checkBranches c (.mk test body span :: rest) s).Clean) :
    (checkStatements c.inBlock body.statements
      ((s.condition c "If" test).push "if" .branch)).Clean := by
  unfold checkBranches at clean
  dsimp only at clean
  have inside := (grows_checkBranches ..).clean clean
  rw [checkBlock_eq] at inside
  exact inside

theorem clean_branchCondition {test : Expression} {body : Block} {rest : List Branch}
    (clean : (checkBranches c (.mk test body span :: rest) s).Clean) :
    (s.condition c "If" test).Clean :=
  (nested_push ..).clean ((continues_checkStatements ..).clean (clean_branchBody clean))

theorem clean_recovery {guarded recovery : Block}
    (clean : (checkStatement c (.attempt guarded recovery span) s).Clean) :
    (checkStatements c.inRecoverBlock recovery.statements
      (((checkBlock c.inBlock guarded (s.push "try" .guarded)).backTo s.store.depth).push
        "recover" .recovery).bindErrorAccessor).Clean := by
  unfold checkStatement at clean
  dsimp only at clean
  rw [checkBlock_eq _ recovery] at clean
  exact clean

theorem clean_guarded {guarded recovery : Block}
    (clean : (checkStatement c (.attempt guarded recovery span) s).Clean) :
    (checkStatements c.inBlock guarded.statements (s.push "try" .guarded)).Clean := by
  have opened := (continues_checkStatements ..).clean (clean_recovery clean)
  have tried := (nested_push ..).bindErrorAccessor.clean opened
  rw [checkBlock_eq] at tried
  exact tried

theorem clean_functionBody {name : Identifier} {parameters : List Declarator}
    {returnType : Option TypeName} {body : Block} (top : c.isTopLevel = true)
    (clean : (checkStatement c (.function name parameters returnType body span) s).Clean) :
    (checkStatements (c.inFunction ⟨name.name, .ofReturnType returnType⟩) body.statements
      (parameters.foldl parameter ((s.function name
        (functionSymbol name parameters (.ofReturnType returnType) body)).push name.name
          .function))).Clean := by
  unfold checkStatement at clean
  rw [if_pos top] at clean
  dsimp only at clean
  rw [checkBlock_eq] at clean
  split at clean
  · exact clean
  · exact (clean_report_iff.mp clean).1

end

/-- What a check accepts, it accepts in all its parts. -/
theorem Walks.accepted {p q : Point} (walks : Walks p q) (accepted : p.Accepted) : q.Accepted := by
  cases walks with
  | position =>
    obtain ⟨type, typed⟩ := accepted
    exact ⟨.int, (types_index typed).1⟩
  | called function =>
    obtain ⟨type, typed⟩ := accepted
    obtain ⟨f, found, -, arguments⟩ := types_call function typed
    exact ⟨f, found, arguments⟩
  | operand =>
    obtain ⟨type, typed⟩ := accepted
    obtain ⟨found, known, -⟩ := types_unary typed
    exact ⟨found, known⟩
  | left =>
    obtain ⟨type, typed⟩ := accepted
    obtain ⟨found, found', known, -, -⟩ := types_binary typed
    exact ⟨found, known⟩
  | right =>
    obtain ⟨type, typed⟩ := accepted
    obtain ⟨found, found', -, known, -⟩ := types_binary typed
    exact ⟨found', known⟩
  | inner => exact accepted
  | firstArgument => exact accepted _ List.mem_cons_self
  | nextArguments => exact fun e inside => accepted e (List.mem_cons_of_mem _ inside)
  | arguments =>
    obtain ⟨f, found, fits⟩ := accepted
    exact types_of_forall₂ fits
  | truth => exact ⟨.bool, accepted⟩
  | initializer =>
    unfold Point.Accepted checkStatement at accepted
    exact ⟨_, types_of_clean_declaration accepted⟩
  | assigned =>
    unfold Point.Accepted checkStatement at accepted
    obtain ⟨type, value, -, typed⟩ := of_clean_assignment accepted
    exact ⟨type, typed⟩
  | fieldAssigned =>
    unfold Point.Accepted checkStatement at accepted
    obtain ⟨r, slot, -, -, typed⟩ := of_clean_fieldAssignment accepted
    exact ⟨slot.type, typed⟩
  | declared top => exact clean_functionBody top accepted
  | block => exact clean_block accepted
  | @conditional c s tried otherwise span => cases otherwise <;> exact accepted
  | «while» => exact accepted
  | returned =>
    unfold Point.Accepted checkStatement at accepted
    obtain ⟨f, -, typed⟩ := of_clean_returning accepted
    exact ⟨f.returnType, typed _ rfl⟩
  | printed =>
    unfold Point.Accepted checkStatement at accepted
    dsimp only at accepted
    split at accepted
    · exact absurd accepted (not_clean_report rfl)
    · exact (types_of_clean_typeOf accepted).2
  | guarded => exact clean_guarded accepted
  | recovery => exact clean_recovery accepted
  | discarded =>
    unfold Point.Accepted checkStatement at accepted
    exact (types_of_clean_typeOf accepted).2
  | first =>
    unfold Point.Accepted checkStatements at accepted
    exact (continues_checkStatements ..).clean accepted
  | next =>
    unfold Point.Accepted checkStatements at accepted
    exact accepted
  | otherwise =>
    have inside := clean_otherwise accepted
    unfold checkBranches at inside
    exact inside
  | branchCondition => exact types_of_clean_condition (clean_branchCondition (clean_branches accepted))
  | branchBody => exact clean_branchBody (clean_branches accepted)
  | @nextBranch c s test body span rest otherwise =>
    cases otherwise <;>
    · unfold Point.Accepted checkStatement at accepted ⊢
      unfold checkBranches at accepted
      exact accepted
  | loopCondition => exact types_of_clean_condition (clean_loopCondition accepted)
  | loopBody => exact clean_loopBody accepted
  | nextIteration => exact accepted
  | topExpression =>
    unfold Point.Accepted checkStatements at accepted
    have head := (continues_checkStatements ..).clean accepted
    unfold checkStatement at head
    exact (types_of_clean_typeOf head).2
  | topStatement =>
    unfold Point.Accepted checkStatements at accepted
    exact (continues_checkStatements ..).clean accepted
  | afterTop =>
    unfold Point.Accepted checkStatements at accepted
    exact accepted

/-- What a check accepts, it accepts wherever it comes to. -/
theorem Point.Accepted.of_comes {p q : Point} (accepted : p.Accepted)
    (comes : Relation.ReflTransGen Walks p q) : q.Accepted := by
  induction comes with
  | refl => exact accepted
  | tail _ walks ih => exact walks.accepted ih

end Check

end CheckedScript
