import CheckedScript.Ast.Statement

/-!
# Syntax that reads a field

Whether a tree contains an access to a field of a record. An assignment to a field is none.
-/

namespace CheckedScript

mutual

def Expression.readsField : Expression → Bool
  | .fieldAccess _ _ _ => true
  | .index _ position _ => position.readsField
  | .call _ arguments _ => Expression.anyReadsField arguments
  | .unary _ operand _ => operand.readsField
  | .binary _ left right _ => left.readsField || right.readsField
  | .parenthesized inner _ => inner.readsField
  | _ => false

def Expression.anyReadsField : List Expression → Bool
  | [] => false
  | e :: rest => e.readsField || Expression.anyReadsField rest

end

mutual

def Statement.readsField : Statement → Bool
  | .variable _ _ initializer _ => initializer.any Expression.readsField
  | .assignment _ value _ | .fieldAssignment _ _ value _ | .print value _ | .expression value _ =>
    value.readsField
  | .function _ _ _ body _ | .block body _ => body.readsField
  | .conditional branches none _ => Branch.anyReadsField branches
  | .conditional branches (some otherwise) _ =>
    Branch.anyReadsField branches || otherwise.readsField
  | .while condition body _ => condition.readsField || body.readsField
  | .return value _ => value.any Expression.readsField
  | .attempt guarded recovery _ => guarded.readsField || recovery.readsField
  | .break _ | .continue _ | .recordType _ _ _ | .recordInstance _ _ _ => false

def Statement.anyReadsField : List Statement → Bool
  | [] => false
  | s :: rest => s.readsField || Statement.anyReadsField rest

def Block.readsField : Block → Bool
  | .mk statements _ => Statement.anyReadsField statements

def Branch.anyReadsField : List Branch → Bool
  | [] => false
  | .mk condition body _ :: rest =>
    condition.readsField || body.readsField || Branch.anyReadsField rest

end

def Program.readsField (program : Program) : Bool := Statement.anyReadsField program.statements

theorem Block.readsField_eq (body : Block) :
    body.readsField = Statement.anyReadsField body.statements := by
  cases body
  rfl

theorem Statement.readsField_conditional (branches : List Branch) (otherwise : Option Block)
    (span : Span) :
    (Statement.conditional branches otherwise span).readsField =
      (Branch.anyReadsField branches || otherwise.any Block.readsField) := by
  cases otherwise <;> simp [Statement.readsField]

theorem Statement.readsField_of_mem {statement : Statement} {statements : List Statement}
    (listed : statement ∈ statements) (unread : Statement.anyReadsField statements = false) :
    statement.readsField = false := by
  induction statements with
  | nil => cases listed
  | cons first rest ih =>
    rw [Statement.anyReadsField, Bool.or_eq_false_iff] at unread
    rcases List.mem_cons.mp listed with rfl | listed
    · exact unread.1
    · exact ih listed unread.2

end CheckedScript
