import CheckedScript.Ast.Statement
import CheckedScript.Parsing.Precedence

/-!
# Trees without their places

A syntax tree is `bare` if it does not tell where its parts were read. Grouping by precedence does not
ask for it (`ExpressionPart.group_bare`).
-/

namespace CheckedScript

def Identifier.bare (name : Identifier) : Identifier := { name with span := default }

def TypeName.bare (type : TypeName) : TypeName := { type with span := default }

def Declarator.bare (d : Declarator) : Declarator := ⟨d.type.bare, d.name.bare⟩

mutual

def Expression.bare : Expression → Expression
  | .integer value _ => .integer value default
  | .float value _ => .float value default
  | .str value _ => .str value default
  | .char value _ => .char value default
  | .boolean value _ => .boolean value default
  | .numberArray elements _ => .numberArray elements default
  | .charArray elements _ => .charArray elements default
  | .strArray elements _ => .strArray elements default
  | .identifier name _ => .identifier name.bare default
  | .index array position _ => .index array.bare position.bare default
  | .fieldAccess record field _ => .fieldAccess record.bare field.bare default
  | .call name arguments _ => .call name.bare (Expression.listBare arguments) default
  | .unary operator operand _ => .unary operator operand.bare default
  | .binary operator left right _ => .binary operator left.bare right.bare default
  | .parenthesized inner _ => .parenthesized inner.bare default

def Expression.listBare : List Expression → List Expression
  | [] => []
  | e :: rest => e.bare :: Expression.listBare rest

end

mutual

def Statement.bare : Statement → Statement
  | .variable type name initializer _ =>
    .variable type.bare name.bare (initializer.map Expression.bare) default
  | .assignment name value _ => .assignment name.bare value.bare default
  | .fieldAssignment record field value _ =>
    .fieldAssignment record.bare field.bare value.bare default
  | .function name parameters returnType body _ =>
    .function name.bare (parameters.map Declarator.bare) (returnType.map TypeName.bare) body.bare default
  | .block body _ => .block body.bare default
  | .conditional branches none _ => .conditional (Branch.listBare branches) none default
  | .conditional branches (some otherwise) _ =>
    .conditional (Branch.listBare branches) (some otherwise.bare) default
  | .while condition body _ => .while condition.bare body.bare default
  | .break _ => .break default
  | .continue _ => .continue default
  | .return value _ => .return (value.map Expression.bare) default
  | .print value _ => .print value.bare default
  | .attempt guarded recovery _ => .attempt guarded.bare recovery.bare default
  | .recordType name fields _ => .recordType name.bare (fields.map Declarator.bare) default
  | .recordInstance recordType name _ => .recordInstance recordType.bare name.bare default
  | .expression value _ => .expression value.bare default

def Statement.listBare : List Statement → List Statement
  | [] => []
  | s :: rest => s.bare :: Statement.listBare rest

def Block.bare : Block → Block
  | .mk statements _ => .mk (Statement.listBare statements) default

def Branch.listBare : List Branch → List Branch
  | [] => []
  | .mk condition body _ :: rest => .mk condition.bare body.bare default :: Branch.listBare rest

end

def Program.bare (program : Program) : Program := ⟨Statement.listBare program.statements, default⟩

theorem Statement.bare_conditional (branches : List Branch) (otherwise : Option Block)
    (span : Span) :
    (Statement.conditional branches otherwise span).bare =
      .conditional (Branch.listBare branches) (otherwise.map Block.bare) default := by
  cases otherwise <;> simp [Statement.bare]

@[simp] theorem Expression.span_bare (e : Expression) : e.bare.span = default := by
  cases e <;> rfl

namespace ExpressionPart

def bare : ExpressionPart → ExpressionPart
  | operand value => operand value.bare
  | unary operator _ => unary operator default
  | binary operator => binary operator

def Pending.bare : Pending → Pending
  | unary operator _ => unary operator default
  | binary operator left => binary operator left.bare

theorem Pending.apply_bare (p : Pending) (value : Expression) :
    p.bare.apply value.bare = (p.apply value).bare := by
  cases p with
  | unary operator span =>
    rw [bare, apply, apply, Expression.bare, Expression.span_bare]
    rfl
  | binary operator left =>
    rw [bare, apply, apply, Expression.bare, Expression.span_bare, Expression.span_bare]
    rfl

theorem Pending.level_bare (p : Pending) : p.bare.level = p.level := by
  cases p <;> rfl

theorem settle_bare (level : Nat) (pending : List Pending) (value : Expression) :
    settle level (pending.map Pending.bare) value.bare =
      ((settle level pending value).1.map Pending.bare, (settle level pending value).2.bare) := by
  induction pending generalizing value with
  | nil => rfl
  | cons innermost outer ih =>
    rw [List.map_cons, settle, settle, Pending.level_bare]
    split
    · rw [Pending.apply_bare]
      exact ih _
    · rfl

mutual

theorem groupOperand_bare : (parts : List ExpressionPart) → (pending : List Pending) →
    groupOperand (pending.map Pending.bare) (parts.map bare) =
      (groupOperand pending parts).map Expression.bare
  | [], _ => rfl
  | .unary operator span :: rest, pending => groupOperand_bare rest (.unary operator span :: pending)
  | .operand value :: rest, pending => groupOperator_bare rest pending value
  | .binary _ :: _, _ => rfl

theorem groupOperator_bare : (parts : List ExpressionPart) → (pending : List Pending) →
    (value : Expression) →
    groupOperator (pending.map Pending.bare) value.bare (parts.map bare) =
      (groupOperator pending value parts).map Expression.bare
  | [], pending, value => by
    rw [List.map_nil, groupOperator, groupOperator, settle_bare]
    rfl
  | .binary operator :: rest, pending, value => by
    rw [List.map_cons, bare, groupOperator, groupOperator, settle_bare]
    exact groupOperand_bare rest (.binary operator (settle operator.level pending value).2 ::
      (settle operator.level pending value).1)
  | .unary .. :: _, _, _ => rfl
  | .operand _ :: _, _, _ => rfl

end

theorem group_bare (parts : List ExpressionPart) :
    group (parts.map bare) = (group parts).map Expression.bare :=
  groupOperand_bare parts []

end ExpressionPart

end CheckedScript
