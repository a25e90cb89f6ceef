import CheckedScript.Proofs.Ast.Bare

/-!
# Trees without parentheses

A syntax tree is `unwrapped` if every parenthesized expression in it is replaced by the expression
between its parentheses.
-/

namespace CheckedScript

mutual

def Expression.unwrapped : Expression → Expression
  | .index array position span => .index array position.unwrapped span
  | .call name arguments span => .call name (Expression.listUnwrapped arguments) span
  | .unary operator operand span => .unary operator operand.unwrapped span
  | .binary operator left right span => .binary operator left.unwrapped right.unwrapped span
  | .parenthesized inner _ => inner.unwrapped
  | .integer value span => .integer value span
  | .float value span => .float value span
  | .str value span => .str value span
  | .char value span => .char value span
  | .boolean value span => .boolean value span
  | .numberArray elements span => .numberArray elements span
  | .charArray elements span => .charArray elements span
  | .strArray elements span => .strArray elements span
  | .identifier name span => .identifier name span
  | .fieldAccess record field span => .fieldAccess record field span

def Expression.listUnwrapped : List Expression → List Expression
  | [] => []
  | e :: rest => e.unwrapped :: Expression.listUnwrapped rest

end

mutual

def Statement.unwrapped : Statement → Statement
  | .variable type name initializer span =>
    .variable type name (initializer.map Expression.unwrapped) span
  | .assignment name value span => .assignment name value.unwrapped span
  | .fieldAssignment record field value span =>
    .fieldAssignment record field value.unwrapped span
  | .function name parameters returnType body span =>
    .function name parameters returnType body.unwrapped span
  | .block body span => .block body.unwrapped span
  | .conditional branches none span => .conditional (Branch.listUnwrapped branches) none span
  | .conditional branches (some otherwise) span =>
    .conditional (Branch.listUnwrapped branches) (some otherwise.unwrapped) span
  | .while condition body span => .while condition.unwrapped body.unwrapped span
  | .return value span => .return (value.map Expression.unwrapped) span
  | .print value span => .print value.unwrapped span
  | .attempt guarded recovery span => .attempt guarded.unwrapped recovery.unwrapped span
  | .expression value span => .expression value.unwrapped span
  | .break span => .break span
  | .continue span => .continue span
  | .recordType name fields span => .recordType name fields span
  | .recordInstance recordType name span => .recordInstance recordType name span

def Statement.listUnwrapped : List Statement → List Statement
  | [] => []
  | s :: rest => s.unwrapped :: Statement.listUnwrapped rest

def Block.unwrapped : Block → Block
  | .mk statements span => .mk (Statement.listUnwrapped statements) span

def Branch.listUnwrapped : List Branch → List Branch
  | [] => []
  | .mk condition body span :: rest =>
    .mk condition.unwrapped body.unwrapped span :: Branch.listUnwrapped rest

end

theorem Statement.unwrapped_conditional (branches : List Branch) (otherwise : Option Block)
    (span : Span) :
    (Statement.conditional branches otherwise span).unwrapped =
      .conditional (Branch.listUnwrapped branches) (otherwise.map Block.unwrapped) span := by
  cases otherwise <;> simp [Statement.unwrapped]

def Program.unwrapped (program : Program) : Program :=
  { program with statements := Statement.listUnwrapped program.statements }

end CheckedScript
