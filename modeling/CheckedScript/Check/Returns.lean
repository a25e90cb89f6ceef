import CheckedScript.Ast.Statement

/-!
# Statements that always return

A syntactic test: whether every path through a statement runs into a `return`. A loop never counts,
because its body may not be entered.
-/

namespace CheckedScript

mutual

def Statement.alwaysReturns : Statement → Bool
  | .return _ _ => true
  | .block body _ => body.alwaysReturns
  | .conditional branches (some otherwise) _ =>
    otherwise.alwaysReturns && Branch.allReturn branches
  | .attempt guarded recovery _ => guarded.alwaysReturns && recovery.alwaysReturns
  | _ => false

def Block.alwaysReturns : Block → Bool
  | .mk statements _ => Statement.anyReturns statements

/-- Whether one of the statements always returns. -/
def Statement.anyReturns : List Statement → Bool
  | [] => false
  | statement :: rest => statement.alwaysReturns || Statement.anyReturns rest

def Branch.allReturn : List Branch → Bool
  | [] => true
  | .mk _ body _ :: rest => body.alwaysReturns && Branch.allReturn rest

end

end CheckedScript
