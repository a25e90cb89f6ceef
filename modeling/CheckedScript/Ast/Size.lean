import CheckedScript.Ast.Statement

/-!
# Sizes of syntax trees

The number of nodes of a syntax tree, where every list counts one more than its items.
-/

namespace CheckedScript

mutual

def Expression.size : Expression → Nat
  | .index _ position _ => position.size + 1
  | .call _ arguments _ => Expression.listSize arguments + 1
  | .unary _ operand _ => operand.size + 1
  | .binary _ left right _ => left.size + right.size + 1
  | .parenthesized inner _ => inner.size + 1
  | _ => 1

def Expression.listSize : List Expression → Nat
  | [] => 1
  | e :: rest => e.size + Expression.listSize rest + 1

end

def Expression.optionSize : Option Expression → Nat
  | none => 0
  | some e => e.size

mutual

def Statement.size : Statement → Nat
  | .variable _ _ initializer _ => Expression.optionSize initializer + 1
  | .assignment _ value _ => value.size + 1
  | .fieldAssignment _ _ value _ => value.size + 1
  | .function _ _ _ body _ => body.size + 1
  | .block body _ => body.size + 1
  | .conditional branches none _ => Branch.listSize branches + 1
  | .conditional branches (some otherwise) _ => Branch.listSize branches + otherwise.size + 1
  | .while condition body _ => condition.size + body.size + 1
  | .return value _ => Expression.optionSize value + 1
  | .print value _ => value.size + 1
  | .attempt guarded recovery _ => guarded.size + recovery.size + 1
  | .expression value _ => value.size + 1
  | _ => 1

def Statement.listSize : List Statement → Nat
  | [] => 1
  | s :: rest => s.size + Statement.listSize rest + 1

def Block.size : Block → Nat
  | .mk statements _ => Statement.listSize statements + 1

def Branch.listSize : List Branch → Nat
  | [] => 1
  | .mk condition body _ :: rest => condition.size + body.size + Branch.listSize rest + 1

end

end CheckedScript
