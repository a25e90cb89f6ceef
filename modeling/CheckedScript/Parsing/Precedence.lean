import CheckedScript.Ast.Expression

/-!
# Precedence

The grammar reads an expression as a flat sequence of operators and operands. `group` builds the
tree in which tighter operators bind first, all binary operators group to the left, and an operator
in front of an operand reaches as far as operators tighter than itself go.
-/

namespace CheckedScript

/-- A part of a flat expression. -/
inductive ExpressionPart where
  | operand (value : Expression)
  | unary (operator : UnaryOperator) (span : Span)
  | binary (operator : BinaryOperator)

namespace ExpressionPart

/-- An operator that still waits for the operand on its right. -/
inductive Pending where
  | unary (operator : UnaryOperator) (span : Span)
  | binary (operator : BinaryOperator) (left : Expression)

namespace Pending

def level : Pending → Nat
  | unary operator _ => operator.level
  | binary operator _ => operator.level

/-- The expression that arises once the operand on the right is known. -/
def apply : Pending → Expression → Expression
  | unary operator span, right => .unary operator right (span.through right.span)
  | binary operator left, right => .binary operator left right (left.span.through right.span)

end Pending

/-- Gives `value` to the pending operators, innermost first, that bind at least as tightly as
`level`; returns those still pending and the operand so built. -/
def settle (level : Nat) : List Pending → Expression → List Pending × Expression
  | [], value => ([], value)
  | innermost :: outer, value =>
    if level ≤ innermost.level then settle level outer (innermost.apply value)
    else (innermost :: outer, value)

mutual

/-- Reads on where an operand has to come. -/
def groupOperand (pending : List Pending) : List ExpressionPart → Option Expression
  | unary operator span :: rest => groupOperand (.unary operator span :: pending) rest
  | operand value :: rest => groupOperator pending value rest
  | _ => none

/-- Reads on after the operand `value`. -/
def groupOperator (pending : List Pending) (value : Expression) :
    List ExpressionPart → Option Expression
  | [] => some (settle 0 pending value).2
  | binary operator :: rest =>
    let (pending, left) := settle operator.level pending value
    groupOperand (.binary operator left :: pending) rest
  | _ => none

end

/-- The tree of a flat expression; `none` if its parts do not alternate as they should. -/
def group (parts : List ExpressionPart) : Option Expression := groupOperand [] parts

end ExpressionPart

end CheckedScript
