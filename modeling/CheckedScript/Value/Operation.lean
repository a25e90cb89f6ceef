import CheckedScript.Ast.Operator
import CheckedScript.Value.Fault
import CheckedScript.Value.Order

/-!
# Operations on values

What the operators compute. Integer results are exact or refused, a quotient of integers is cut
towards zero, and an integer that meets a float takes part as a float.
-/

namespace CheckedScript.Value

def applyUnary : UnaryOperator → Value → Except Fault Value
  | .negate, int a =>
    match Word.ofInt? (-a.toInt) with
    | some w => .ok (int w)
    | none => .error (.integerOverflow UnaryOperator.negate.symbol)
  | .negate, float x => .ok (float (-x))
  | .not, bool b => .ok (bool !b)
  | operator, operand => .error (.invalidOperation operator.symbol operand.kindName)

/-- The fault of an operator that its operands have no meaning for. -/
def invalidBinary (operator : BinaryOperator) (left right : Value) : Fault :=
  .invalidOperation operator.symbol s!"{left.kindName} and {right.kindName}"

/-- The exact result of an arithmetic operator on integers; a division by zero has none. -/
def exactResult? : BinaryOperator → Int → Int → Option Int
  | .add, a, b => some (a + b)
  | .subtract, a, b => some (a - b)
  | .multiply, a, b => some (a * b)
  | .divide, a, b => if b = 0 then none else some (a.tdiv b)
  | _, _, _ => none

def integerArithmetic (operator : BinaryOperator) (a b : Word) : Except Fault Value :=
  match exactResult? operator a.toInt b.toInt with
  | some n =>
    match Word.ofInt? n with
    | some w => .ok (int w)
    | none => .error (.integerOverflow operator.symbol)
  | none => .error .divisionByZero

def floatArithmetic : BinaryOperator → Float → Float → Except Fault Value
  | .add, a, b => .ok (float (a + b))
  | .subtract, a, b => .ok (float (a - b))
  | .multiply, a, b => .ok (float (a * b))
  | _, a, b => if b == 0 then .error .divisionByZero else .ok (float (a / b))

def applyArithmetic (operator : BinaryOperator) (left right : Value) : Except Fault Value :=
  match left, right with
  | int a, int b => integerArithmetic operator a b
  | left, right =>
    match operator, left, right with
    | .add, str a, str b => .ok (str (a ++ b))
    | operator, left, right =>
      match left.float?, right.float? with
      | some a, some b => floatArithmetic operator a b
      | _, _ => .error (invalidBinary operator left right)

/-- Whether a comparison operator holds of two values in this order. -/
def holdsFor : BinaryOperator → Ordering → Bool
  | .equal, order => order == .eq
  | .notEqual, order => order != .eq
  | .less, order => order == .lt
  | .lessEqual, order => order != .gt
  | .greater, order => order == .gt
  | .greaterEqual, order => order != .lt
  | _, _ => false

def applyComparison (operator : BinaryOperator) (left right : Value) : Except Fault Value :=
  match left.compare? right with
  | some order => .ok (bool (holdsFor operator order))
  | none => .error (invalidBinary operator left right)

def applyLogical (operator : BinaryOperator) (left right : Value) : Except Fault Value :=
  match left, right with
  | bool a, bool b => .ok (bool (if operator = .and then a && b else a || b))
  | left, right => .error (invalidBinary operator left right)

/-- Applies a binary operator to two values that are both known. -/
def applyBinary (operator : BinaryOperator) (left right : Value) : Except Fault Value :=
  if operator.isArithmetic then applyArithmetic operator left right
  else if operator.isLogical then applyLogical operator left right
  else applyComparison operator left right

end CheckedScript.Value
