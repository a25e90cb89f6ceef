/-!
# Operators

The operators of expressions, their spelling, and how tightly they bind.
-/

namespace CheckedScript

inductive UnaryOperator where
  | negate
  | not
deriving DecidableEq, Inhabited

inductive BinaryOperator where
  | add
  | subtract
  | multiply
  | divide
  | equal
  | notEqual
  | less
  | lessEqual
  | greater
  | greaterEqual
  | and
  | or
deriving DecidableEq, Inhabited

namespace UnaryOperator

def symbol : UnaryOperator → String
  | .negate => "-"
  | .not => "not"

/-- `not` binds looser than a comparison, a minus sign tighter than any other operator. -/
def level : UnaryOperator → Nat
  | .not => 3
  | .negate => 8

end UnaryOperator

namespace BinaryOperator

def symbol : BinaryOperator → String
  | .add => "+"
  | .subtract => "-"
  | .multiply => "*"
  | .divide => "/"
  | .equal => "=="
  | .notEqual => "!="
  | .less => "<"
  | .lessEqual => "<="
  | .greater => ">"
  | .greaterEqual => ">="
  | .and => "and"
  | .or => "or"

/-- The binding strength, from the loosest operator to the tightest. -/
def level : BinaryOperator → Nat
  | .or => 1
  | .and => 2
  | .equal | .notEqual => 4
  | .less | .lessEqual | .greater | .greaterEqual => 5
  | .add | .subtract => 6
  | .multiply | .divide => 7

def isArithmetic : BinaryOperator → Bool
  | .add | .subtract | .multiply | .divide => true
  | _ => false

def isComparison : BinaryOperator → Bool
  | .equal | .notEqual | .less | .lessEqual | .greater | .greaterEqual => true
  | _ => false

def isLogical : BinaryOperator → Bool
  | .and | .or => true
  | _ => false

/-- No binary operator shares its level with a unary one. -/
theorem level_ne_unary (b : BinaryOperator) (u : UnaryOperator) : b.level ≠ u.level := by
  cases b <;> cases u <;> decide

end BinaryOperator

end CheckedScript
