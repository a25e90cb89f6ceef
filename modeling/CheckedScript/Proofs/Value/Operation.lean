import CheckedScript.Value.Operation

/-!
# Why an operation is refused

An operator refuses operands that it has no meaning for, and integer operators refuse results that
do not fit and divisions by zero.
-/

namespace CheckedScript.Value

variable {v w : Value} {fault : Fault}

theorem applyUnary_eq_error {operator : UnaryOperator}
    (refused : applyUnary operator v = .error fault) :
    fault = .integerOverflow operator.symbol ∨
      fault = .invalidOperation operator.symbol v.kindName := by
  unfold applyUnary at refused
  split at refused
  · split at refused
    · cases refused
    · cases refused
      exact .inl rfl
  · cases refused
  · cases refused
  · cases refused
    exact .inr rfl

theorem integerArithmetic_eq_error {operator : BinaryOperator} {a b : Word}
    (refused : integerArithmetic operator a b = .error fault) :
    fault = .divisionByZero ∨ fault = .integerOverflow operator.symbol := by
  unfold integerArithmetic at refused
  split at refused
  · split at refused
    · cases refused
    · cases refused
      exact .inr rfl
  · cases refused
    exact .inl rfl

theorem floatArithmetic_eq_error {operator : BinaryOperator} {x y : Float}
    (refused : floatArithmetic operator x y = .error fault) : fault = .divisionByZero := by
  unfold floatArithmetic at refused
  split at refused
  · cases refused
  · cases refused
  · cases refused
  · split at refused
    · cases refused
      rfl
    · cases refused

theorem applyArithmetic_eq_error {operator : BinaryOperator}
    (refused : applyArithmetic operator v w = .error fault) :
    fault = .divisionByZero ∨ fault = .integerOverflow operator.symbol ∨
      fault = invalidBinary operator v w := by
  unfold applyArithmetic at refused
  split at refused
  · exact (integerArithmetic_eq_error refused).imp id .inl
  · split at refused
    · cases refused
    · split at refused
      · exact .inl (floatArithmetic_eq_error refused)
      · cases refused
        exact .inr (.inr rfl)

theorem applyBinary_eq_error {operator : BinaryOperator}
    (refused : applyBinary operator v w = .error fault) :
    fault = .divisionByZero ∨ fault = .integerOverflow operator.symbol ∨
      fault = invalidBinary operator v w := by
  unfold applyBinary at refused
  split at refused
  · exact applyArithmetic_eq_error refused
  · split at refused
    · unfold applyLogical at refused
      split at refused
      · cases refused
      · cases refused
        exact .inr (.inr rfl)
    · unfold applyComparison at refused
      split at refused
      · cases refused
      · cases refused
        exact .inr (.inr rfl)

end CheckedScript.Value
