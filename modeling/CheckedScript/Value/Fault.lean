import CheckedScript.Number.Duration

/-!
# Runtime faults

The causes for which a running program fails, and the wording of each.
-/

namespace CheckedScript

/-- The limit on a loop that was exceeded. -/
inductive LoopLimit where
  | iterations (max : Nat)
  | timeout (allowed : Duration)
deriving DecidableEq, Inhabited

def LoopLimit.text : LoopLimit → String
  | iterations max => s!"more than {max} iterations"
  | timeout allowed => s!"timeout of {allowed.text} reached"

inductive Fault where
  | undefinedVariable (name : String)
  | undefinedFunction (name : String)
  | notAFunction (name kind : String)
  | notAValue (name kind : String)
  | divisionByZero
  | indexOutOfBounds (name : String) (index : Int) (length : Nat)
  | invalidIndex (found : String)
  | notAnArray (name : String)
  | invalidOperation (operation operands : String)
  | typeMismatch (expected found : String)
  | fieldNotFound (record field : String)
  | notARecord (name : String)
  | integerOverflow (operation : String)
  | loopLimitExceeded (limit : LoopLimit)
  | arityMismatch (function : String) (expected found : Nat)
  | stackOverflow (maxDepth : Nat)
  | controlFlowEscaped (signal function : String)
  | internal (message : String)
deriving DecidableEq, Inhabited

namespace Fault

def message : Fault → String
  | undefinedVariable name => s!"Variable '{name}' is not defined"
  | undefinedFunction name => s!"Function '{name}' is not defined"
  | notAFunction name kind => s!"'{name}' is a {kind}, not a function"
  | notAValue name kind => s!"'{name}' is a {kind}, not a value"
  | divisionByZero => "Division by zero"
  | indexOutOfBounds name index length =>
    s!"Index {index} out of bounds for '{name}' of length {length}"
  | invalidIndex found => s!"Array index must be an int, got {found}"
  | notAnArray name => s!"Variable '{name}' is not an array"
  | invalidOperation operation operands =>
    s!"Invalid operation: '{operation}' cannot be applied to {operands}"
  | typeMismatch expected found => s!"Expected a {expected} value, got {found}"
  | fieldNotFound record field => s!"Record '{record}' has no field '{field}'"
  | notARecord name => s!"'{name}' is not a record instance"
  | integerOverflow operation => s!"Integer overflow in '{operation}'"
  | loopLimitExceeded limit => s!"loop exceeded limit: {limit.text}"
  | arityMismatch function expected found =>
    s!"Function '{function}' expects {expected} arguments, got {found}"
  | stackOverflow maxDepth => s!"Maximum call depth of {maxDepth} exceeded"
  | controlFlowEscaped signal function =>
    s!"'{signal}' escaped the body of function '{function}'"
  | internal message => s!"Internal error: {message}"

def code : Fault → String
  | undefinedVariable _ => "bibi::runtime::undefined_variable"
  | undefinedFunction _ => "bibi::runtime::undefined_function"
  | notAFunction _ _ => "bibi::runtime::not_a_function"
  | notAValue _ _ => "bibi::runtime::not_a_value"
  | divisionByZero => "bibi::runtime::division_by_zero"
  | indexOutOfBounds _ _ _ => "bibi::runtime::index_out_of_bounds"
  | invalidIndex _ => "bibi::runtime::invalid_index"
  | notAnArray _ => "bibi::runtime::not_an_array"
  | invalidOperation _ _ => "bibi::runtime::invalid_operation"
  | typeMismatch _ _ => "bibi::runtime::type_mismatch"
  | fieldNotFound _ _ => "bibi::runtime::field_not_found"
  | notARecord _ => "bibi::runtime::not_a_record"
  | integerOverflow _ => "bibi::runtime::integer_overflow"
  | loopLimitExceeded _ => "bibi::runtime::loop_limit_exceeded"
  | arityMismatch _ _ _ => "bibi::runtime::arity_mismatch"
  | stackOverflow _ => "bibi::runtime::stack_overflow"
  | controlFlowEscaped _ _ => "bibi::runtime::control_flow_escaped"
  | internal _ => "bibi::runtime::internal_error"

def help : Fault → Option String
  | divisionByZero => some "Ensure the divisor is not zero before division"
  | indexOutOfBounds _ _ _ => some "Valid indices are 0 up to the array length minus one"
  | invalidOperation _ _ => some "Unset record fields hold null until assigned"
  | loopLimitExceeded _ =>
    some "Raise the limit with --max-iterations or --timeout if the loop is intended"
  | stackOverflow _ => some "Check that recursive functions reach their base case"
  | _ => none

/-- Defects of the interpreter itself are never handed to a recover block. -/
def isRecoverable : Fault → Bool
  | controlFlowEscaped _ _ | internal _ => false
  | _ => true

end Fault

end CheckedScript
