import CheckedScript.Value.Ty

/-!
# Semantic errors

What the checker finds wrong with a program, and the wording of each finding. Only a function that
may end without returning a value is a mere warning.
-/

namespace CheckedScript

inductive SemanticError where
  | duplicateDefinition (name : String)
  | functionRedefined (name : String)
  | undefinedVariable (name : String)
  | undeclaredAssignment (name : String)
  | undefinedFunction (name : String)
  | notAFunction (name kind : String)
  | notAValue (name kind : String)
  | undefinedRecordType (name : String)
  | duplicateField (record field : String)
  | typeMismatch (context : String) (expected found : Ty)
  | concatenationMismatch (left right : Ty)
  | nonNumericOperand (operator : String) (left right : Ty)
  | comparisonMismatch (left right : Ty)
  | logicalOperand (operator : String) (left right : Ty)
  | unaryOperand (operator expected : String) (found : Ty)
  | conditionNotBool (construct : String) (found : Ty)
  | notAnArray (name : String) (found : Ty)
  | nonIntIndex (found : Ty)
  | notARecord (name : String)
  | fieldNotFound (recordType field : String)
  | argumentCount (function : String) (expected found : Nat)
  | argumentType (function : String) (position : Nat) (expected found : Ty)
  | returnOutsideFunction
  | returnTypeMismatch (function : String) (expected found : Ty)
  | voidReturnsValue (function : String)
  | missingReturnValue (function : String) (expected : Ty)
  | missingReturn (function : String) (expected : Ty)
  | loopControlOutsideLoop (keyword : String)
  | nestedFunction (name : String)
  | nestedRecordType (name : String)
  | voidValue (context : String)
  | errorAccessorOutsideRecover (name : String)
  | assignToBuiltin (name : String)
deriving DecidableEq, Inhabited

namespace SemanticError

def message : SemanticError → String
  | duplicateDefinition name => s!"'{name}' is already declared in this scope"
  | functionRedefined name => s!"Function '{name}' already defined."
  | undefinedVariable name => s!"Variable '{name}' is not declared."
  | undeclaredAssignment name => s!"Variable '{name}' not declared before assignment."
  | undefinedFunction name => s!"Undefined function '{name}'"
  | notAFunction name kind => s!"'{name}' is a {kind}, not a function"
  | notAValue name kind => s!"'{name}' is a {kind} and cannot be used as a value"
  | undefinedRecordType name => s!"New type {name} is not declared."
  | duplicateField record field => s!"Field '{field}' is redeclared in new type '{record}'"
  | typeMismatch context expected found =>
    s!"Mismatched types in {context}: expected '{expected.text}', got '{found.text}'"
  | concatenationMismatch left right => s!"Cannot concatenate '{left.text}' with '{right.text}'"
  | nonNumericOperand operator left right =>
    s!"Arithmetic operation '{operator}' requires numeric operands, got '{left.text}' and '{right.text}'"
  | comparisonMismatch left right => s!"Cannot compare '{left.text}' with '{right.text}'"
  | logicalOperand operator left right =>
    s!"Logical operation '{operator}' requires boolean operands, got '{left.text}' and '{right.text}'"
  | unaryOperand operator expected found =>
    s!"Unary '{operator}' requires a {expected} operand, got '{found.text}'"
  | conditionNotBool construct found =>
    s!"{construct} condition must be boolean, got '{found.text}'"
  | notAnArray name found => s!"Variable '{name}' is not an array (declared as '{found.text}')"
  | nonIntIndex found => s!"Array index must be an integer, got '{found.text}'"
  | notARecord name => s!"'{name}' is not a record instance"
  | fieldNotFound recordType field => s!"Type '{recordType}' has no field '{field}'"
  | argumentCount function expected found =>
    s!"Function '{function}' expects {expected} arguments, got {found}"
  | argumentType function position expected found =>
    s!"Argument {position} of function '{function}' expects type '{expected.text}', got '{found.text}'"
  | returnOutsideFunction => "Return statement outside of function."
  | returnTypeMismatch function expected found =>
    s!"Return type mismatch in '{function}': expected '{expected.text}', got '{found.text}'"
  | voidReturnsValue function => s!"Cannot return a value from void function '{function}'"
  | missingReturnValue function expected =>
    s!"Missing return value for non-void function '{function}' (expected '{expected.text}')"
  | missingReturn function expected =>
    s!"Function '{function}' may finish without returning a '{expected.text}' value"
  | loopControlOutsideLoop keyword => s!"{keyword} statement outside of loop."
  | nestedFunction name => s!"Function '{name}' must be declared at the top level"
  | nestedRecordType name => s!"Type '{name}' must be declared at the top level"
  | voidValue context => s!"A void value cannot be used in {context}"
  | errorAccessorOutsideRecover name => s!"'{name}' can only be used inside a recover block"
  | assignToBuiltin name => s!"Cannot assign to builtin '{name}'"

def code : SemanticError → String
  | duplicateDefinition _ => "bibi::semantic::duplicate_definition"
  | functionRedefined _ => "bibi::semantic::function_redefined"
  | undefinedVariable _ => "bibi::semantic::undefined_variable"
  | undeclaredAssignment _ => "bibi::semantic::undeclared_assignment"
  | undefinedFunction _ => "bibi::semantic::undefined_function"
  | notAFunction _ _ => "bibi::semantic::not_a_function"
  | notAValue _ _ => "bibi::semantic::not_a_value"
  | undefinedRecordType _ => "bibi::semantic::undefined_record_type"
  | duplicateField _ _ => "bibi::semantic::duplicate_field"
  | typeMismatch _ _ _ => "bibi::semantic::type_mismatch"
  | concatenationMismatch _ _ => "bibi::semantic::concatenation_mismatch"
  | nonNumericOperand _ _ _ => "bibi::semantic::non_numeric_operand"
  | comparisonMismatch _ _ => "bibi::semantic::comparison_mismatch"
  | logicalOperand _ _ _ => "bibi::semantic::logical_operand"
  | unaryOperand _ _ _ => "bibi::semantic::unary_operand"
  | conditionNotBool _ _ => "bibi::semantic::condition_not_bool"
  | notAnArray _ _ => "bibi::semantic::not_an_array"
  | nonIntIndex _ => "bibi::semantic::non_int_index"
  | notARecord _ => "bibi::semantic::not_a_record"
  | fieldNotFound _ _ => "bibi::semantic::field_not_found"
  | argumentCount _ _ _ => "bibi::semantic::argument_count"
  | argumentType _ _ _ _ => "bibi::semantic::argument_type"
  | returnOutsideFunction => "bibi::semantic::return_outside_function"
  | returnTypeMismatch _ _ _ => "bibi::semantic::return_type_mismatch"
  | voidReturnsValue _ => "bibi::semantic::void_returns_value"
  | missingReturnValue _ _ => "bibi::semantic::missing_return_value"
  | missingReturn _ _ => "bibi::semantic::missing_return"
  | loopControlOutsideLoop _ => "bibi::semantic::loop_control_outside_loop"
  | nestedFunction _ => "bibi::semantic::nested_function"
  | nestedRecordType _ => "bibi::semantic::nested_record_type"
  | voidValue _ => "bibi::semantic::void_value"
  | errorAccessorOutsideRecover _ => "bibi::semantic::error_accessor_outside_recover"
  | assignToBuiltin _ => "bibi::semantic::assign_to_builtin"

def help : SemanticError → Option String
  | duplicateDefinition _ =>
    some "Choose a different name, or declare it in a nested block to shadow it"
  | undefinedVariable name =>
    some s!"Declare the variable with a type before using it, e.g. int {name} = 0;"
  | undeclaredAssignment _ => some "Declare the variable with a type before assigning to it"
  | undefinedRecordType name =>
    some ("Declare it first with: type " ++ name ++ " \x7b ... \x7d")
  | concatenationMismatch _ _ => some "String concatenation requires both operands to be 'str'"
  | comparisonMismatch _ _ => some "Both sides of a comparison must have the same type"
  | argumentType _ _ _ _ => some "Arguments are not converted between numeric types"
  | missingReturn _ _ => some "Add a return statement at the end of the function body"
  | _ => none

def isWarning : SemanticError → Bool
  | missingReturn _ _ => true
  | _ => false

/-- The heading under which an error is reported. -/
def category : SemanticError → String
  | typeMismatch _ _ _ | concatenationMismatch _ _ | nonNumericOperand _ _ _
  | comparisonMismatch _ _ | logicalOperand _ _ _ | unaryOperand _ _ _ | conditionNotBool _ _
  | notAnArray _ _ | nonIntIndex _ | argumentType _ _ _ _ | returnTypeMismatch _ _ _
  | voidReturnsValue _ | missingReturnValue _ _ | voidValue _ => "Type Error"
  | missingReturn _ _ => "Warning"
  | _ => "Error"

end SemanticError

end CheckedScript
