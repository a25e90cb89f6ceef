import CheckedScript.Number.Word

/-!
# Values

The values that a running program computes with. `null` is what an unset field and a function
without a result yield.
-/

namespace CheckedScript

inductive Value where
  | int (value : Word)
  | float (value : Float)
  | str (value : String)
  | char (value : Char)
  | bool (value : Bool)
  | array (elements : List Value)
  | null
deriving Inhabited

namespace Value

/-- The word for the kind of a value in error messages. -/
def kindName : Value → String
  | int _ => "int"
  | float _ => "float"
  | str _ => "str"
  | char _ => "char"
  | bool _ => "bool"
  | array _ => "array"
  | null => "null"

def isNull : Value → Bool
  | null => true
  | _ => false

def bool? : Value → Option Bool
  | bool b => some b
  | _ => none

/-- The number that takes part where an integer meets a float. -/
def float? : Value → Option Float
  | int w => some w.toFloat
  | float x => some x
  | _ => none

end Value

end CheckedScript
