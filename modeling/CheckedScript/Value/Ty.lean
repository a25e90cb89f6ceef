import CheckedScript.Ast.Name
import CheckedScript.Value.Basic

/-!
# Types

The static types of values. `void` is the type of a call that yields nothing.
-/

namespace CheckedScript

inductive Ty where
  | int
  | float
  | str
  | char
  | bool
  | void
  | array (element : Ty)
deriving DecidableEq, Inhabited

namespace Ty

def ofPrimitive : Primitive → Ty
  | .int => int
  | .float => float
  | .str => str
  | .char => char
  | .bool => bool

def ofTypeName (t : TypeName) : Ty :=
  if t.isArray then array (ofPrimitive t.primitive) else ofPrimitive t.primitive

/-- The type that a function with this return type yields; without one it yields nothing. -/
def ofReturnType : Option TypeName → Ty
  | some t => ofTypeName t
  | none => void

def isNumeric : Ty → Bool
  | int | float => true
  | _ => false

def element? : Ty → Option Ty
  | array element => some element
  | _ => none

def text : Ty → String
  | int => "int"
  | float => "float"
  | str => "str"
  | char => "char"
  | bool => "bool"
  | void => "void"
  | array element => element.text ++ "[]"

/-- What a variable of this type holds if nothing is assigned to it. -/
def defaultValue : Ty → Value
  | int => .int 0
  | float => .float 0
  | str => .str ""
  | char => .char '\x00'
  | bool => .bool false
  | void => .null
  | array _ => .array []

end Ty

end CheckedScript
