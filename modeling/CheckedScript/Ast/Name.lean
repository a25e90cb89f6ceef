import CheckedScript.Source.Span

/-!
# Names and type names

The words of a program that name things, each with the span it was written at.
-/

namespace CheckedScript

structure Identifier where
  name : String
  span : Span
deriving DecidableEq, Inhabited

/-- The scalar types that a declaration can name. -/
inductive Primitive where
  | int
  | float
  | str
  | char
  | bool
deriving DecidableEq, Inhabited

namespace Primitive

def keyword : Primitive → String
  | .int => "int"
  | .float => "float"
  | .str => "str"
  | .char => "char"
  | .bool => "bool"

def ofKeyword? : String → Option Primitive
  | "int" => some .int
  | "float" => some .float
  | "str" => some .str
  | "char" => some .char
  | "bool" => some .bool
  | _ => none

theorem ofKeyword?_keyword (p : Primitive) : ofKeyword? p.keyword = some p := by
  cases p <;> rfl

end Primitive

/-- A written type: a scalar type or an array of one. -/
structure TypeName where
  primitive : Primitive
  isArray : Bool
  span : Span
deriving DecidableEq, Inhabited

/-- The spelling of a written type. -/
def TypeName.text (t : TypeName) : String :=
  if t.isArray then t.primitive.keyword ++ "[]" else t.primitive.keyword

end CheckedScript
