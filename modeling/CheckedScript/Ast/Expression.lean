import CheckedScript.Ast.Name
import CheckedScript.Ast.Operator

/-!
# Expressions

The syntax tree of an expression. Every node carries the span it was read from.
-/

namespace CheckedScript

/-- An element of a numeric array literal: a point in its text makes it a float. -/
inductive NumberLiteral where
  | int (value : Int64)
  | float (value : Float)
deriving Inhabited

inductive Expression where
  | integer (value : Int64) (span : Span)
  | float (value : Float) (span : Span)
  | str (value : String) (span : Span)
  | char (value : Char) (span : Span)
  | boolean (value : Bool) (span : Span)
  | numberArray (elements : List NumberLiteral) (span : Span)
  | charArray (elements : List Char) (span : Span)
  | strArray (elements : List String) (span : Span)
  | identifier (name : Identifier) (span : Span)
  | index (array : Identifier) (index : Expression) (span : Span)
  | fieldAccess (record field : Identifier) (span : Span)
  | call (name : Identifier) (arguments : List Expression) (span : Span)
  | unary (operator : UnaryOperator) (operand : Expression) (span : Span)
  | binary (operator : BinaryOperator) (left right : Expression) (span : Span)
  | parenthesized (inner : Expression) (span : Span)
deriving Inhabited

namespace Expression

def span : Expression → Span
  | integer _ span | float _ span | str _ span | char _ span | boolean _ span
  | numberArray _ span | charArray _ span | strArray _ span | identifier _ span
  | index _ _ span | fieldAccess _ _ span | call _ _ span | unary _ _ span
  | binary _ _ _ span | parenthesized _ span => span

end Expression

end CheckedScript
