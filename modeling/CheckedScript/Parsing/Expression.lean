import CheckedScript.Parsing.Literal
import CheckedScript.Parsing.Precedence

/-!
# Reading expressions

The syntax tree of an expression, read from its concrete tree.
-/

namespace CheckedScript.Parsing

open Grammar

def readIdentifier : Node → Except ParseError Identifier
  | n@(.mk .identifier ..) => .ok ⟨n.text, n.span⟩
  | n => .error (.malformed "an identifier" n.rule n.span)

mutual

def readExpression : Node → Except ParseError Expression
  | .mk .expression start stop children => do
    match ExpressionPart.group (← readParts children) with
    | some value => .ok value
    | none => .error (.malformed "an operand" none (.between start.position stop.position))
  | n => .error (.malformed "an expression" n.rule n.span)

def readParts : List Node → Except ParseError (List ExpressionPart)
  | [] => .ok []
  | .mk (.unaryOperator operator) start stop _ :: rest => do
    return .unary operator (.between start.position stop.position) :: (← readParts rest)
  | .mk (.binaryOperator operator) _ _ _ :: rest => do
    return .binary operator :: (← readParts rest)
  | n :: rest => do
    let value ← readPrimary n
    return .operand value :: (← readParts rest)

/-- Reads a literal, a name, a call, an indexing, a field access or a parenthesized expression. -/
def readPrimary : Node → Except ParseError Expression
  | .mk rule start stop children =>
    let span := Span.between start.position stop.position
    let whole := Node.mk rule start stop children
    match rule, children with
    | .integer, _ => return .integer (← readInteger whole) span
    | .float, _ => return .float (← readFloat whole) span
    | .string, _ => return .str (← readString whole) span
    | .charLiteral, _ => return .char (← readChar whole) span
    | .boolean, _ => .ok (.boolean (whole.text == "true") span)
    | .numberArray, elements => return .numberArray (← elements.mapM readNumberElement) span
    | .charArray, elements => return .charArray (← elements.mapM readChar) span
    | .strArray, elements => return .strArray (← elements.mapM readString) span
    | .identifier, _ => return .identifier (← readIdentifier whole) span
    | .functionCall, [name] => return .call (← readIdentifier name) [] span
    | .functionCall, [name, .mk _ _ _ arguments] => do
      return .call (← readIdentifier name) (← readArguments arguments) span
    | .indexAccess, [array, index] => do
      return .index (← readIdentifier array) (← readExpression index) span
    | .fieldAccess, [record, field] => do
      return .fieldAccess (← readIdentifier record) (← readIdentifier field) span
    | .parenthesized, [inner] => return .parenthesized (← readExpression inner) span
    | rule, _ => .error (.malformed "an expression" rule span)

def readArguments : List Node → Except ParseError (List Expression)
  | [] => .ok []
  | n :: rest => do
    let value ← readExpression n
    return value :: (← readArguments rest)

end

end CheckedScript.Parsing
