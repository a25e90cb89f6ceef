import CheckedScript.Listing.Outline
import CheckedScript.Listing.Program

/-!
# Programs in full detail

The syntax tree of a program as an outline that shows every node with its span.
-/

namespace CheckedScript.Listing.Detailed

open Outline (record tagged items optional)

def count (n : Nat) : Outline := .leaf (toString n)

def truth (b : Bool) : Outline := .leaf (Value.boolText b)

def ofSpan (s : Span) : Outline :=
  record "Span"
    [("start", count s.start), ("end", count s.stop), ("line", count s.line),
      ("column", count s.column)]

def ofIdentifier (name : Identifier) : Outline :=
  record "Identifier" [("name", .leaf (Text.quoteString name.name)), ("span", ofSpan name.span)]

def primitiveName : Primitive → String
  | .int => "Int"
  | .float => "Float"
  | .str => "Str"
  | .char => "Char"
  | .bool => "Bool"

def ofTypeName (t : TypeName) : Outline :=
  record "TypeName"
    [("primitive", .leaf (primitiveName t.primitive)), ("is_array", truth t.isArray),
      ("span", ofSpan t.span)]

/-- A typed name under the name of the place that it stands in. -/
def ofDeclarator (place : String) (d : Declarator) : Outline :=
  record place [("type_name", ofTypeName d.type), ("name", ofIdentifier d.name)]

def unaryName : UnaryOperator → String
  | .negate => "Negate"
  | .not => "Not"

def binaryName : BinaryOperator → String
  | .add => "Add"
  | .subtract => "Subtract"
  | .multiply => "Multiply"
  | .divide => "Divide"
  | .equal => "Equal"
  | .notEqual => "NotEqual"
  | .less => "Less"
  | .lessEqual => "LessEqual"
  | .greater => "Greater"
  | .greaterEqual => "GreaterEqual"
  | .and => "And"
  | .or => "Or"

def ofInteger (w : Word) : Outline := .leaf (integerText w)

def ofFloat (x : Float) : Outline := .leaf (Decimal.general x)

def ofString (s : String) : Outline := .leaf (Text.quoteString s)

def ofChar (c : Char) : Outline := .leaf (Text.quoteChar c)

def ofNumber : NumberLiteral → Outline
  | .int w => tagged "Int" (ofInteger w)
  | .float x => tagged "Float" (ofFloat x)

/-- A node: what kind it is of, and where it stands. -/
def node (name : String) (span : Span) (kind : Outline) : Outline :=
  record name [("kind", kind), ("span", ofSpan span)]

def expression (span : Span) (kind : Outline) : Outline := node "Expression" span kind

mutual

def ofExpression : Expression → Outline
  | .integer w span => expression span (tagged "Integer" (ofInteger w))
  | .float x span => expression span (tagged "Float" (ofFloat x))
  | .str s span => expression span (tagged "Str" (ofString s))
  | .char c span => expression span (tagged "Char" (ofChar c))
  | .boolean b span => expression span (tagged "Boolean" (truth b))
  | .numberArray elements span =>
    expression span (tagged "IntArray" (items (elements.map ofNumber)))
  | .charArray elements span => expression span (tagged "CharArray" (items (elements.map ofChar)))
  | .strArray elements span => expression span (tagged "StrArray" (items (elements.map ofString)))
  | .identifier name span => expression span (tagged "Identifier" (ofIdentifier name))
  | .index array index span =>
    expression span (tagged "Index" (record "IndexAccess"
      [("array", ofIdentifier array), ("index", ofExpression index)]))
  | .fieldAccess owner field span =>
    expression span (tagged "FieldAccess" (record "FieldAccess"
      [("record", ofIdentifier owner), ("field", ofIdentifier field)]))
  | .call name arguments span =>
    expression span (tagged "Call" (record "FunctionCall"
      [("name", ofIdentifier name), ("arguments", items (ofArguments arguments))]))
  | .unary operator operand span =>
    expression span (tagged "Unary" (record "UnaryOperation"
      [("operator", .leaf (unaryName operator)), ("operand", ofExpression operand)]))
  | .binary operator left right span =>
    expression span (tagged "Binary" (record "BinaryOperation"
      [("left", ofExpression left), ("operator", .leaf (binaryName operator)),
        ("right", ofExpression right)]))
  | .parenthesized inner span => expression span (tagged "Parenthesized" (ofExpression inner))

def ofArguments : List Expression → List Outline
  | [] => []
  | e :: rest => ofExpression e :: ofArguments rest

end

def statement (span : Span) (kind : Outline) : Outline := node "Statement" span kind

mutual

def ofStatement : Statement → Outline
  | .variable type name initializer span =>
    statement span (tagged "VariableDeclaration" (record "VariableDeclaration"
      [("type_name", ofTypeName type), ("name", ofIdentifier name),
        ("initializer", optional (initializer.map ofExpression))]))
  | .assignment name value span =>
    statement span (tagged "Assignment" (record "Assignment"
      [("target", tagged "Variable" (ofIdentifier name)), ("value", ofExpression value)]))
  | .fieldAssignment owner field value span =>
    let target := record "Field" [("record", ofIdentifier owner), ("field", ofIdentifier field)]
    statement span (tagged "Assignment" (record "Assignment"
      [("target", target), ("value", ofExpression value)]))
  | .function name parameters returnType body span =>
    statement span (tagged "FunctionDeclaration" (record "FunctionDeclaration"
      [("name", ofIdentifier name), ("parameters", items (parameters.map (ofDeclarator "Parameter"))),
        ("return_type", optional (returnType.map ofTypeName)), ("body", ofBlock body)]))
  | .block body span => statement span (tagged "Block" (ofBlock body))
  | .conditional branches none span =>
    statement span (tagged "If" (record "IfStatement"
      [("branches", items (ofBranches branches)), ("else_block", optional none)]))
  | .conditional branches (some otherwise) span =>
    statement span (tagged "If" (record "IfStatement"
      [("branches", items (ofBranches branches)), ("else_block", optional (ofBlock otherwise))]))
  | .while condition body span =>
    statement span (tagged "While" (record "WhileStatement"
      [("condition", ofExpression condition), ("body", ofBlock body)]))
  | .break span => statement span (.leaf "Break")
  | .continue span => statement span (.leaf "Continue")
  | .return value span => statement span (tagged "Return" (optional (value.map ofExpression)))
  | .print value span => statement span (tagged "Print" (ofExpression value))
  | .attempt guarded recovery span =>
    statement span (tagged "Try" (record "TryStatement"
      [("protected", ofBlock guarded), ("recovery", ofBlock recovery)]))
  | .recordType name fields span =>
    statement span (tagged "RecordTypeDeclaration" (record "RecordTypeDeclaration"
      [("name", ofIdentifier name), ("fields", items (fields.map (ofDeclarator "FieldDeclaration")))]))
  | .recordInstance type name span =>
    statement span (tagged "RecordInstanceDeclaration" (record "RecordInstanceDeclaration"
      [("record_type", ofIdentifier type), ("name", ofIdentifier name)]))
  | .expression value span => statement span (tagged "Expression" (ofExpression value))

def ofStatements : List Statement → List Outline
  | [] => []
  | s :: rest => ofStatement s :: ofStatements rest

def ofBlock : Block → Outline
  | .mk statements span =>
    record "Block" [("statements", items (ofStatements statements)), ("span", ofSpan span)]

def ofBranches : List Branch → List Outline
  | [] => []
  | .mk condition body span :: rest =>
    record "ConditionalBranch"
        [("condition", ofExpression condition), ("body", ofBlock body), ("span", ofSpan span)] ::
      ofBranches rest

end

def ofProgram (p : Program) : Outline :=
  record "Program" [("statements", items (ofStatements p.statements)), ("span", ofSpan p.span)]

/-- A program's outline, every node of it with its span. -/
def programText (p : Program) : String := (ofProgram p).render 0

end CheckedScript.Listing.Detailed
