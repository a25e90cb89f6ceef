import CheckedScript.Ast.Statement
import CheckedScript.Decimal.Layout
import CheckedScript.Listing.SExpr
import CheckedScript.Text.Quoted
import CheckedScript.Value.Text
import CheckedScript.Value.Ty

/-!
# Programs as nested lists

The syntax tree of a program written as nested lists. Spans and the parentheses of the source leave
no trace.
-/

namespace CheckedScript.Listing

def integerText (w : Word) : String := toString w.toInt

/-- A character between single quotes, in printable ASCII. -/
def charText (c : Char) : String := .ofList (['\''] ++ Text.escapeStrict c ++ ['\''])

def numberText : NumberLiteral → String
  | .int w => integerText w
  | .float x => Decimal.general x

def declaratorList (d : Declarator) : SExpr := .flat [d.type.text, d.name.name]

mutual

def ofExpression : Expression → SExpr
  | .integer w _ => .flat ["integer", integerText w]
  | .float x _ => .flat ["float", Decimal.general x]
  | .str s _ => .atom (Text.quoteString s)
  | .char c _ => .flat ["char", charText c]
  | .boolean b _ => .flat ["boolean", Value.boolText b]
  | .numberArray elements _ => .list "array" (elements.map fun n => .atom (numberText n))
  | .charArray elements _ => .list "array" (elements.map fun c => .atom (charText c))
  | .strArray elements _ => .list "array" (elements.map fun s => .atom (Text.quoteString s))
  | .identifier name _ => .atom name.name
  | .index array index _ => .list s!"index {array.name}" [ofExpression index]
  | .fieldAccess record field _ => .flat ["field", record.name, field.name]
  | .call name arguments _ => .list s!"call {name.name}" (ofArguments arguments)
  | .unary operator operand _ => .list operator.symbol [ofExpression operand]
  | .binary operator left right _ => .list operator.symbol [ofExpression left, ofExpression right]
  | .parenthesized inner _ => ofExpression inner

def ofArguments : List Expression → List SExpr
  | [] => []
  | e :: rest => ofExpression e :: ofArguments rest

end

def returnTypeText : Option TypeName → String
  | some t => t.text
  | none => Ty.void.text

mutual

def ofStatement : Statement → SExpr
  | .variable type name none _ => .list s!"declare {type.text} {name.name}" []
  | .variable type name (some value) _ =>
    .list s!"declare {type.text} {name.name}" [ofExpression value]
  | .assignment name value _ => .list s!"assign {name.name}" [ofExpression value]
  | .fieldAssignment record field value _ =>
    .list s!"assign {record.name}.{field.name}" [ofExpression value]
  | .function name parameters returnType body _ =>
    .list s!"func {name.name}"
      [.list "params" (parameters.map declaratorList), .flat ["returns", returnTypeText returnType],
        ofBlock body]
  | .block body _ => ofBlock body
  | .conditional branches none _ => .list "if" (ofBranches branches)
  | .conditional branches (some otherwise) _ =>
    .list "if" (ofBranches branches ++ [.list "else" [ofBlock otherwise]])
  | .while condition body _ => .list "while" [ofExpression condition, ofBlock body]
  | .break _ => .flat ["break"]
  | .continue _ => .flat ["continue"]
  | .return none _ => .list "return" []
  | .return (some value) _ => .list "return" [ofExpression value]
  | .print value _ => .list "print" [ofExpression value]
  | .attempt guarded recovery _ =>
    .list "try" [ofBlock guarded, .list "recover" [ofBlock recovery]]
  | .recordType name fields _ => .list s!"type {name.name}" (fields.map declaratorList)
  | .recordInstance recordType name _ => .flat ["record", recordType.name, name.name]
  | .expression value _ => ofExpression value

def ofStatements : List Statement → List SExpr
  | [] => []
  | s :: rest => ofStatement s :: ofStatements rest

def ofBlock : Block → SExpr
  | .mk statements _ => .list "block" (ofStatements statements)

def ofBranches : List Branch → List SExpr
  | [] => []
  | .mk condition body _ :: rest =>
    .list "branch" [ofExpression condition, ofBlock body] :: ofBranches rest

end

/-- A program's list. Two or more statements stand on lines of their own, however narrow. -/
def programText (p : Program) : String :=
  match renderAll 2 (ofStatements p.statements) with
  | [] => "(program)"
  | [only] => parenthesize s!"program {only}"
  | items => parenthesize (items.foldl (fun front item => front ++ lineBreak 2 ++ item) "program")

end CheckedScript.Listing
