import CheckedScript.Ast.Operator

/-!
# Grammar rules

The names of the grammar's rules, and the words in which a syntax error speaks of each.
-/

namespace CheckedScript

/-- The words that open a statement or a clause. -/
inductive Keyword where
  | func
  | type
  | if
  | else
  | while
  | break
  | continue
  | return
  | print
  | try
  | recover
deriving DecidableEq, Inhabited

def Keyword.text : Keyword → String
  | .func => "func"
  | .type => "type"
  | .if => "if"
  | .else => "else"
  | .while => "while"
  | .break => "break"
  | .continue => "continue"
  | .return => "return"
  | .print => "print"
  | .try => "try"
  | .recover => "recover"

namespace Grammar

inductive Rule where
  | program
  | expressionInput
  | endOfInput
  | reservedWord
  | keyword (word : Keyword)
  | identifier
  | typeName
  | voidType
  | block
  | variableDeclaration
  | recordInstanceDeclaration
  | functionDeclaration
  | parameterList
  | parameter
  | recordTypeDeclaration
  | fieldDeclaration
  | assignment
  | fieldAssignment
  | ifStatement
  | elseIfClause
  | elseClause
  | whileStatement
  | tryStatement
  | breakStatement
  | continueStatement
  | returnStatement
  | printStatement
  | expressionStatement
  | expression
  | unaryOperator (operator : UnaryOperator)
  | binaryOperator (operator : BinaryOperator)
  | functionCall
  | argumentList
  | indexAccess
  | fieldAccess
  | parenthesized
  | float
  | integer
  | boolean
  | string
  | stringContent
  | charLiteral
  | charContent
  | numberElement
  | numberArray
  | charArray
  | strArray
deriving DecidableEq, Inhabited

namespace Rule

/-- What a reader is told the rule stands for. -/
def description : Rule → String
  | program => "program"
  | expressionInput => "expression input"
  | endOfInput => "end of input"
  | reservedWord => "keyword"
  | keyword .recover => "'recover'"
  | keyword .else => "'else'"
  | keyword .if => "'if'"
  | keyword word => "keyword " ++ word.text
  | identifier => "an identifier"
  | typeName => "a type (int, float, str, char, bool, or an array like int[])"
  | voidType => "'void'"
  | block => "a block (\x7b ... \x7d)"
  | variableDeclaration => "a variable declaration (int x = 1;)"
  | recordInstanceDeclaration => "a record declaration (Name variable;)"
  | functionDeclaration => "a function declaration (func name(...) \x7b ... \x7d)"
  | parameterList | parameter => "a parameter (like int x)"
  | recordTypeDeclaration => "a type declaration (type Name \x7b ... \x7d)"
  | fieldDeclaration => "a field declaration (like int x;)"
  | assignment | fieldAssignment => "an assignment"
  | ifStatement => "an if statement"
  | elseIfClause | elseClause => "an else clause"
  | whileStatement => "a while loop"
  | tryStatement => "a try/recover statement"
  | breakStatement => "break statement"
  | continueStatement => "continue statement"
  | returnStatement => "a return statement"
  | printStatement => "a print statement"
  | expressionStatement => "an expression statement"
  | expression => "an expression"
  | unaryOperator _ => "a unary operator"
  | binaryOperator _ => "an operator"
  | functionCall => "a function call (like f(1, 2))"
  | argumentList => "function arguments"
  | indexAccess => "an index (like arr[0])"
  | fieldAccess => "a field access (like point.x)"
  | parenthesized => "a parenthesized expression"
  | float => "a float (like 3.14)"
  | integer => "an integer (like 42)"
  | boolean => "a boolean (true or false)"
  | string => "a string (like \"hello\")"
  | stringContent => "string content"
  | charLiteral => "a character (like 'a')"
  | charContent => "char content"
  | numberElement => "a number"
  | numberArray | charArray | strArray => "an array literal (like [1, 2, 3])"

end Rule

end Grammar

end CheckedScript
