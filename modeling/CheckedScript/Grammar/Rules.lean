import CheckedScript.Grammar.Pattern

/-!
# The grammar

The pattern of every rule and how it treats blanks. Statements end with a semicolon, blocks stand in
braces, and conditions need no parentheses.
-/

namespace CheckedScript.Grammar

open Pattern

/-- A character that can continue a word. -/
def isWordChar (c : Char) : Bool := c.isAlphanum || c == '_'

/-- A character that can open a word. -/
def isWordStart (c : Char) : Bool := c.isAlpha || c == '_'

/-- A word that is not the beginning of a longer one. -/
def wholeWord (p : Pattern) : Pattern := p ++ absent (satisfying isWordChar)

def digit : Pattern := satisfying Char.isDigit

/-- A backslash and the character after it. -/
def escapeSequence : Pattern := word "\\" ++ anyChar

/-- One character between quotes, or an escape. -/
def quotedChar (quote : Char) : Pattern :=
  escapeSequence <|> satisfying fun c => c != quote && c != '\\' && c != '\n'

/-- The words that name nothing. -/
def reservedWords : List String :=
  ["func", "type", "if", "else", "while", "break", "continue", "return", "print", "try", "recover",
    "and", "or", "not", "true", "false", "int", "float", "str", "char", "bool", "void"]

/-- An equals sign that is not the first half of a comparison. -/
def assignmentSign : Pattern := word "=" ++ absent (word "=")

def statement : Pattern :=
  rule .functionDeclaration <|> rule .recordTypeDeclaration <|> rule .ifStatement
    <|> rule .whileStatement <|> rule .tryStatement <|> rule .block <|> rule .breakStatement
    <|> rule .continueStatement <|> rule .returnStatement <|> rule .printStatement
    <|> rule .variableDeclaration <|> rule .fieldAssignment <|> rule .assignment
    <|> rule .recordInstanceDeclaration <|> rule .expressionStatement

def prefixSign : Pattern := rule (.unaryOperator .negate) <|> rule (.unaryOperator .not)

def infixSign : Pattern :=
  rule (.binaryOperator .or) <|> rule (.binaryOperator .and)
    <|> rule (.binaryOperator .equal) <|> rule (.binaryOperator .notEqual)
    <|> rule (.binaryOperator .lessEqual) <|> rule (.binaryOperator .greaterEqual)
    <|> rule (.binaryOperator .less) <|> rule (.binaryOperator .greater)
    <|> rule (.binaryOperator .add) <|> rule (.binaryOperator .subtract)
    <|> rule (.binaryOperator .multiply) <|> rule (.binaryOperator .divide)

def literal : Pattern :=
  rule .float <|> rule .integer <|> rule .string <|> rule .charLiteral <|> rule .boolean
    <|> rule .numberArray <|> rule .charArray <|> rule .strArray

def primary : Pattern :=
  rule .functionCall <|> rule .indexAccess <|> rule .fieldAccess <|> literal <|> rule .identifier
    <|> rule .parenthesized

/-- An operand with the unary operators in front of it. -/
def operand : Pattern := many prefixSign ++ primary

namespace Rule

/-- Words, numbers and the contents of quotes are sealed; quotes themselves keep their content. -/
def spacing : Rule → Spacing
  | reservedWord | keyword _ | identifier | typeName | voidType => .sealed
  | unaryOperator .not | binaryOperator .or | binaryOperator .and => .sealed
  | float | integer | boolean | stringContent | charContent | numberElement => .sealed
  | string | charLiteral => .tight
  | _ => .free

def pattern : Rule → Pattern
  | program => nothing ++ many statement ++ rule endOfInput
  | expressionInput => nothing ++ rule expression ++ rule endOfInput
  | endOfInput => endOfText
  | reservedWord => wholeWord (anyWord reservedWords)
  | keyword word => wholeWord (.word word.text)
  | identifier => absent (rule reservedWord) ++ satisfying isWordStart ++ many (satisfying isWordChar)
  | typeName =>
    wholeWord (anyWord ["int", "float", "str", "char", "bool"]) ++ optional (word "[" ++ word "]")
  | voidType => wholeWord (word "void")
  | block => word "\x7b" ++ many statement ++ word "\x7d"
  | variableDeclaration =>
    rule typeName ++ rule identifier ++ optional (word "=" ++ rule expression) ++ word ";"
  | recordInstanceDeclaration => rule identifier ++ rule identifier ++ word ";"
  | functionDeclaration =>
    rule (keyword .func) ++ rule identifier ++ word "(" ++ optional (rule parameterList) ++ word ")"
      ++ optional (rule voidType <|> rule typeName) ++ rule block
  | parameterList => commaSeparated (rule parameter)
  | parameter => rule typeName ++ rule identifier
  | recordTypeDeclaration =>
    rule (keyword .type) ++ rule identifier ++ word "\x7b" ++ many (rule fieldDeclaration)
      ++ word "\x7d"
  | fieldDeclaration => rule typeName ++ rule identifier ++ word ";"
  | assignment => rule identifier ++ assignmentSign ++ rule expression ++ word ";"
  | fieldAssignment =>
    rule identifier ++ word "." ++ rule identifier ++ assignmentSign ++ rule expression ++ word ";"
  | ifStatement =>
    rule (keyword .if) ++ rule expression ++ rule block ++ many (rule elseIfClause)
      ++ optional (rule elseClause)
  | elseIfClause => rule (keyword .else) ++ rule (keyword .if) ++ rule expression ++ rule block
  | elseClause => rule (keyword .else) ++ rule block
  | whileStatement => rule (keyword .while) ++ rule expression ++ rule block
  | tryStatement => rule (keyword .try) ++ rule block ++ rule (keyword .recover) ++ rule block
  | breakStatement => rule (keyword .break) ++ word ";"
  | continueStatement => rule (keyword .continue) ++ word ";"
  | returnStatement => rule (keyword .return) ++ optional (rule expression) ++ word ";"
  | printStatement => rule (keyword .print) ++ rule expression ++ word ";"
  | expressionStatement => rule expression ++ word ";"
  | expression => operand ++ many (infixSign ++ operand)
  | unaryOperator .negate => word "-"
  | unaryOperator .not => wholeWord (word "not")
  | binaryOperator .or => wholeWord (word "or")
  | binaryOperator .and => wholeWord (word "and")
  | binaryOperator operator => word operator.symbol
  | functionCall => rule identifier ++ word "(" ++ optional (rule argumentList) ++ word ")"
  | argumentList => commaSeparated (rule expression)
  | indexAccess => rule identifier ++ word "[" ++ rule expression ++ word "]"
  | fieldAccess => rule identifier ++ word "." ++ rule identifier
  | parenthesized => word "(" ++ rule expression ++ word ")"
  | float => oneOrMore digit ++ word "." ++ oneOrMore digit
  | integer => oneOrMore digit ++ absent (word "." ++ digit)
  | boolean => wholeWord (anyWord ["true", "false"])
  | string => word "\"" ++ rule stringContent ++ word "\""
  | stringContent => many (quotedChar '"')
  | charLiteral => word "'" ++ rule charContent ++ word "'"
  | charContent => quotedChar '\''
  | numberElement => optional (word "-") ++ oneOrMore digit ++ optional (word "." ++ oneOrMore digit)
  | numberArray => word "[" ++ commaSeparated (rule numberElement) ++ word "]"
  | charArray => word "[" ++ commaSeparated (rule charLiteral) ++ word "]"
  | strArray => word "[" ++ commaSeparated (rule string) ++ word "]"

end Rule

end CheckedScript.Grammar
