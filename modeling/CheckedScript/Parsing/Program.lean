import CheckedScript.Ast.Statement
import CheckedScript.Grammar.Match
import CheckedScript.Parsing.Expression

/-!
# Reading programs

The syntax tree of a program, and the two ways into the parser: `parseProgram` and
`parseExpression`. A text that does not match the grammar is refused before any literal is looked at.
-/

namespace CheckedScript.Parsing

open Grammar

/-- Reads a scalar type name, or an array of one. -/
def readTypeName (n : Node) : Except ParseError TypeName :=
  let isArray := n.characters.contains '['
  match Primitive.ofKeyword? (.ofList (n.characters.takeWhile (· != '['))) with
  | some primitive => .ok ⟨primitive, isArray, n.span⟩
  | none => .error (.malformed "a type" n.rule n.span)

/-- Reads the type and the name of a parameter or a field. -/
def readDeclarator (n : Node) : Except ParseError Declarator :=
  match n.children with
  | [type, name] => return ⟨← readTypeName type, ← readIdentifier name⟩
  | _ => .error (.malformed "a type and a name" none n.span)

/-- The parameters that stand in front of a function's return type and body. -/
def readParameters : List Node → Except ParseError (List Declarator)
  | .mk .parameterList _ _ parameters :: _ => parameters.mapM readDeclarator
  | _ => .ok []

/-- The return type that stands in front of a function's body. -/
def readReturnType : List Node → Except ParseError (Option TypeName)
  | [] => .ok none
  | n@(.mk .typeName ..) :: _ => return some (← readTypeName n)
  | _ :: rest => readReturnType rest

mutual

def readStatement : Node → Except ParseError Statement
  | .mk rule start stop children =>
    let span := Span.between start.position stop.position
    match rule, children with
    | .variableDeclaration, [type, name] => do
      return .variable (← readTypeName type) (← readIdentifier name) none span
    | .variableDeclaration, [type, name, value] => do
      return .variable (← readTypeName type) (← readIdentifier name) (← readExpression value) span
    | .assignment, [name, value] => do
      return .assignment (← readIdentifier name) (← readExpression value) span
    | .fieldAssignment, [record, field, value] => do
      return .fieldAssignment (← readIdentifier record) (← readIdentifier field)
        (← readExpression value) span
    | .functionDeclaration, _ :: name :: signature => do
      let name ← readIdentifier name
      let parameters ← readParameters signature
      let returnType ← readReturnType signature
      return .function name parameters returnType (← readLastBlock signature) span
    | .block, statements => return .block (.mk (← readStatements statements) span) span
    | .ifStatement, _ :: condition :: body :: clauses => do
      let first := Branch.mk (← readExpression condition) (← readBlock body) span
      let (branches, otherwise) ← readClauses clauses
      return .conditional (first :: branches) otherwise span
    | .whileStatement, [_, condition, body] => do
      return .while (← readExpression condition) (← readBlock body) span
    | .tryStatement, [_, guarded, _, recovery] => do
      return .attempt (← readBlock guarded) (← readBlock recovery) span
    | .breakStatement, _ => .ok (.break span)
    | .continueStatement, _ => .ok (.continue span)
    | .returnStatement, [_] => .ok (.return none span)
    | .returnStatement, [_, value] => return .return (← readExpression value) span
    | .printStatement, [_, value] => return .print (← readExpression value) span
    | .recordTypeDeclaration, _ :: name :: fields => do
      return .recordType (← readIdentifier name) (← fields.mapM readDeclarator) span
    | .recordInstanceDeclaration, [recordType, name] => do
      return .recordInstance (← readIdentifier recordType) (← readIdentifier name) span
    | .expressionStatement, [value] => return .expression (← readExpression value) span
    | rule, _ => .error (.malformed "a statement" rule span)

def readStatements : List Node → Except ParseError (List Statement)
  | [] => .ok []
  | n :: rest => do
    let statement ← readStatement n
    return statement :: (← readStatements rest)

def readBlock : Node → Except ParseError Block
  | .mk .block start stop statements => do
    return .mk (← readStatements statements) (.between start.position stop.position)
  | n => .error (.malformed "a block" n.rule n.span)

/-- Reads the block that ends a function's signature. -/
def readLastBlock : List Node → Except ParseError Block
  | [] => .error (.malformed "a function body" none default)
  | [body] => readBlock body
  | _ :: rest => readLastBlock rest

/-- Reads the further branches of an `if` and its last block. -/
def readClauses : List Node → Except ParseError (List Branch × Option Block)
  | [] => .ok ([], none)
  | .mk .elseClause _ _ [_, body] :: _ => return ([], some (← readBlock body))
  | .mk .elseIfClause start stop [_, _, condition, body] :: rest => do
    let branch := Branch.mk (← readExpression condition) (← readBlock body)
      (.between start.position stop.position)
    let (branches, otherwise) ← readClauses rest
    return (branch :: branches, otherwise)
  | n :: _ => .error (.malformed "an else clause" n.rule n.span)

end

/-- The place `bytes` bytes into `text`. -/
def positionAt (text : List Char) (bytes : Nat) : Position :=
  Position.origin.advanceBy (Cursor.takeBytes bytes text)

/-- The error for a text whose furthest failures are `attempts`. -/
def mismatchError (text : List Char) (attempts : Attempts) : ParseError :=
  let expected := (attempts.rules.map Rule.description).mergeSort fun a b => decide (a ≤ b)
  .mismatch (positionAt text attempts.furthest) expected.eraseReps

/-- The concrete tree of a text that matches `rule` as a whole. -/
def readText (rule : Rule) (text : List Char) : Except ParseError Node :=
  match matchText rule text with
  | .success [n] _ _ => .ok n
  | .success _ _ attempts | .failure attempts => .error (mismatchError text attempts)
  | .cutOff => .error (.mismatch .origin [])

/-- Reads a whole program. -/
def parseProgram (source : String) : Except ParseError Program := do
  let n ← readText .program source.toList
  let statements ← readStatements (n.children.filter (·.rule ≠ .endOfInput))
  return ⟨statements, n.span⟩

/-- Reads a single expression, which is not followed by a semicolon. -/
def parseExpression (source : String) : Except ParseError Expression := do
  let n ← readText .expressionInput source.toList
  match n.children with
  | value :: _ => readExpression value
  | [] => .error (.malformed "an expression" none n.span)

end CheckedScript.Parsing
