import CheckedScript.Ast.Expression

/-!
# Statements and programs

The syntax tree of a program: an ordered list of statements, each with the span it was read from.
-/

namespace CheckedScript

/-- A typed name: a parameter of a function or a field of a record type. -/
structure Declarator where
  type : TypeName
  name : Identifier
deriving DecidableEq, Inhabited

mutual

inductive Statement where
  | variable (type : TypeName) (name : Identifier) (initializer : Option Expression) (span : Span)
  | assignment (name : Identifier) (value : Expression) (span : Span)
  | fieldAssignment (record field : Identifier) (value : Expression) (span : Span)
  /-- A function whose missing return type means that it returns nothing. -/
  | function (name : Identifier) (parameters : List Declarator) (returnType : Option TypeName)
      (body : Block) (span : Span)
  | block (body : Block) (span : Span)
  /-- The branches of an `if`, tried in order, and the block that runs if none is taken. -/
  | conditional (branches : List Branch) (otherwise : Option Block) (span : Span)
  | while (condition : Expression) (body : Block) (span : Span)
  | break (span : Span)
  | continue (span : Span)
  | return (value : Option Expression) (span : Span)
  | print (value : Expression) (span : Span)
  | attempt (guarded recovery : Block) (span : Span)
  | recordType (name : Identifier) (fields : List Declarator) (span : Span)
  | recordInstance (recordType name : Identifier) (span : Span)
  | expression (value : Expression) (span : Span)

inductive Block where
  | mk (statements : List Statement) (span : Span)

/-- One arm of an `if`: a condition and the block it guards. -/
inductive Branch where
  | mk (condition : Expression) (body : Block) (span : Span)

end

namespace Statement

def span : Statement → Span
  | «variable» _ _ _ span | assignment _ _ span | fieldAssignment _ _ _ span
  | function _ _ _ _ span | block _ span | conditional _ _ span | «while» _ _ span
  | «break» span | «continue» span | «return» _ span | print _ span | attempt _ _ span
  | recordType _ _ span | recordInstance _ _ span | expression _ span => span

end Statement

namespace Block

def statements : Block → List Statement
  | mk statements _ => statements

def span : Block → Span
  | mk _ span => span

end Block

namespace Branch

def condition : Branch → Expression
  | mk condition _ _ => condition

def body : Branch → Block
  | mk _ body _ => body

def span : Branch → Span
  | mk _ _ span => span

end Branch

/-- A whole program. -/
structure Program where
  statements : List Statement
  span : Span
deriving Inhabited

end CheckedScript
