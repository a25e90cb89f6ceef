import CheckedScript.Ast.Expression
import CheckedScript.Check.Context
import CheckedScript.Check.Diagnostic

/-!
# Typing expressions

Every expression gets a type, or none where an error leaves its type unknown. An unknown type is
not reported a second time by the expressions around it.
-/

namespace CheckedScript

/-- The type of an expression, if it is known, and what was found wrong on the way. -/
structure Typing where
  type : Option Ty
  diagnostics : List Diagnostic
deriving Inhabited

namespace Typing

def known (type : Ty) : Typing := ⟨some type, []⟩

/-- A type that is known in spite of an error. -/
def knownWith (type : Ty) (error : SemanticError) (span : Span) : Typing :=
  ⟨some type, [⟨error, span⟩]⟩

def unknown (error : SemanticError) (span : Span) : Typing := ⟨none, [⟨error, span⟩]⟩

/-- The typing after what was found in the parts of an expression. -/
def after (earlier : List Diagnostic) (t : Typing) : Typing :=
  { t with diagnostics := earlier ++ t.diagnostics }

end Typing

namespace Check

/-- The elements of an array literal are floats as soon as one of them has a point. -/
def numberArrayType (elements : List NumberLiteral) : Ty :=
  let isFloat : NumberLiteral → Bool
    | .float _ => true
    | .int _ => false
  .array (if elements.any isFloat then .float else .int)

/-- The caught message may be read inside recover blocks only. -/
def typeOfErrorAccessor (context : CheckContext) (span : Span) : Typing :=
  if context.inRecovery then .known .str
  else .knownWith .str (.errorAccessorOutsideRecover errorAccessor) span

def typeOfIdentifier (store : Store) (context : CheckContext) (name : Identifier) : Typing :=
  if store.isErrorAccessor name.name then typeOfErrorAccessor context name.span
  else
    match store.lookup? name.name with
    | some (.variable type _) => .known type
    | some other => .unknown (.notAValue name.name other.kindName) name.span
    | none => .unknown (.undefinedVariable name.name) name.span

/-- The type of the elements of the array `name`. -/
def elementTypeOf (store : Store) (name : Identifier) : Typing :=
  match store.lookup? name.name with
  | some (.variable (.array element) _) => .known element
  | some (.variable type _) => .unknown (.notAnArray name.name type) name.span
  | some other => .unknown (.notAValue name.name other.kindName) name.span
  | none => .unknown (.undefinedVariable name.name) name.span

def typeOfIndex (store : Store) (array : Identifier) (index : Typing) (indexSpan : Span) : Typing :=
  let wrongIndex : List Diagnostic :=
    match index.type with
    | none | some .int => []
    | some found => [⟨.nonIntIndex found, indexSpan⟩]
  (elementTypeOf store array).after (index.diagnostics ++ wrongIndex)

/-- The declared type of a field, for reading it and for assigning to it. -/
def typeOfField (store : Store) (record field : Identifier) : Typing :=
  match store.lookup? record.name with
  | some (.recordInstance r) =>
    match r.fields.find? field.name with
    | some slot => .known slot.type
    | none => .unknown (.fieldNotFound r.recordType field.name) field.span
  | some _ => .unknown (.notARecord record.name) record.span
  | none => .unknown (.undefinedVariable record.name) record.span

/-- Compares the types of arguments with those of the parameters from `position` on. -/
def argumentErrors (function : String) :
    (position : Nat) → List (Option Ty × Span) → List FunctionParameter → List Diagnostic
  | position, (found, span) :: arguments, parameter :: parameters =>
    let rest := argumentErrors function (position + 1) arguments parameters
    match found with
    | some found =>
      if found = parameter.type then rest
      else ⟨.argumentType function position parameter.type found, span⟩ :: rest
    | none => rest
  | _, _, _ => []

/-- The type of a call whose arguments have these types. -/
def typeOfCall (store : Store) (name : Identifier) (arguments : List (Option Ty × Span)) : Typing :=
  match store.lookup? name.name with
  | some (.function f) =>
    if arguments.length ≠ f.parameters.length then
      .knownWith f.returnType (.argumentCount f.name f.parameters.length arguments.length) name.span
    else ⟨some f.returnType, argumentErrors f.name 1 arguments f.parameters⟩
  | some other => .unknown (.notAFunction name.name other.kindName) name.span
  | none => .unknown (.undefinedFunction name.name) name.span

def typeOfUnary (operator : UnaryOperator) (operand : Ty) (span : Span) : Typing :=
  match operator with
  | .negate =>
    if operand.isNumeric then .known operand
    else .unknown (.unaryOperand operator.symbol "numeric" operand) span
  | .not =>
    if operand = .bool then .known .bool
    else .knownWith .bool (.unaryOperand operator.symbol "boolean" operand) span

/-- An integer that meets a float counts as a float; text is only ever added to text. -/
def typeOfArithmetic (operator : BinaryOperator) (left right : Ty) (span : Span) : Typing :=
  if operator = .add ∧ (left = .str ∨ right = .str) then
    if left = right then .known .str else .unknown (.concatenationMismatch left right) span
  else if left.isNumeric && right.isNumeric then
    .known (if left = .float ∨ right = .float then .float else .int)
  else .unknown (.nonNumericOperand operator.symbol left right) span

/-- The type of an operator expression whose operands leave nothing to compute with: comparisons and
logical operators are boolean whatever they are applied to. -/
def typeWithoutOperands (operator : BinaryOperator) : Option Ty :=
  if operator.isArithmetic then none else some .bool

def typeOfBinary (operator : BinaryOperator) (left right : Option Ty) (span : Span) : Typing :=
  match left, right with
  | some left, some right =>
    if left = .void ∨ right = .void then
      ⟨typeWithoutOperands operator, [⟨.voidValue "an operator expression", span⟩]⟩
    else if operator.isArithmetic then typeOfArithmetic operator left right span
    else if operator.isComparison then
      if left = right then .known .bool
      else .knownWith .bool (.comparisonMismatch left right) span
    else if left = .bool ∧ right = .bool then .known .bool
    else .knownWith .bool (.logicalOperand operator.symbol left right) span
  | _, _ => ⟨typeWithoutOperands operator, []⟩

mutual

/-- The type of an expression in a store, for a statement that stands in `context`. -/
def typeOf (store : Store) (context : CheckContext) : Expression → Typing
  | .integer _ _ => .known .int
  | .float _ _ => .known .float
  | .str _ _ => .known .str
  | .char _ _ => .known .char
  | .boolean _ _ => .known .bool
  | .numberArray elements _ => .known (numberArrayType elements)
  | .charArray _ _ => .known (.array .char)
  | .strArray _ _ => .known (.array .str)
  | .identifier name _ => typeOfIdentifier store context name
  | .index array index _ => typeOfIndex store array (typeOf store context index) index.span
  | .fieldAccess record field _ => typeOfField store record field
  | .call name arguments _ =>
    if arguments.isEmpty && store.isErrorAccessor name.name then
      typeOfErrorAccessor context name.span
    else
      let (types, found) := typesOf store context arguments
      (typeOfCall store name types).after found
  | .unary operator operand _ =>
    let typing := typeOf store context operand
    match typing.type with
    | some type => (typeOfUnary operator type operand.span).after typing.diagnostics
    | none => typing
  | .binary operator left right span =>
    let left := typeOf store context left
    let right := typeOf store context right
    (typeOfBinary operator left.type right.type span).after (left.diagnostics ++ right.diagnostics)
  | .parenthesized inner _ => typeOf store context inner

/-- The types and the spans of arguments, and what was found wrong with them. -/
def typesOf (store : Store) (context : CheckContext) :
    List Expression → List (Option Ty × Span) × List Diagnostic
  | [] => ([], [])
  | argument :: rest =>
    let typing := typeOf store context argument
    let (types, found) := typesOf store context rest
    ((typing.type, argument.span) :: types, typing.diagnostics ++ found)

end

end Check

end CheckedScript
