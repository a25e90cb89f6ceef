import CheckedScript.Ast.Statement
import CheckedScript.Grammar.Rules

/-!
# What a tree spells out

The names, the floats and the array literals of a syntax tree. A tree is legible if its names are
words and its array literals have elements, as those of every program that was read are; then it can
be told from the way it is written.
-/

namespace CheckedScript

inductive Atom where
  | name (text : String)
  | float (value : Float)
  /-- An array literal with this many elements. -/
  | array (size : Nat)

namespace Atom

def float? : Atom → Option Float
  | float value => some value
  | _ => none

/-- The atom is a word, an array literal that has an element, or a float of those allowed. -/
def Legible (allowed : Float → Prop) : Atom → Prop
  | name text => text.toList ≠ [] ∧ ∀ c ∈ text.toList, Grammar.isWordChar c = true
  | float value => allowed value
  | array size => size ≠ 0

end Atom

def NumberLiteral.atoms : NumberLiteral → List Atom
  | .int _ => []
  | .float value => [.float value]

mutual

def Expression.atoms : Expression → List Atom
  | .float value _ => [.float value]
  | .numberArray elements _ => .array elements.length :: elements.flatMap NumberLiteral.atoms
  | .charArray elements _ => [.array elements.length]
  | .strArray elements _ => [.array elements.length]
  | .identifier name _ => [.name name.name]
  | .index array position _ => .name array.name :: position.atoms
  | .fieldAccess record field _ => [.name record.name, .name field.name]
  | .call name arguments _ => .name name.name :: Expression.listAtoms arguments
  | .unary _ operand _ => operand.atoms
  | .binary _ left right _ => left.atoms ++ right.atoms
  | .parenthesized inner _ => inner.atoms
  | .integer .. | .str .. | .char .. | .boolean .. => []

def Expression.listAtoms : List Expression → List Atom
  | [] => []
  | e :: rest => e.atoms ++ Expression.listAtoms rest

end

def Expression.optionAtoms : Option Expression → List Atom
  | none => []
  | some e => e.atoms

def Declarator.atom (d : Declarator) : Atom := .name d.name.name

mutual

def Statement.atoms : Statement → List Atom
  | .variable _ name initializer _ => .name name.name :: Expression.optionAtoms initializer
  | .assignment name value _ => .name name.name :: value.atoms
  | .fieldAssignment record field value _ => .name record.name :: .name field.name :: value.atoms
  | .function name parameters _ body _ =>
    .name name.name :: (parameters.map Declarator.atom ++ body.atoms)
  | .block body _ => body.atoms
  | .conditional branches none _ => Branch.listAtoms branches
  | .conditional branches (some otherwise) _ => Branch.listAtoms branches ++ otherwise.atoms
  | .while condition body _ => condition.atoms ++ body.atoms
  | .return value _ => Expression.optionAtoms value
  | .print value _ => value.atoms
  | .attempt guarded recovery _ => guarded.atoms ++ recovery.atoms
  | .recordType name fields _ => .name name.name :: fields.map Declarator.atom
  | .recordInstance recordType name _ => [.name recordType.name, .name name.name]
  | .expression value _ => value.atoms
  | .break _ | .continue _ => []

def Statement.listAtoms : List Statement → List Atom
  | [] => []
  | s :: rest => s.atoms ++ Statement.listAtoms rest

def Block.atoms : Block → List Atom
  | .mk statements _ => Statement.listAtoms statements

def Branch.listAtoms : List Branch → List Atom
  | [] => []
  | .mk condition body _ :: rest => condition.atoms ++ body.atoms ++ Branch.listAtoms rest

end

def Block.optionAtoms : Option Block → List Atom
  | none => []
  | some body => body.atoms

theorem Statement.atoms_conditional (branches : List Branch) (otherwise : Option Block)
    (span : Span) :
    (Statement.conditional branches otherwise span).atoms =
      Branch.listAtoms branches ++ Block.optionAtoms otherwise := by
  cases otherwise <;> simp [Statement.atoms, Block.optionAtoms]

def Program.atoms (program : Program) : List Atom := Statement.listAtoms program.statements

/-- The floats that the literals of a program denote. -/
def Program.floats (program : Program) : List Float := program.atoms.filterMap Atom.float?

theorem Program.mem_floats {program : Program} {x : Float} :
    x ∈ program.floats ↔ .float x ∈ program.atoms := by
  rw [floats, List.mem_filterMap]
  constructor
  · rintro ⟨atom, inside, same⟩
    cases atom with
    | float value =>
      cases same
      exact inside
    | name | array => cases same
  · exact fun inside => ⟨.float x, inside, rfl⟩

end CheckedScript
