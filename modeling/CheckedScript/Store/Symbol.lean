import CheckedScript.Ast.Statement
import CheckedScript.Store.Bindings
import CheckedScript.Value.Text
import CheckedScript.Value.Ty

/-!
# Symbols

What a name can stand for: a variable, a function, a record type, or a record of such a type.
-/

namespace CheckedScript

structure FunctionParameter where
  name : String
  type : Ty
deriving DecidableEq, Inhabited

/-- A function: its signature and the block that a call executes. -/
structure FunctionSymbol where
  name : String
  parameters : List FunctionParameter
  returnType : Ty
  body : Block

structure RecordType where
  name : String
  fields : Bindings Ty

structure FieldSlot where
  type : Ty
  value : Value

structure RecordInstance where
  recordType : String
  fields : Bindings FieldSlot

/-- A record of the type with every field unset. -/
def RecordType.instantiate (r : RecordType) : RecordInstance :=
  ⟨r.name, r.fields.mapValues fun type => ⟨type, .null⟩⟩

inductive Symbol where
  | variable (type : Ty) (value : Value)
  | function (f : FunctionSymbol)
  | recordType (r : RecordType)
  | recordInstance (r : RecordInstance)

/-- A change to what a symbol holds. -/
inductive SymbolUpdate where
  | value (value : Value)
  | field (name : String) (value : Value)

namespace Symbol

def kindName : Symbol → String
  | «variable» _ _ => "variable"
  | function _ => "function"
  | recordType _ => "record type"
  | recordInstance _ => "record instance"

/-- The text of a symbol in a description of the store. -/
def text : Symbol → String
  | «variable» type value => s!"{type.text} = {value.text}"
  | function f =>
    let parameters := ", ".intercalate (f.parameters.map fun p => s!"{p.type.text} {p.name}")
    s!"func {f.name}({parameters}) {f.returnType.text}"
  | recordType r =>
    let fields := r.fields.map fun (name, type) => s!"{type.text} {name};"
    "type " ++ r.name ++ " \x7b " ++ " ".intercalate fields ++ " \x7d"
  | recordInstance r =>
    let fields := r.fields.map fun (name, slot) => s!"{name}: {slot.value.text}"
    r.recordType ++ " \x7b " ++ ", ".intercalate fields ++ " \x7d"

end Symbol

end CheckedScript
