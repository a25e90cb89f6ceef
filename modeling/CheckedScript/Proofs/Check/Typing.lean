import CheckedScript.Check.Statement
import Mathlib.Data.List.Forall2

/-!
# Expressions without errors

An expression in which the check finds no error has a type, and so has each of its parts. The rules
below say what the check has found in the store for each form of expression.
-/

namespace CheckedScript

namespace Typing

/-- The type is known and nothing was found wrong. -/
def Gives (t : Typing) (type : Ty) : Prop :=
  t.type = some type ∧ Diagnostics.hasErrors t.diagnostics = false

variable {type other : Ty} {error : SemanticError} {span : Span}

@[simp] theorem gives_known : (known other).Gives type ↔ other = type := by
  simp [Gives, known, Diagnostics.hasErrors]

@[simp] theorem not_gives_unknown : ¬ (unknown error span).Gives type := by
  simp [Gives, unknown]

@[simp] theorem gives_knownWith :
    (knownWith other error span).Gives type ↔ other = type ∧ error.isWarning = true := by
  simp [Gives, knownWith, Diagnostics.hasErrors, Diagnostic.isError]

@[simp] theorem gives_after {earlier : List Diagnostic} {t : Typing} :
    (t.after earlier).Gives type ↔ Diagnostics.hasErrors earlier = false ∧ t.Gives type := by
  simp only [Gives, after, Diagnostics.hasErrors_append, Bool.or_eq_false_iff]
  tauto

/-- The type is known unless an error was found. -/
def Settled (t : Typing) : Prop :=
  Diagnostics.hasErrors t.diagnostics = false → ∃ type, t.type = some type

theorem Settled.gives {t : Typing} (settled : t.Settled)
    (clean : Diagnostics.hasErrors t.diagnostics = false) : ∃ type, t.Gives type :=
  let ⟨type, known⟩ := settled clean
  ⟨type, known, clean⟩

theorem settled_of_type {t : Typing} (known : t.type = some type) : t.Settled :=
  fun _ => ⟨type, known⟩

theorem settled_unknown (serious : error.isWarning = false) : (unknown error span).Settled := by
  simp [Settled, unknown, Diagnostics.hasErrors, Diagnostic.isError, serious]

theorem Settled.after {t : Typing} (settled : t.Settled) (earlier : List Diagnostic) :
    (t.after earlier).Settled := by
  intro clean
  rw [Typing.after, Diagnostics.hasErrors_append, Bool.or_eq_false_iff] at clean
  exact settled clean.2

end Typing

namespace Check

open Typing

/-- The expression has this type in the store, and nothing is wrong with it. -/
def Types (store : Store) (context : CheckContext) (e : Expression) (type : Ty) : Prop :=
  (typeOf store context e).Gives type

variable {store : Store} {context : CheckContext} {type : Ty} {span : Span}

/-! ## Every expression without errors has a type -/

theorem settled_typeOfErrorAccessor : (typeOfErrorAccessor context span).Settled := by
  unfold typeOfErrorAccessor
  split <;> exact settled_of_type rfl

theorem settled_typeOfIdentifier (name : Identifier) :
    (typeOfIdentifier store context name).Settled := by
  unfold typeOfIdentifier
  split
  · exact settled_typeOfErrorAccessor
  · split
    · exact settled_of_type rfl
    · exact settled_unknown rfl
    · exact settled_unknown rfl

theorem settled_elementTypeOf (name : Identifier) : (elementTypeOf store name).Settled := by
  unfold elementTypeOf
  split
  · exact settled_of_type rfl
  all_goals exact settled_unknown rfl

theorem settled_typeOfField (record field : Identifier) :
    (typeOfField store record field).Settled := by
  unfold typeOfField
  split
  · split
    · exact settled_of_type rfl
    · exact settled_unknown rfl
  all_goals exact settled_unknown rfl

theorem settled_typeOfCall (name : Identifier) (arguments : List (Option Ty × Span)) :
    (typeOfCall store name arguments).Settled := by
  unfold typeOfCall
  split
  · split
    · exact settled_of_type rfl
    · exact settled_of_type rfl
  all_goals exact settled_unknown rfl

theorem settled_typeOfUnary (operator : UnaryOperator) (operand : Ty) :
    (typeOfUnary operator operand span).Settled := by
  unfold typeOfUnary
  split <;> split
  · exact settled_of_type rfl
  · exact settled_unknown rfl
  · exact settled_of_type rfl
  · exact settled_of_type rfl

theorem settled_typeOfArithmetic (operator : BinaryOperator) (left right : Ty) :
    (typeOfArithmetic operator left right span).Settled := by
  unfold typeOfArithmetic
  split
  · split
    · exact settled_of_type rfl
    · exact settled_unknown rfl
  · split
    · exact settled_of_type rfl
    · exact settled_unknown rfl

theorem settled_typeOfBinary (operator : BinaryOperator) (left right : Ty) :
    (typeOfBinary operator (some left) (some right) span).Settled := by
  unfold typeOfBinary
  dsimp only
  split
  · intro clean
    simp [Diagnostics.hasErrors, Diagnostic.isError, SemanticError.isWarning] at clean
  · split
    · exact settled_typeOfArithmetic operator left right
    · split <;> split <;> exact settled_of_type rfl

variable (store context) in
/-- An expression without errors has a type. -/
theorem settled_typeOf : (e : Expression) → (typeOf store context e).Settled
  | .integer .. | .float .. | .str .. | .char .. | .boolean .. | .numberArray .. | .charArray ..
  | .strArray .. => settled_of_type rfl
  | .identifier name _ => settled_typeOfIdentifier name
  | .index array index _ => by
    unfold typeOf typeOfIndex
    exact (settled_elementTypeOf array).after _
  | .fieldAccess record field _ => settled_typeOfField record field
  | .call name arguments _ => by
    unfold typeOf
    split
    · exact settled_typeOfErrorAccessor
    · exact (settled_typeOfCall name _).after _
  | .unary operator operand _ => by
    have settled := settled_typeOf operand
    unfold typeOf
    dsimp only
    split
    · exact (settled_typeOfUnary operator _).after _
    · exact settled
  | .binary operator left right span => by
    intro clean
    unfold typeOf at clean ⊢
    simp only [after, Diagnostics.hasErrors_append, Bool.or_eq_false_iff] at clean ⊢
    obtain ⟨⟨leftClean, rightClean⟩, clean⟩ := clean
    obtain ⟨leftType, leftKnown⟩ := settled_typeOf left leftClean
    obtain ⟨rightType, rightKnown⟩ := settled_typeOf right rightClean
    rw [leftKnown, rightKnown] at clean ⊢
    exact settled_typeOfBinary operator leftType rightType clean
  | .parenthesized inner _ => by
    unfold typeOf
    exact settled_typeOf inner

theorem types_of_clean {e : Expression}
    (clean : Diagnostics.hasErrors (typeOf store context e).diagnostics = false) :
    ∃ type, Types store context e type :=
  (settled_typeOf store context e).gives clean

/-! ## What each form of expression has found -/

theorem types_identifier {name : Identifier}
    (typed : Types store context (.identifier name span) type) :
    (store.isErrorAccessor name.name = true ∧ context.inRecovery = true ∧ type = .str) ∨
      ∃ value, store.lookup? name.name = some (.variable type value) := by
  unfold Types typeOf typeOfIdentifier at typed
  split at typed
  · next accessor =>
    unfold typeOfErrorAccessor at typed
    split at typed
    · next inside => exact .inl ⟨accessor, inside, (gives_known.mp typed).symm⟩
    · simp [SemanticError.isWarning] at typed
  · split at typed
    · next declared value found => exact .inr ⟨value, gives_known.mp typed ▸ found⟩
    · exact absurd typed not_gives_unknown
    · exact absurd typed not_gives_unknown

theorem types_index {array : Identifier} {index : Expression}
    (typed : Types store context (.index array index span) type) :
    Types store context index .int ∧
      ∃ value, store.lookup? array.name = some (.variable (.array type) value) := by
  unfold Types typeOf typeOfIndex at typed
  rw [gives_after, Diagnostics.hasErrors_append, Bool.or_eq_false_iff] at typed
  obtain ⟨⟨clean, position⟩, element⟩ := typed
  constructor
  · obtain ⟨found, known⟩ := types_of_clean clean
    rw [known.1] at position
    cases found with
    | int => exact known
    | _ => simp [Diagnostics.hasErrors, Diagnostic.isError, SemanticError.isWarning] at position
  · unfold elementTypeOf at element
    split at element
    · next declared value found => exact ⟨value, gives_known.mp element ▸ found⟩
    all_goals exact absurd element not_gives_unknown

theorem gives_typeOfField {record field : Identifier}
    (typed : (typeOfField store record field).Gives type) :
    ∃ r slot, store.lookup? record.name = some (.recordInstance r) ∧
      r.fields.find? field.name = some slot ∧ slot.type = type := by
  unfold typeOfField at typed
  split at typed
  · next r found =>
    split at typed
    · next slot present => exact ⟨r, slot, found, present, gives_known.mp typed⟩
    · exact absurd typed not_gives_unknown
  all_goals exact absurd typed not_gives_unknown

theorem types_errorAccessor {name : Identifier} {arguments : List Expression}
    (accessor : (arguments.isEmpty && store.isErrorAccessor name.name) = true)
    (typed : Types store context (.call name arguments span) type) :
    context.inRecovery = true ∧ type = .str := by
  unfold Types typeOf at typed
  rw [if_pos accessor, typeOfErrorAccessor] at typed
  split at typed
  · next inside => exact ⟨inside, (gives_known.mp typed).symm⟩
  · simp [SemanticError.isWarning] at typed

theorem length_typesOf (arguments : List Expression) :
    (typesOf store context arguments).1.length = arguments.length := by
  induction arguments with
  | nil => rfl
  | cons e rest ih =>
    unfold typesOf
    simp [ih]

theorem forall₂_of_argumentErrors {function : String} {position : Nat} {arguments : List Expression}
    {parameters : List FunctionParameter} (number : arguments.length = parameters.length)
    (clean : Diagnostics.hasErrors (typesOf store context arguments).2 = false)
    (fitting : Diagnostics.hasErrors (argumentErrors function position
      (typesOf store context arguments).1 parameters) = false) :
    List.Forall₂ (fun e (p : FunctionParameter) => Types store context e p.type) arguments
      parameters := by
  induction arguments generalizing position parameters with
  | nil =>
    rw [List.length_eq_zero_iff.mp number.symm]
    exact .nil
  | cons e rest ih =>
    cases parameters with
    | nil => cases number
    | cons p parameters =>
      unfold typesOf at clean fitting
      rw [Diagnostics.hasErrors_append, Bool.or_eq_false_iff] at clean
      obtain ⟨found, known⟩ := types_of_clean clean.1
      simp only [known.1, argumentErrors] at fitting
      split at fitting
      · next same =>
        exact .cons (same ▸ known) (ih (Nat.succ.inj number) clean.2 fitting)
      · simp [Diagnostics.hasErrors, Diagnostic.isError, SemanticError.isWarning] at fitting

theorem types_call {name : Identifier} {arguments : List Expression}
    (function : (arguments.isEmpty && store.isErrorAccessor name.name) = false)
    (typed : Types store context (.call name arguments span) type) :
    ∃ f, store.lookup? name.name = some (.function f) ∧ type = f.returnType ∧
      List.Forall₂ (fun e (p : FunctionParameter) => Types store context e p.type) arguments
        f.parameters := by
  unfold Types typeOf at typed
  rw [if_neg (Bool.eq_false_iff.mp function)] at typed
  rw [gives_after] at typed
  obtain ⟨clean, typed⟩ := typed
  unfold typeOfCall at typed
  split at typed
  · next f found =>
    split at typed
    · simp [SemanticError.isWarning] at typed
    · next number =>
      obtain ⟨same, fitting⟩ := typed
      rw [ne_eq, not_not, length_typesOf] at number
      exact ⟨f, found, (Option.some.inj same).symm,
        forall₂_of_argumentErrors number clean fitting⟩
  all_goals exact absurd typed not_gives_unknown

theorem types_unary {operator : UnaryOperator} {operand : Expression}
    (typed : Types store context (.unary operator operand span) type) :
    ∃ found, Types store context operand found ∧
      (typeOfUnary operator found operand.span).Gives type := by
  unfold Types typeOf at typed
  dsimp only at typed
  split at typed
  · next found known =>
    rw [gives_after] at typed
    exact ⟨found, ⟨known, typed.1⟩, typed.2⟩
  · next unknown =>
    exact absurd typed.1 (by simp [unknown])

theorem types_binary {operator : BinaryOperator} {left right : Expression}
    (typed : Types store context (.binary operator left right span) type) :
    ∃ found found', Types store context left found ∧ Types store context right found' ∧
      (typeOfBinary operator (some found) (some found') span).Gives type := by
  unfold Types typeOf at typed
  rw [gives_after, Diagnostics.hasErrors_append, Bool.or_eq_false_iff] at typed
  obtain ⟨⟨leftClean, rightClean⟩, typed⟩ := typed
  obtain ⟨found, known⟩ := types_of_clean leftClean
  obtain ⟨found', known'⟩ := types_of_clean rightClean
  rw [known.1, known'.1] at typed
  exact ⟨found, found', known, known', typed⟩

/-- What the operands of an operator without errors are. -/
theorem gives_typeOfBinary {operator : BinaryOperator} {found found' : Ty}
    (gives : (typeOfBinary operator (some found) (some found') span).Gives type) :
    found ≠ .void ∧ found' ≠ .void ∧
      ((operator.isArithmetic = true ∧ (typeOfArithmetic operator found found' span).Gives type) ∨
        (operator.isComparison = true ∧ found = found' ∧ type = .bool) ∨
        (operator.isLogical = true ∧ found = .bool ∧ found' = .bool ∧ type = .bool)) := by
  unfold typeOfBinary at gives
  dsimp only at gives
  split at gives
  · simp [Gives, Diagnostics.hasErrors, Diagnostic.isError, SemanticError.isWarning] at gives
  · next valued =>
    rw [not_or] at valued
    refine ⟨valued.1, valued.2, ?_⟩
    split at gives
    · next arithmetic => exact .inl ⟨arithmetic, gives⟩
    · next other =>
      split at gives
      · next comparison =>
        split at gives
        · next same => exact .inr (.inl ⟨comparison, same, (gives_known.mp gives).symm⟩)
        · simp [SemanticError.isWarning] at gives
      · next logical =>
        split at gives
        · next both =>
          refine .inr (.inr ⟨?_, both.1, both.2, (gives_known.mp gives).symm⟩)
          cases operator <;> simp_all [BinaryOperator.isArithmetic, BinaryOperator.isComparison,
            BinaryOperator.isLogical]
        · simp [SemanticError.isWarning] at gives

end Check

end CheckedScript
