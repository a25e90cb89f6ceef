import CheckedScript.Proofs.Check.Typing
import Mathlib.Logic.ExistsUnique

/-!
# Typing rules

The types of expressions as rules that say what is well typed and nothing else: which type is
computed in spite of an error, and what is reported then, is left to the check. The check finds
nothing wrong with an expression just when a rule applies, and then computes the type of the rule
(`typeOf_iff_hasType`).
-/

namespace CheckedScript

open Check Typing

/-- The expression is well typed in a place where the names of the store can be seen. -/
inductive HasType (store : Store) (context : CheckContext) : Expression → Ty → Prop
  | integer {value : Int64} {span : Span} : HasType store context (.integer value span) .int
  | float {value : Float} {span : Span} : HasType store context (.float value span) .float
  | str {value : String} {span : Span} : HasType store context (.str value span) .str
  | char {value : Char} {span : Span} : HasType store context (.char value span) .char
  | boolean {value : Bool} {span : Span} : HasType store context (.boolean value span) .bool
  | intArray {elements : List NumberLiteral} {span : Span} :
      (∀ element ∈ elements, ∃ value, element = .int value) →
      HasType store context (.numberArray elements span) (.array .int)
  /-- One element with a point makes the others floats as well. -/
  | floatArray {elements : List NumberLiteral} {value : Float} {span : Span} :
      .float value ∈ elements → HasType store context (.numberArray elements span) (.array .float)
  | charArray {elements : List Char} {span : Span} :
      HasType store context (.charArray elements span) (.array .char)
  | strArray {elements : List String} {span : Span} :
      HasType store context (.strArray elements span) (.array .str)
  /-- The caught message is a text that recover blocks read like a variable. -/
  | message {name : Identifier} {span : Span} :
      store.isErrorAccessor name.name = true → context.inRecovery = true →
      HasType store context (.identifier name span) .str
  | messageCall {name : Identifier} {span : Span} :
      store.isErrorAccessor name.name = true → context.inRecovery = true →
      HasType store context (.call name [] span) .str
  | variable {name : Identifier} {type : Ty} {value : Value} {span : Span} :
      store.isErrorAccessor name.name = false →
      store.lookup? name.name = some (.variable type value) →
      HasType store context (.identifier name span) type
  | index {array : Identifier} {position : Expression} {element : Ty} {value : Value}
      {span : Span} :
      store.lookup? array.name = some (.variable (.array element) value) →
      HasType store context position .int →
      HasType store context (.index array position span) element
  | field {record field : Identifier} {r : RecordInstance} {slot : FieldSlot} {span : Span} :
      store.lookup? record.name = some (.recordInstance r) →
      r.fields.find? field.name = some slot →
      HasType store context (.fieldAccess record field span) slot.type
  /-- There are as many arguments as parameters, and each has the very type of its parameter. -/
  | call {name : Identifier} {arguments : List Expression} {f : FunctionSymbol} {span : Span} :
      (arguments = [] → store.isErrorAccessor name.name = false) →
      store.lookup? name.name = some (.function f) →
      List.Forall₂ (HasType store context) arguments (f.parameters.map (·.type)) →
      HasType store context (.call name arguments span) f.returnType
  | negate {operand : Expression} {type : Ty} {span : Span} :
      type ∈ [.int, .float] → HasType store context operand type →
      HasType store context (.unary .negate operand span) type
  | not {operand : Expression} {span : Span} :
      HasType store context operand .bool → HasType store context (.unary .not operand span) .bool
  | intArithmetic {operator : BinaryOperator} {left right : Expression} {span : Span} :
      operator ∈ [.add, .subtract, .multiply, .divide] →
      HasType store context left .int → HasType store context right .int →
      HasType store context (.binary operator left right span) .int
  /-- An integer that meets a float is widened. -/
  | floatArithmetic {operator : BinaryOperator} {left right : Expression} {type type' : Ty}
      {span : Span} :
      operator ∈ [.add, .subtract, .multiply, .divide] →
      (type, type') ∈ [(.float, .float), (.float, .int), (.int, .float)] →
      HasType store context left type → HasType store context right type' →
      HasType store context (.binary operator left right span) .float
  | concatenation {left right : Expression} {span : Span} :
      HasType store context left .str → HasType store context right .str →
      HasType store context (.binary .add left right span) .str
  | comparison {operator : BinaryOperator} {left right : Expression} {type : Ty} {span : Span} :
      operator ∈ [.equal, .notEqual, .less, .lessEqual, .greater, .greaterEqual] → type ≠ .void →
      HasType store context left type → HasType store context right type →
      HasType store context (.binary operator left right span) .bool
  | logical {operator : BinaryOperator} {left right : Expression} {span : Span} :
      operator ∈ [.and, .or] → HasType store context left .bool →
      HasType store context right .bool →
      HasType store context (.binary operator left right span) .bool
  | parenthesized {inner : Expression} {type : Ty} {span : Span} :
      HasType store context inner type → HasType store context (.parenthesized inner span) type

namespace Check

variable {store : Store} {context : CheckContext}

/-! ## What is well typed is computed -/

theorem isNumeric_iff {type : Ty} : type.isNumeric = true ↔ type = .int ∨ type = .float := by
  cases type <;> simp [Ty.isNumeric]

theorem numberArrayType_of_whole {elements : List NumberLiteral}
    (whole : ∀ element ∈ elements, ∃ value, element = .int value) :
    numberArrayType elements = .array .int := by
  refine congrArg Ty.array (if_neg ?_)
  rw [Bool.not_eq_true, List.any_eq_false]
  intro element inside
  obtain ⟨value, rfl⟩ := whole element inside
  exact Bool.false_ne_true

theorem numberArrayType_of_point {elements : List NumberLiteral} {value : Float}
    (point : .float value ∈ elements) : numberArrayType elements = .array .float :=
  congrArg Ty.array (if_pos (List.any_eq_true.mpr ⟨.float value, point, rfl⟩))

/-- Operands in which nothing is wrong leave it to the operator what is found. -/
theorem typeOf_binary {operator : BinaryOperator} {left right : Expression} {type type' : Ty}
    {span : Span} (first : typeOf store context left = .known type)
    (second : typeOf store context right = .known type') :
    typeOf store context (.binary operator left right span) =
      typeOfBinary operator (some type) (some type') span := by
  unfold typeOf
  rw [first, second]
  rfl

/-- Arguments in which nothing is wrong and that have the types of the parameters. -/
theorem argumentErrors_eq_nil (function : String) (position : Nat) {arguments : List Expression}
    {parameters : List FunctionParameter}
    (fit : List.Forall₂ (fun e p => typeOf store context e = .known p.type) arguments parameters) :
    (typesOf store context arguments).2 = [] ∧
      argumentErrors function position (typesOf store context arguments).1 parameters = [] := by
  induction fit generalizing position with
  | nil => exact ⟨rfl, rfl⟩
  | cons first _ ih =>
    unfold typesOf
    rw [first]
    obtain ⟨clean, fitting⟩ := ih (position + 1)
    refine ⟨clean, ?_⟩
    dsimp only [known, argumentErrors]
    rw [if_pos rfl]
    exact fitting

theorem typeOf_call {name : Identifier} {arguments : List Expression} {f : FunctionSymbol}
    {span : Span} (plain : arguments = [] → store.isErrorAccessor name.name = false)
    (bound : store.lookup? name.name = some (.function f))
    (fit : List.Forall₂ (fun e p => typeOf store context e = .known p.type) arguments f.parameters) :
    typeOf store context (.call name arguments span) = .known f.returnType := by
  have ordinary : (arguments.isEmpty && store.isErrorAccessor name.name) = false := by
    cases arguments with
    | nil => exact plain rfl
    | cons => rfl
  have number : (typesOf store context arguments).1.length = f.parameters.length :=
    (length_typesOf arguments).trans fit.length_eq
  obtain ⟨clean, fitting⟩ := argumentErrors_eq_nil f.name 1 fit
  unfold typeOf
  rw [if_neg (Bool.eq_false_iff.mp ordinary)]
  dsimp only
  rw [clean, typeOfCall, bound]
  dsimp only
  rw [if_neg (not_not.mpr number), fitting]
  rfl

mutual

/-- What a rule applies to gets the type of the rule, and nothing is found wrong with it. -/
theorem typeOf_of_hasType : (e : Expression) → {type : Ty} → HasType store context e type →
    typeOf store context e = .known type
  | .integer .., _, .integer | .float .., _, .float | .str .., _, .str | .char .., _, .char
  | .boolean .., _, .boolean | .charArray .., _, .charArray | .strArray .., _, .strArray => rfl
  | .numberArray elements _, _, .intArray whole => congrArg known (numberArrayType_of_whole whole)
  | .numberArray elements _, _, .floatArray point => congrArg known (numberArrayType_of_point point)
  | .identifier name _, _, .message accessor inside => by
    simp [typeOf, typeOfIdentifier, typeOfErrorAccessor, accessor, inside]
  | .identifier name _, _, .variable free bound => by
    simp [typeOf, typeOfIdentifier, free, bound]
  | .index array position _, _, .index bound fits => by
    have inner := typeOf_of_hasType position fits
    simp [typeOf, typeOfIndex, elementTypeOf, inner, bound, known, after]
  | .fieldAccess .., _, .field bound declared => by
    simp [typeOf, typeOfField, bound, declared]
  | .call name _ _, _, .messageCall accessor inside => by
    simp [typeOf, typeOfErrorAccessor, accessor, inside]
  | .call name arguments _, _, .call plain bound fit =>
    typeOf_call plain bound (typesOf_of_hasType arguments fit)
  | .unary _ operand _, type, .negate numeric fits => by
    have inner := typeOf_of_hasType operand fits
    have number : type.isNumeric = true := isNumeric_iff.mpr (List.mem_pair.mp numeric)
    simp [typeOf, typeOfUnary, inner, known, after, number]
  | .unary _ operand _, _, .not fits => by
    have inner := typeOf_of_hasType operand fits
    simp [typeOf, typeOfUnary, inner, known, after]
  | .binary operator left right _, _, .intArithmetic arithmetic first second => by
    rw [typeOf_binary (typeOf_of_hasType left first) (typeOf_of_hasType right second)]
    cases operator <;> first | rfl | simp at arithmetic
  | .binary operator left right _, _, .floatArithmetic arithmetic widened first second => by
    rw [typeOf_binary (typeOf_of_hasType left first) (typeOf_of_hasType right second)]
    simp only [List.mem_cons, Prod.mk.injEq, List.not_mem_nil, or_false] at widened
    rcases widened with ⟨rfl, rfl⟩ | ⟨rfl, rfl⟩ | ⟨rfl, rfl⟩ <;>
      cases operator <;> first | rfl | simp at arithmetic
  | .binary _ left right _, _, .concatenation first second =>
    typeOf_binary (typeOf_of_hasType left first) (typeOf_of_hasType right second)
  | .binary operator left right _, _, .comparison compares valued first second => by
    rw [typeOf_binary (typeOf_of_hasType left first) (typeOf_of_hasType right second)]
    rw [typeOfBinary, if_neg (not_or.mpr ⟨valued, valued⟩), if_pos rfl]
    cases operator <;> first | rfl | simp at compares
  | .binary operator left right _, _, .logical combines first second => by
    rw [typeOf_binary (typeOf_of_hasType left first) (typeOf_of_hasType right second)]
    cases operator <;> first | rfl | simp at combines
  | .parenthesized inner _, _, .parenthesized fits => by
    unfold typeOf
    exact typeOf_of_hasType inner fits

theorem typesOf_of_hasType : (es : List Expression) → {parameters : List FunctionParameter} →
    List.Forall₂ (HasType store context) es (parameters.map (·.type)) →
    List.Forall₂ (fun e p => typeOf store context e = .known p.type) es parameters
  | [], [], _ => .nil
  | e :: rest, p :: parameters, .cons first later =>
    .cons (typeOf_of_hasType e first) (typesOf_of_hasType rest later)

end

/-! ## What is computed without a finding is well typed -/

theorem hasType_numberArray (elements : List NumberLiteral) (span : Span) :
    HasType store context (.numberArray elements span) (numberArrayType elements) := by
  by_cases point : ∃ value, NumberLiteral.float value ∈ elements
  · obtain ⟨value, inside⟩ := point
    rw [numberArrayType_of_point inside]
    exact .floatArray inside
  · have whole : ∀ element ∈ elements, ∃ value, element = .int value := by
      intro element inside
      cases element with
      | int value => exact ⟨value, rfl⟩
      | float value => exact absurd ⟨value, inside⟩ point
    rw [numberArrayType_of_whole whole]
    exact .intArray whole

theorem hasType_arithmetic {operator : BinaryOperator} {left right : Expression}
    {found found' type : Ty} {span : Span} (arithmetic : operator.isArithmetic = true)
    (first : HasType store context left found) (second : HasType store context right found')
    (gives : (typeOfArithmetic operator found found' span).Gives type) :
    HasType store context (.binary operator left right span) type := by
  have listed : operator ∈ [.add, .subtract, .multiply, .divide] := by
    cases operator <;> first | decide | cases arithmetic
  unfold typeOfArithmetic at gives
  split at gives
  · next text =>
    obtain ⟨rfl, either⟩ := text
    split at gives
    · next same =>
      subst same
      obtain rfl := gives_known.mp gives
      obtain rfl := or_self_iff.mp either
      exact .concatenation first second
    · exact absurd gives not_gives_unknown
  · split at gives
    · next numeric =>
      rw [Bool.and_eq_true, isNumeric_iff, isNumeric_iff] at numeric
      obtain rfl := gives_known.mp gives
      obtain ⟨rfl | rfl, rfl | rfl⟩ := numeric
      · exact .intArithmetic listed first second
      · exact .floatArithmetic listed (by decide) first second
      · exact .floatArithmetic listed (by decide) first second
      · exact .floatArithmetic listed (by decide) first second
    · exact absurd gives not_gives_unknown

theorem hasType_binary {operator : BinaryOperator} {left right : Expression} {found found' type : Ty}
    {span : Span} (first : HasType store context left found)
    (second : HasType store context right found')
    (gives : (typeOfBinary operator (some found) (some found') span).Gives type) :
    HasType store context (.binary operator left right span) type := by
  obtain ⟨valued, -, ⟨arithmetic, gives⟩ | ⟨comparison, rfl, rfl⟩ | ⟨logical, rfl, rfl, rfl⟩⟩ :=
    gives_typeOfBinary gives
  · exact hasType_arithmetic arithmetic first second gives
  · refine .comparison ?_ valued first second
    cases operator <;> first | decide | cases comparison
  · refine .logical ?_ first second
    cases operator <;> first | decide | cases logical

theorem hasType_unary {operator : UnaryOperator} {operand : Expression} {found type : Ty}
    {span span' : Span} (fits : HasType store context operand found)
    (gives : (typeOfUnary operator found span').Gives type) :
    HasType store context (.unary operator operand span) type := by
  unfold typeOfUnary at gives
  cases operator with
  | negate =>
    dsimp only at gives
    split at gives
    · next numeric =>
      obtain rfl := gives_known.mp gives
      exact .negate (List.mem_pair.mpr (isNumeric_iff.mp numeric)) fits
    · exact absurd gives not_gives_unknown
  | not =>
    dsimp only at gives
    split at gives
    · next bool =>
      obtain rfl := gives_known.mp gives
      exact .not (bool ▸ fits)
    · simp [SemanticError.isWarning] at gives

theorem hasType_identifier {name : Identifier} {span : Span} {type : Ty}
    (typed : Types store context (.identifier name span) type) :
    HasType store context (.identifier name span) type := by
  cases accessor : store.isErrorAccessor name.name with
  | true =>
    unfold Types typeOf typeOfIdentifier at typed
    rw [if_pos accessor, typeOfErrorAccessor] at typed
    split at typed
    · next inside => exact gives_known.mp typed ▸ .message accessor inside
    · simp [SemanticError.isWarning] at typed
  | false =>
    obtain ⟨message, -⟩ | ⟨value, bound⟩ := types_identifier typed
    · exact absurd (accessor.symm.trans message) Bool.false_ne_true
    · exact .variable accessor bound

mutual

/-- Where nothing is found wrong, a rule applies. -/
theorem hasType_of_types : (e : Expression) → {type : Ty} → Types store context e type →
    HasType store context e type
  | .integer .., _, typed => gives_known.mp typed ▸ .integer
  | .float .., _, typed => gives_known.mp typed ▸ .float
  | .str .., _, typed => gives_known.mp typed ▸ .str
  | .char .., _, typed => gives_known.mp typed ▸ .char
  | .boolean .., _, typed => gives_known.mp typed ▸ .boolean
  | .charArray .., _, typed => gives_known.mp typed ▸ .charArray
  | .strArray .., _, typed => gives_known.mp typed ▸ .strArray
  | .numberArray elements span, _, typed => gives_known.mp typed ▸ hasType_numberArray elements span
  | .identifier .., _, typed => hasType_identifier typed
  | .index array position _, _, typed => by
    obtain ⟨inner, value, bound⟩ := types_index typed
    exact .index bound (hasType_of_types position inner)
  | .fieldAccess .., _, typed => by
    obtain ⟨r, slot, bound, declared, rfl⟩ := gives_typeOfField typed
    exact .field bound declared
  | .call name arguments _, _, typed => by
    cases accessor : arguments.isEmpty && store.isErrorAccessor name.name with
    | true =>
      obtain ⟨inside, rfl⟩ := types_errorAccessor accessor typed
      rw [Bool.and_eq_true, List.isEmpty_iff] at accessor
      obtain ⟨rfl, accessor⟩ := accessor
      exact .messageCall accessor inside
    | false =>
      obtain ⟨f, bound, rfl, fit⟩ := types_call accessor typed
      refine .call ?_ bound (hasTypes_of_types arguments fit)
      rintro rfl
      exact accessor
  | .unary operator operand _, _, typed => by
    obtain ⟨found, inner, gives⟩ := types_unary typed
    exact hasType_unary (hasType_of_types operand inner) gives
  | .binary operator left right _, _, typed => by
    obtain ⟨found, found', first, second, gives⟩ := types_binary typed
    exact hasType_binary (hasType_of_types left first) (hasType_of_types right second) gives
  | .parenthesized inner _, _, typed => by
    unfold Types typeOf at typed
    exact .parenthesized (hasType_of_types inner typed)

theorem hasTypes_of_types : (es : List Expression) → {parameters : List FunctionParameter} →
    List.Forall₂ (fun e (p : FunctionParameter) => Types store context e p.type) es parameters →
    List.Forall₂ (HasType store context) es (parameters.map (·.type))
  | [], [], _ => .nil
  | e :: rest, _ :: _, .cons first later =>
    .cons (hasType_of_types e first) (hasTypes_of_types rest later)

end

end Check

/-- The check of an expression finds nothing wrong just when a typing rule applies to it, for one
type only, and this is the type that it computes. -/
theorem typeOf_iff_hasType (store : Store) (context : CheckContext) (e : Expression) :
    ((typeOf store context e).diagnostics = [] ↔ ∃! type, HasType store context e type) ∧
      ∀ type, HasType store context e type ↔ typeOf store context e = .known type := by
  have computed : ∀ type, HasType store context e type ↔ typeOf store context e = .known type := by
    refine fun type => ⟨typeOf_of_hasType e, fun known => hasType_of_types e ?_⟩
    rw [Types, known]
    exact gives_known.mpr rfl
  refine ⟨⟨fun nothing => ?_, ?_⟩, computed⟩
  · have clean : Diagnostics.hasErrors (typeOf store context e).diagnostics = false := by
      rw [nothing]
      rfl
    obtain ⟨type, typed⟩ := types_of_clean clean
    have fits := hasType_of_types e typed
    refine ⟨type, fits, fun other fits' => ?_⟩
    have same := ((computed other).mp fits').symm.trans ((computed type).mp fits)
    exact Option.some.inj (congrArg Typing.type same)
  · rintro ⟨type, fits, -⟩
    rw [(computed type).mp fits]
    rfl

end CheckedScript
