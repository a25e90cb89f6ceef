import CheckedScript.Check.Expression
import CheckedScript.Execution.Evaluate
import CheckedScript.Proofs.Check.Typing
import CheckedScript.Proofs.Value.Comparison
import CheckedScript.Proofs.Value.Operation

/-!
# Values and their types

A value of a type, and what operators make of values of the types that a check has found for their
operands. A `null` has no type and stands for a value that is missing, so an operator refuses it.
-/

namespace CheckedScript

namespace Value

/-- The values of a type; the elements of an array are of one type. -/
inductive HasType : Value → Ty → Prop
  | int (w : Word) : HasType (.int w) .int
  | float (x : Float) : HasType (.float x) .float
  | str (text : String) : HasType (.str text) .str
  | char (c : Char) : HasType (.char c) .char
  | bool (b : Bool) : HasType (.bool b) .bool
  | array {elements : List Value} {type : Ty} (each : ∀ v ∈ elements, HasType v type) :
      HasType (.array elements) (.array type)

/-- Comparing the values comes to two floats that are not both numbers. -/
inductive MeetsNaN : Value → Value → Prop
  | left {x y : Float} (nan : x.isNaN = true) : MeetsNaN (.float x) (.float y)
  | right {x y : Float} (nan : y.isNaN = true) : MeetsNaN (.float x) (.float y)
  | elements {before before' rest rest' : List Value} {v w : Value}
      (equal : compareElements? before before' = some .eq) (meets : MeetsNaN v w) :
      MeetsNaN (.array (before ++ v :: rest)) (.array (before' ++ w :: rest'))

/-- Arrays without an order agree up to two elements without an order. -/
theorem exists_of_compareElements?_eq_none {vs ws : List Value}
    (unordered : compareElements? vs ws = none) :
    ∃ before v rest before' w rest', vs = before ++ v :: rest ∧ ws = before' ++ w :: rest' ∧
      compareElements? before before' = some .eq ∧ v.compare? w = none := by
  induction vs generalizing ws with
  | nil => cases ws <;> simp [compareElements?] at unordered
  | cons v vs ih =>
    cases ws with
    | nil => simp [compareElements?] at unordered
    | cons w ws =>
      unfold compareElements? at unordered
      split at unordered
      · next equal =>
        obtain ⟨before, v', rest, before', w', rest', rfl, rfl, equals, apart⟩ := ih unordered
        refine ⟨v :: before, v', rest, w :: before', w', rest', rfl, rfl, ?_, apart⟩
        unfold compareElements?
        rw [equal]
        exact equals
      · exact ⟨[], v, vs, [], w, ws, rfl, rfl, by simp [compareElements?], unordered⟩

/-- Values of one type are ordered unless the comparison meets a NaN. -/
theorem meetsNaN_of_compare?_eq_none {v w : Value} {type : Ty} (typed : v.HasType type)
    (typed' : w.HasType type) (unordered : v.compare? w = none) : v.MeetsNaN w := by
  induction typed generalizing w with
  | float x =>
    cases typed' with
    | float y =>
      rw [compare?] at unordered
      rcases isNaN_of_compareFloats_eq_none unordered with nan | nan
      · exact .left nan
      · exact .right nan
  | array each ih =>
    cases typed' with
    | array each' =>
      rw [compare?] at unordered
      obtain ⟨before, v, rest, before', w, rest', rfl, rfl, equal, apart⟩ :=
        exists_of_compareElements?_eq_none unordered
      exact .elements equal (ih v (by simp) (each' w (by simp)) apart)
  | _ =>
    cases typed'
    simp [compare?] at unordered

end Value

def NumberLiteral.isFloat : NumberLiteral → Bool
  | .float _ => true
  | .int _ => false

/-- The value of an element of a number array, which is promoted if another element is a float. -/
def NumberLiteral.value (promote : Bool) : NumberLiteral → Value
  | .int w => if promote then .float w.toFloat else .int w
  | .float x => .float x

/-- What a variable, a field or an expression of a type may hold: a value of it, or none at all. -/
def Conforms (type : Ty) (v : Value) : Prop := v = .null ∨ v.HasType type

namespace Conforms

theorem defaultValue (type : Ty) : Conforms type type.defaultValue := by
  cases type with
  | int => exact .inr (.int 0)
  | float => exact .inr (.float 0)
  | str => exact .inr (.str "")
  | char => exact .inr (.char _)
  | bool => exact .inr (.bool false)
  | void => exact .inl rfl
  | array element => exact .inr (.array nofun)

theorem numberArray (elements : List NumberLiteral) :
    Conforms (Check.numberArrayType elements) (Execution.numberArray elements) := by
  have type : Check.numberArrayType elements =
    .array (if elements.any NumberLiteral.isFloat then .float else .int) := rfl
  have value : Execution.numberArray elements =
    .array (elements.map (NumberLiteral.value (elements.any NumberLiteral.isFloat))) := rfl
  rw [type, value]
  refine .inr (.array fun v inside => ?_)
  obtain ⟨literal, present, rfl⟩ := List.mem_map.mp inside
  -- An integer is promoted along with the others, and a float is what promotes them.
  cases literal with
  | int w =>
    unfold NumberLiteral.value
    cases elements.any NumberLiteral.isFloat with
    | true => exact .float _
    | false => exact .int w
  | float x =>
    rw [if_pos (List.any_eq_true.mpr ⟨_, present, rfl⟩)]
    exact .float x

theorem mapped {α : Type} {type : Ty} {f : α → Value} (typed : ∀ x, (f x).HasType type)
    (elements : List α) : Conforms (.array type) (.array (elements.map f)) := by
  refine .inr (.array fun v inside => ?_)
  obtain ⟨x, -, rfl⟩ := List.mem_map.mp inside
  exact typed x

theorem element {type : Ty} {elements : List Value}
    (conforms : Conforms (.array type) (.array elements)) {v : Value} (inside : v ∈ elements) :
    Conforms type v := by
  rcases conforms with missing | typed
  · cases missing
  · cases typed with
    | array each => exact .inr (each v inside)

end Conforms

namespace Value

variable {type found found' : Ty} {span : Span} {v w u : Value} {operation operands : String}

/-! ## Operands that are there -/

theorem applyUnary_typed {operator : UnaryOperator}
    (gives : (Check.typeOfUnary operator found span).Gives type) (typed : v.HasType found) :
    (∃ u, applyUnary operator v = .ok u ∧ u.HasType type) ∨
      applyUnary operator v = .error (.integerOverflow operator.symbol) := by
  unfold Check.typeOfUnary at gives
  cases operator with
  | negate =>
    dsimp only at gives
    split at gives
    · rw [Typing.gives_known] at gives
      subst gives
      cases typed with
      | int a =>
        cases negated : Word.ofInt? (-a.toInt) with
        | some w => exact .inl ⟨.int w, by simp [applyUnary, negated], .int w⟩
        | none => exact .inr (by simp [applyUnary, negated])
      | float x => exact .inl ⟨.float (-x), rfl, .float _⟩
      | _ => next numeric => cases numeric
    · exact absurd gives Typing.not_gives_unknown
  | not =>
    dsimp only at gives
    split at gives
    · next truth =>
      rw [Typing.gives_known] at gives
      subst gives truth
      cases typed with
      | bool b => exact .inl ⟨.bool !b, rfl, .bool _⟩
    · simp [SemanticError.isWarning] at gives

theorem applyUnary_null (operator : UnaryOperator) :
    applyUnary operator .null = .error (.invalidOperation operator.symbol "null") := by
  cases operator <;> rfl

theorem integerArithmetic_eq_ok {operator : BinaryOperator} {a b : Word}
    (applied : integerArithmetic operator a b = .ok u) : u.HasType .int := by
  unfold integerArithmetic at applied
  split at applied
  · split at applied
    · cases applied
      exact .int _
    · cases applied
  · cases applied

theorem floatArithmetic_eq_ok {operator : BinaryOperator} {x y : Float}
    (applied : floatArithmetic operator x y = .ok u) : u.HasType .float := by
  unfold floatArithmetic at applied
  split at applied
  · cases applied
    exact .float _
  · cases applied
    exact .float _
  · cases applied
    exact .float _
  · split at applied
    · cases applied
    · cases applied
      exact .float _

/-- Texts are added, and numbers are added, subtracted, multiplied and divided. -/
theorem gives_typeOfArithmetic {operator : BinaryOperator}
    (gives : (Check.typeOfArithmetic operator found found' span).Gives type) :
    (operator = .add ∧ found = .str ∧ found' = .str ∧ type = .str) ∨
      (found.isNumeric = true ∧ found'.isNumeric = true ∧
        type = if found = .float ∨ found' = .float then .float else .int) := by
  unfold Check.typeOfArithmetic at gives
  split at gives
  · next concatenates =>
    split at gives
    · next same =>
      rw [Typing.gives_known] at gives
      subst same
      exact .inl ⟨concatenates.1, or_self_iff.mp concatenates.2, or_self_iff.mp concatenates.2,
        gives.symm⟩
    · exact absurd gives Typing.not_gives_unknown
  · split at gives
    · next numeric =>
      rw [Bool.and_eq_true] at numeric
      rw [Typing.gives_known] at gives
      exact .inr ⟨numeric.1, numeric.2, gives.symm⟩
    · exact absurd gives Typing.not_gives_unknown

/-- Numbers that are not both integers take part as floats. -/
theorem applyArithmetic_of_float? {operator : BinaryOperator} {x y : Float}
    (left : v.float? = some x) (right : w.float? = some y)
    (mixed : ∀ a b, v = .int a → w ≠ .int b) :
    applyArithmetic operator v w = floatArithmetic operator x y := by
  unfold applyArithmetic
  split
  · exact absurd rfl (mixed _ _ rfl)
  · split
    · cases left
    · rw [left, right]

theorem applyArithmetic_null (operator : BinaryOperator) (v : Value) :
    applyArithmetic operator .null v = .error (invalidBinary operator .null v) ∧
      applyArithmetic operator v .null = .error (invalidBinary operator v .null) := by
  cases operator <;> cases v <;> exact ⟨rfl, rfl⟩

/-- What becomes of operands that are values of the types that the check has found. -/
theorem applyArithmetic_typed {operator : BinaryOperator}
    (gives : (Check.typeOfArithmetic operator found found' span).Gives type)
    (typed : v.HasType found) (typed' : w.HasType found') :
    (∀ u, applyArithmetic operator v w = .ok u → u.HasType type) ∧
      ∀ fault, applyArithmetic operator v w = .error fault →
        fault = .divisionByZero ∨ fault = .integerOverflow operator.symbol := by
  rcases gives_typeOfArithmetic gives with ⟨rfl, rfl, rfl, rfl⟩ | ⟨numeric, numeric', rfl⟩
  · cases typed
    cases typed'
    refine ⟨?_, nofun⟩
    rintro _ ⟨⟩
    exact .str _
  · cases typed with
    | int a =>
      cases typed' with
      | int b => exact ⟨fun u => integerArithmetic_eq_ok, fun fault => integerArithmetic_eq_error⟩
      | float y =>
        rw [if_pos (.inr rfl), applyArithmetic_of_float? rfl rfl (by simp)]
        exact ⟨fun u => floatArithmetic_eq_ok,
          fun fault refused => .inl (floatArithmetic_eq_error refused)⟩
      | _ => cases numeric'
    | float x =>
      rw [if_pos (.inl rfl)]
      cases typed' with
      -- One float is enough for the result to be a float.
      | int b | float y =>
        rw [applyArithmetic_of_float? rfl rfl (by simp)]
        exact ⟨fun u => floatArithmetic_eq_ok,
          fun fault refused => .inl (floatArithmetic_eq_error refused)⟩
      | _ => cases numeric'
    | _ => cases numeric

/-! ## The other operators -/

theorem applyBinary_of_isArithmetic {operator : BinaryOperator}
    (arithmetic : operator.isArithmetic = true) (v w : Value) :
    applyBinary operator v w = applyArithmetic operator v w := by
  rw [applyBinary, if_pos arithmetic]

theorem applyBinary_of_isComparison {operator : BinaryOperator}
    (comparison : operator.isComparison = true) (v w : Value) :
    applyBinary operator v w = applyComparison operator v w := by
  cases operator <;> first | rfl | cases comparison

theorem applyBinary_of_isLogical {operator : BinaryOperator}
    (logical : operator.isLogical = true) (v w : Value) :
    applyBinary operator v w = applyLogical operator v w := by
  cases operator <;> first | rfl | cases logical

theorem applyLogical_eq_ok {operator : BinaryOperator}
    (applied : applyLogical operator v w = .ok u) : u.HasType .bool := by
  unfold applyLogical at applied
  split at applied
  · cases applied
    exact .bool _
  · cases applied

theorem applyComparison_eq_ok {operator : BinaryOperator}
    (applied : applyComparison operator v w = .ok u) : u.HasType .bool := by
  unfold applyComparison at applied
  split at applied
  · cases applied
    exact .bool _
  · cases applied

/-- What becomes of operands that are values of the types that the check has found. -/
theorem applyBinary_typed {operator : BinaryOperator}
    (gives : (Check.typeOfBinary operator (some found) (some found') span).Gives type)
    (typed : v.HasType found) (typed' : w.HasType found') :
    (∀ u, applyBinary operator v w = .ok u → u.HasType type) ∧
      ∀ fault, applyBinary operator v w = .error fault →
        fault = .divisionByZero ∨ fault = .integerOverflow operator.symbol ∨
          (fault = invalidBinary operator v w ∧ operator.isComparison = true ∧ v.MeetsNaN w) := by
  obtain ⟨-, -, ⟨arithmetic, gives⟩ | ⟨comparison, rfl, rfl⟩ | ⟨logical, rfl, rfl, rfl⟩⟩ :=
    Check.gives_typeOfBinary gives
  · rw [applyBinary_of_isArithmetic arithmetic]
    obtain ⟨result, refused⟩ := applyArithmetic_typed gives typed typed'
    exact ⟨result, fun fault raised => (refused fault raised).imp_right .inl⟩
  · rw [applyBinary_of_isComparison comparison]
    refine ⟨fun u => applyComparison_eq_ok, fun fault raised => ?_⟩
    unfold applyComparison at raised
    split at raised
    · cases raised
    · next unordered =>
      cases raised
      exact .inr (.inr ⟨rfl, comparison, meetsNaN_of_compare?_eq_none typed typed' unordered⟩)
  · rw [applyBinary_of_isLogical logical]
    refine ⟨fun u => applyLogical_eq_ok, fun fault raised => ?_⟩
    cases typed
    cases typed'
    cases raised

end Value

/-! ## Operands that may be missing -/

namespace Conforms

variable {type found found' : Ty} {span : Span} {v w u : Value}

/-- An operator yields what the check has said. -/
theorem applyUnary {operator : UnaryOperator}
    (gives : (Check.typeOfUnary operator found span).Gives type) (conforms : Conforms found v)
    (applied : Value.applyUnary operator v = .ok u) : Conforms type u := by
  rcases conforms with rfl | typed
  · rw [Value.applyUnary_null] at applied
    cases applied
  · rcases Value.applyUnary_typed gives typed with ⟨u', result, typed'⟩ | overflow
    · cases result.symm.trans applied
      exact .inr typed'
    · cases overflow.symm.trans applied

theorem applyBinary {operator : BinaryOperator}
    (gives : (Check.typeOfBinary operator (some found) (some found') span).Gives type)
    (conforms : Conforms found v) (conforms' : Conforms found' w)
    (applied : Value.applyBinary operator v w = .ok u) : Conforms type u := by
  obtain ⟨-, -, ⟨arithmetic, gives⟩ | ⟨comparison, -, rfl⟩ | ⟨logical, -, -, rfl⟩⟩ :=
    Check.gives_typeOfBinary gives
  · rw [Value.applyBinary_of_isArithmetic arithmetic] at applied
    rcases conforms with rfl | typed
    · cases (Value.applyArithmetic_null operator w).1.symm.trans applied
    · rcases conforms' with rfl | typed'
      · cases (Value.applyArithmetic_null operator v).2.symm.trans applied
      · exact .inr ((Value.applyArithmetic_typed gives typed typed').1 u applied)
  · rw [Value.applyBinary_of_isComparison comparison] at applied
    exact .inr (Value.applyComparison_eq_ok applied)
  · rw [Value.applyBinary_of_isLogical logical] at applied
    exact .inr (Value.applyLogical_eq_ok applied)

end Conforms

end CheckedScript
