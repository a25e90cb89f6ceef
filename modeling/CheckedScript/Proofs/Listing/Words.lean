import CheckedScript.Listing.Program
import CheckedScript.Proofs.Ast.Atoms
import CheckedScript.Proofs.Ast.Bare
import CheckedScript.Proofs.Listing.Tokens
import Std.Data.String.ToInt

/-!
# The words of a listing

Names, types, numbers, characters and strings are each written as one word of a listing, and the word
tells what it stands for. Of floats this is not shown: it is up to their shortest digits.
-/

namespace CheckedScript.Listing

open Text Grammar

/-! ## Bare words -/

/-- The character stands in a word, and opens no quotes. -/
def IsLetter (c : Char) : Prop := IsSolid c ∧ ¬ IsQuote c

instance (c : Char) : Decidable (IsLetter c) := inferInstanceAs (Decidable (_ ∧ _))

/-- The text is a word without quotes. -/
def IsBare (w : String) : Prop := w.toList ≠ [] ∧ ∀ c ∈ w.toList, IsLetter c

instance (w : String) : Decidable (IsBare w) := inferInstanceAs (Decidable (_ ∧ _))

theorem IsBare.isWord {w : String} (bare : IsBare w) : IsWord w.toList := isWord_of_bare bare.1 bare.2

/-- The characters that are no letters. -/
def separators : List Char := [' ', '\n', '(', ')', '"', '\'']

theorem isLetter_of_test {test : Char → Bool} (refuses : ∀ c ∈ separators, test c = false)
    {c : Char} (passes : test c = true) : IsLetter c := by
  have other (d : Char) (listed : d ∈ separators) : c ≠ d := by
    rintro rfl
    rw [refuses c listed] at passes
    cases passes
  refine ⟨⟨?_, other _ (by decide), other _ (by decide)⟩, ?_⟩
  · exact not_or.mpr ⟨other _ (by decide), other _ (by decide)⟩
  · exact not_or.mpr ⟨other _ (by decide), other _ (by decide)⟩

theorem isLetter_of_isWordChar {c : Char} (word : isWordChar c = true) : IsLetter c :=
  isLetter_of_test (by decide) word

theorem isLetter_of_isDigit {c : Char} (digit : c.isDigit = true) : IsLetter c :=
  isLetter_of_test (by decide) digit

theorem isBare_append {w v : String} (bare : IsBare w) (more : ∀ c ∈ v.toList, IsLetter c) :
    IsBare (w ++ v) := by
  rw [IsBare, String.toList_append]
  exact ⟨List.append_ne_nil_of_left_ne_nil bare.1 _, List.forall_mem_append.mpr ⟨bare.2, more⟩⟩

section

variable {allowed : Float → Prop} {name : String}

theorem isBare_of_legible (legible : (Atom.name name).Legible allowed) : IsBare name :=
  ⟨legible.1, fun c inside => isLetter_of_isWordChar (legible.2 c inside)⟩

/-- Two names with a point between them are told apart. -/
theorem pointed_inj {record record' field field' : String}
    (legible : (Atom.name record).Legible allowed) {allowed' : Float → Prop}
    (legible' : (Atom.name record').Legible allowed')
    (same : record ++ "." ++ field = record' ++ "." ++ field') :
    record = record' ∧ field = field' := by
  have free {n : String} {a : Float → Prop} (legible : (Atom.name n).Legible a) :
      '.' ∉ n.toList := fun inside => absurd (legible.2 _ inside) (by decide)
  have texts := congrArg String.toList same
  simp only [String.toList_append, List.append_assoc] at texts
  obtain ⟨front, back⟩ := split_inj (free legible) (free legible') texts
  exact ⟨String.toList_inj.mp front, String.toList_inj.mp back⟩

end

theorem isBare_typeText (t : TypeName) : IsBare t.text := by
  obtain ⟨primitive, isArray, span⟩ := t
  change IsBare (if isArray then primitive.keyword ++ "[]" else primitive.keyword)
  cases primitive <;> cases isArray <;> decide

theorem isBare_returnTypeText (t : Option TypeName) : IsBare (returnTypeText t) := by
  cases t with
  | none =>
    change IsBare Ty.void.text
    decide
  | some t => exact isBare_typeText t

theorem typeText_inj {t t' : TypeName} (same : t.text = t'.text) : t.bare = t'.bare := by
  obtain ⟨primitive, isArray, span⟩ := t
  obtain ⟨primitive', isArray', span'⟩ := t'
  cases primitive <;> cases isArray <;> cases primitive' <;> cases isArray' <;>
    first
    | rfl
    | exact absurd same (by simp [TypeName.text, Primitive.keyword])

theorem returnTypeText_inj {t t' : Option TypeName} (same : returnTypeText t = returnTypeText t') :
    t.map TypeName.bare = t'.map TypeName.bare := by
  have noVoid (t : TypeName) : Ty.void.text ≠ t.text := by
    obtain ⟨primitive, isArray, span⟩ := t
    change Ty.void.text ≠ if isArray then primitive.keyword ++ "[]" else primitive.keyword
    cases primitive <;> cases isArray <;> decide
  cases t with
  | none =>
    cases t' with
    | none => rfl
    | some t' => exact absurd same (noVoid t')
  | some t =>
    cases t' with
    | none => exact absurd same.symm (noVoid t)
    | some t' => exact congrArg some (typeText_inj same)

theorem isBare_boolText (b : Bool) : IsBare (Value.boolText b) := by
  cases b <;> decide

theorem boolText_inj {b b' : Bool} (same : Value.boolText b = Value.boolText b') : b = b' := by
  cases b <;> cases b' <;> first | rfl | exact absurd same (by decide)

theorem isBare_unarySymbol (operator : UnaryOperator) : IsBare operator.symbol := by
  cases operator <;> decide

theorem isBare_binarySymbol (operator : BinaryOperator) : IsBare operator.symbol := by
  cases operator <;> decide

theorem unarySymbol_inj {o o' : UnaryOperator} (same : o.symbol = o'.symbol) : o = o' := by
  cases o <;> cases o' <;> first | rfl | exact absurd same (by decide)

theorem binarySymbol_inj {o o' : BinaryOperator} (same : o.symbol = o'.symbol) : o = o' := by
  cases o <;> cases o' <;> first | rfl | exact absurd same (by decide)

/-! ## Numbers -/

theorem isDigit_of_mem_toString {n : Nat} : ∀ c ∈ (toString n).toList, c.isDigit = true := by
  intro c inside
  rw [Nat.toString_eq_repr, Nat.toList_repr] at inside
  exact Nat.isDigit_of_mem_toDigits (by decide) (by decide) inside

theorem toString_ne_nil (n : Nat) : (toString n).toList ≠ [] := by
  rw [Nat.toString_eq_repr, Nat.toList_repr]
  exact Nat.toDigits_ne_nil

/-- A sign and digits, which is all that the text of an integer consists of. -/
def IsFigure (c : Char) : Prop := c.isDigit = true ∨ c = '-'

instance (c : Char) : Decidable (IsFigure c) := inferInstanceAs (Decidable (_ ∨ _))

theorem isFigure_of_mem_toString {n : Int} : ∀ c ∈ (toString n).toList, IsFigure c := by
  intro c inside
  rw [Int.toString_eq_repr, Int.repr_eq_if] at inside
  split at inside
  · exact .inl (isDigit_of_mem_toString c inside)
  · rw [String.toList_append, List.mem_append] at inside
    rcases inside with sign | digits
    · exact .inr (by simpa using sign)
    · exact .inl (isDigit_of_mem_toString c digits)

theorem isLetter_of_isFigure {c : Char} (figure : IsFigure c) : IsLetter c := by
  rcases figure with digit | rfl
  · exact isLetter_of_isDigit digit
  · decide

theorem toString_int_ne_nil (n : Int) : (toString n).toList ≠ [] := by
  rw [Int.toString_eq_repr, Int.repr_eq_if]
  split
  · exact toString_ne_nil _
  · rw [String.toList_append]
    exact List.append_ne_nil_of_left_ne_nil (by decide) _

theorem isBare_integerText (w : Word) : IsBare (integerText w) :=
  ⟨toString_int_ne_nil _, fun c inside => isLetter_of_isFigure (isFigure_of_mem_toString c inside)⟩

theorem integerText_inj {w w' : Word} (same : integerText w = integerText w') : w = w' := by
  rw [integerText, integerText, Int.toString_eq_repr, Int.toString_eq_repr] at same
  exact Int64.toInt_inj.mp (Int.repr_injective same)

section

open Decimal

theorem isLetter_of_mem_sign {negative : Bool} : ∀ c ∈ (sign negative).toList, IsLetter c := by
  cases negative <;> decide

theorem isLetter_of_mem_positional {d : Scaled} : ∀ c ∈ d.positional.toList, IsLetter c := by
  have digits : ∀ c ∈ (toString d.digits).toList, IsLetter c := fun c inside =>
    isLetter_of_isDigit (isDigit_of_mem_toString c inside)
  have zeros (n : Nat) : ∀ c ∈ List.replicate n '0', IsLetter c := by
    intro c inside
    rw [List.eq_of_mem_replicate inside]
    decide
  have point : IsLetter '.' := by decide
  unfold Scaled.positional
  dsimp only
  split
  · rw [String.toList_ofList, List.forall_mem_append]
    exact ⟨digits, zeros _⟩
  · have padded := List.forall_mem_append.mpr ⟨zeros ((-d.scale).toNat + 1 -
      (toString d.digits).toList.length), digits⟩
    rw [String.toList_ofList, List.forall_mem_append, List.forall_mem_cons]
    exact ⟨fun c inside => padded c (List.mem_of_mem_take inside), point,
      fun c inside => padded c (List.mem_of_mem_drop inside)⟩

theorem isLetter_of_mem_scientific {d : Scaled} : ∀ c ∈ d.scientific.toList, IsLetter c := by
  have exponent : ∀ c ∈ ("e" ++ toString d.leadingExponent).toList, IsLetter c := by
    rw [String.toList_append, List.forall_mem_append]
    exact ⟨by decide, fun c inside => isLetter_of_isFigure (isFigure_of_mem_toString c inside)⟩
  have digits : ∀ c ∈ (toString d.digits).toList, IsLetter c := fun c inside =>
    isLetter_of_isDigit (isDigit_of_mem_toString c inside)
  have point : IsLetter '.' := by decide
  unfold Scaled.scientific
  dsimp only
  split
  · exact exponent
  · next only known =>
    rw [known] at digits
    rw [String.toList_append, List.forall_mem_append]
    exact ⟨by simpa using digits, exponent⟩
  · next first rest known =>
    rw [known, List.forall_mem_cons] at digits
    rw [String.toList_append, String.toList_ofList, List.forall_mem_append, List.forall_mem_cons,
      List.forall_mem_cons]
    exact ⟨⟨digits.1, point, digits.2⟩, exponent⟩

/-- No float is written with a sign and digits alone. -/
theorem exists_mem_general (x : Float) : ∃ c ∈ (general x).toList, ¬ IsFigure c := by
  have point : ¬ IsFigure '.' := by decide
  unfold general
  split
  · exact ⟨'N', by decide, by decide⟩
  · exact ⟨'i', by simp, by decide⟩
  · next negative b _ =>
    dsimp only
    split_ifs with exponent whole
    · refine ⟨'e', ?_, by decide⟩
      rw [String.toList_append, List.mem_append, Scaled.scientific]
      right
      split <;> simp
    · exact ⟨'.', by simp, point⟩
    · refine ⟨'.', ?_, point⟩
      rw [String.toList_append, List.mem_append, Scaled.positional]
      dsimp only
      rw [if_neg whole]
      simp

theorem isBare_general (x : Float) : IsBare (general x) := by
  have zero : ∀ c ∈ ".0".toList, IsLetter c := by decide
  refine ⟨fun none => ?_, ?_⟩
  · obtain ⟨c, inside, -⟩ := exists_mem_general x
    rw [none] at inside
    cases inside
  · unfold general
    split
    · decide
    · rw [String.toList_append, List.forall_mem_append]
      exact ⟨isLetter_of_mem_sign, by decide⟩
    · dsimp only
      split_ifs
      · rw [String.toList_append, List.forall_mem_append]
        exact ⟨isLetter_of_mem_sign, isLetter_of_mem_scientific⟩
      · simp only [String.toList_append, List.forall_mem_append]
        exact ⟨⟨isLetter_of_mem_sign, isLetter_of_mem_positional⟩, zero⟩
      · rw [String.toList_append, List.forall_mem_append]
        exact ⟨isLetter_of_mem_sign, isLetter_of_mem_positional⟩

theorem general_ne_integerText (x : Float) (w : Word) : general x ≠ integerText w := by
  intro same
  obtain ⟨c, inside, other⟩ := exists_mem_general x
  rw [same] at inside
  exact other (isFigure_of_mem_toString c inside)

end

theorem isBare_numberText (n : NumberLiteral) : IsBare (numberText n) := by
  cases n with
  | int w => exact isBare_integerText w
  | float x => exact isBare_general x

theorem numberText_inj {n n' : NumberLiteral}
    (faithful : ∀ x y, n = .float x → n' = .float y → Decimal.general x = Decimal.general y → x = y)
    (same : numberText n = numberText n') : n = n' := by
  cases n with
  | int w =>
    cases n' with
    | int w' => rw [integerText_inj same]
    | float y => exact absurd same.symm (general_ne_integerText y w)
  | float x =>
    cases n' with
    | int w' => exact absurd same (general_ne_integerText x w')
    | float y => rw [faithful x y rfl rfl same]

/-! ## Quoted words -/

theorem isWord_quoteString (s : String) : IsWord (quoteString s).toList := by
  rw [quoteString, String.toList_ofList]
  exact isWord_of_quoted (.inl rfl) _ (unitsOf_quoted (.inl rfl) s.toList)

theorem isWord_charText (c : Char) : IsWord (charText c).toList := by
  rw [charText, String.toList_ofList]
  refine isWord_of_quoted (.inr rfl) (escapeStrict c) fun rest => ?_
  rw [(escaped_escapeStrict c).unitsOf_append (.inr rfl)]
  exact List.append_nil _

theorem charText_inj {c c' : Char} (same : charText c = charText c') : c = c' :=
  escapeStrict_inj (List.append_cancel_right (List.cons.inj (String.ofList_injective same)).2)

end CheckedScript.Listing
