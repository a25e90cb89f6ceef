import CheckedScript.Proofs.Execution.Arithmetic
import CheckedScript.Proofs.Listing.Words
import CheckedScript.Proofs.Parsing.Found

/-!
# Numerals of integers

Alone, a numeral is read as its digits, and a minus sign in front of them is an operator on the word
that they write. In a list the sign is part of the numeral. So the two agree on all integers that a word
can hold but the least one, whose digits alone write more than a word can hold (`numerals_agree`).
-/

namespace CheckedScript.Parsing

open Grammar Execution

/-- Digits with an optional minus sign in front of them. -/
def IsNumeral (text : List Char) : Prop :=
  (splitSign text).2 ≠ [] ∧ (splitSign text).2.all Char.isDigit = true

instance (text : List Char) : Decidable (IsNumeral text) := inferInstanceAs (Decidable (_ ∧ _))

/-- The text is an expression with this value, wherever it is evaluated. -/
def Denotes (source : String) (value : Value) : Prop :=
  ∃ e, parseExpression source = .ok e ∧
    ∀ fuel a m, evaluate (fuel + 2) a e m = (.ok value, m)

/-- The text is refused for an integer literal that a word cannot hold. -/
def Exceeds (source : String) (literal : List Char) : Prop :=
  ∃ span, parseExpression source = .error (.integerRange (.ofList literal) span)

def inBrackets (text : String) : String := "[" ++ text ++ "]"

section

variable {digits rest s : List Char} {source : String} {c : Cursor} {w : Word}

theorem plain_of_isDigit {d : Char} (digit : d.isDigit = true) :
    (!Cursor.isBlank d && !List.contains ['/', '-', 'n'] d) = true := by
  have other (mark : Char) (undigit : mark.isDigit = false) : d ≠ mark := by
    rintro rfl
    rw [undigit] at digit
    cases digit
  simp [not_isBlank_of_isDigit digit, other '/' rfl, other '-' rfl, other 'n' rfl]

theorem opens_digits (some : digits ≠ []) (all : digits.all Char.isDigit = true) :
    ∃ d, (∀ rest, (digits ++ rest).head? = Option.some d) ∧ d.isDigit = true := by
  obtain ⟨d, more, rfl⟩ := List.exists_cons_of_ne_nil some
  exact ⟨d, fun _ => rfl, (List.all_eq_true.mp all) d List.mem_cons_self⟩

theorem misses_prefixSign_digits (whole : c.rest = digits ++ rest) (some : digits ≠ [])
    (all : digits.all Char.isDigit = true) : prefixSign.Misses c := by
  obtain ⟨d, opens, digit⟩ := opens_digits some all
  have other : d ≠ '-' ∧ d ≠ 'n' := by
    constructor <;> rintro rfl <;> cases digit
  exact Pattern.misses_prefixSign (by rw [whole, opens]) other.1 other.2

theorem splitSign_digits (all : digits.all Char.isDigit = true) : splitSign digits = (false, digits) := by
  rw [splitSign]
  rintro rest rfl
  cases all

/-- A numeral is digits or a minus sign before digits. -/
theorem isNumeral_cases (isNumeral : IsNumeral s) :
    ∃ digits, digits ≠ [] ∧ digits.all Char.isDigit = true ∧ (splitSign s).2 = digits ∧
      (s = digits ∧ integerValue s = decimalNat digits ∨
        s = '-' :: digits ∧ integerValue s = -(decimalNat digits : Int)) := by
  obtain ⟨some, all⟩ := isNumeral
  refine ⟨_, some, all, rfl, ?_⟩
  unfold integerValue
  unfold splitSign
  split
  · exact .inr ⟨rfl, rfl⟩
  · exact .inl ⟨rfl, rfl⟩

theorem isNumeral_digits (some : digits ≠ []) (all : digits.all Char.isDigit = true) :
    IsNumeral digits := by
  rw [IsNumeral, splitSign_digits all]
  exact ⟨some, all⟩

theorem pastGap_numeral (isNumeral : IsNumeral s) (rest : List Char) :
    Cursor.pastGap (s ++ rest) = s ++ rest := by
  refine Cursor.pastGap_of_head ?_
  obtain ⟨digits, some, all, -, ⟨rfl, -⟩ | ⟨rfl, -⟩⟩ := isNumeral_cases isNumeral
  · obtain ⟨d, opens, digit⟩ := opens_digits some all
    have plain := plain_of_isDigit digit
    rw [opens]
    simp_all
  · rfl

/-! ## Reading a numeral -/

theorem characters_skip {name : Rule} (within : s <+: c.rest) :
    (Node.mk name c (c.skip s) []).characters = s :=
  Cursor.textUpTo_skip within

theorem readInteger_eq_ok (name : Rule) (within : s <+: c.rest) (fits : w.toInt = integerValue s) :
    readInteger (.mk name c (c.skip s) []) = .ok w := by
  rw [readInteger, characters_skip within, ← fits, Word.ofInt?_toInt]

theorem readInteger_eq_error (name : Rule) (within : s <+: c.rest)
    (exceeds : ¬ InWordRange (integerValue s)) :
    ∃ span, readInteger (.mk name c (c.skip s) []) = .error (.integerRange (.ofList s) span) := by
  rw [readInteger, Node.text, characters_skip within, Word.ofInt?_eq_none_iff.mpr exceeds]
  exact ⟨_, rfl⟩

/-! ## Parsing a numeral -/

/-- Digits alone are parsed to what is read of one literal. -/
theorem parseExpression_digits (whole : source.toList = digits) (some : digits ≠ [])
    (all : digits.all Char.isDigit = true) :
    ∃ c : Cursor, digits <+: c.rest ∧
      parseExpression source = readPrimary (.mk .integer c (c.skip digits) []) := by
  obtain ⟨d, opens, digit⟩ := opens_digits some all
  have first : source.toList.head? = Option.some d := by
    rw [whole, ← List.append_nil digits]
    exact opens []
  have rest : (Cursor.ofText source.toList).rest = digits ++ [] := by
    rw [List.append_nil]
    exact whole
  have found := Pattern.finds_integer rest all some rfl
  rw [← whole] at found
  refine ⟨Cursor.ofText source.toList, ⟨_, rest.symm⟩, ?_⟩
  rw [parseExpression_of_primary first (plain_of_isDigit digit) found rfl, whole]

theorem finds_negative (whole : c.rest = '-' :: digits) (some : digits ≠ [])
    (all : digits.all Char.isDigit = true) :
    (Pattern.rule .expression).Finds c
      [.mk .expression c ((c.skip ['-']).skip digits)
        [.mk (.unaryOperator .negate) c (c.skip ['-']) [],
          .mk .integer (c.skip ['-']) ((c.skip ['-']).skip digits) []]]
      ((c.skip ['-']).skip digits) := by
  have behind : (c.skip ['-']).rest = digits ++ [] := by
    rw [List.append_nil]
    exact Cursor.rest_skip_of_cons whole
  have sign := Pattern.finds_minus whole
  generalize c.skip ['-'] = middle at *
  have still : middle.skipGap = middle := by
    refine Cursor.skipGap_of_settled ?_
    rw [behind]
    exact pastGap_numeral (isNumeral_digits some all) []
  have operand := Pattern.finds_operand_signed sign
    (still.symm ▸ misses_prefixSign_digits behind some all)
    (still.symm ▸ Pattern.finds_integer behind all some rfl)
  rw [still] at operand
  refine Pattern.finds_expression operand ?_
  rw [Cursor.rest_skip_of_append behind]
  rfl

/-- Digits behind a minus sign are parsed to its operation on what is read of them. -/
theorem parseExpression_minus (whole : source.toList = '-' :: digits) (some : digits ≠ [])
    (all : digits.all Char.isDigit = true) :
    ∃ (c : Cursor) (s : Span), digits <+: c.rest ∧
      parseExpression source = (readPrimary (.mk .integer c (c.skip digits) [])).map fun e =>
        .unary .negate e (s.through e.span) := by
  have rest : (Cursor.ofText source.toList).rest = '-' :: digits := whole
  have found := finds_negative rest some all
  have behind : ((Cursor.ofText source.toList).skip ['-']).rest = digits :=
    Cursor.rest_skip_of_cons rest
  have settled : Cursor.pastGap source.toList = source.toList := by
    rw [whole]
    exact Cursor.pastGap_of_head rfl
  have ended : (((Cursor.ofText source.toList).skip ['-']).skip digits).rest = [] := by
    rw [Cursor.rest_skip, behind, List.drop_length]
  have parsed := (parseExpression_of_finds settled found ended).trans (readExpression_unary .negate rfl)
  exact ⟨_, _, ⟨[], by rw [behind, List.append_nil]⟩, parsed⟩

/-- A numeral is read as a whole where neither digits nor a point go on. -/
theorem numberOf_numeral (isNumeral : IsNumeral s)
    (ended : rest.head?.all (fun c => !c.isDigit && c != '.') = true) : numberOf (s ++ rest) = some s := by
  obtain ⟨digits, some, all, -, ⟨rfl, -⟩ | ⟨rfl, -⟩⟩ := isNumeral_cases isNumeral
  · obtain ⟨front, -, same⟩ := numeral_append all ended
    obtain ⟨d, opens, digit⟩ := opens_digits some all
    have other : (s ++ rest).head? ≠ Option.some '-' := by
      rw [opens]
      rintro ⟨⟩
      cases digit
    rw [Lexical.numberOf_other other, front, same, if_neg some]
  · obtain ⟨front, -, same⟩ := numeral_append all ended
    rw [List.cons_append, Lexical.numberOf_minus, front, same, if_neg some]

/-- A numeral in brackets is parsed to what is read of one element. -/
theorem parseExpression_inBrackets (isNumeral : IsNumeral source.toList) :
    ∃ (c : Cursor) (s : Span), source.toList <+: c.rest ∧
      parseExpression (inBrackets source) =
        (readNumberElement (.mk .numberElement c (c.skip source.toList) [])).map fun n =>
          .numberArray [n] s := by
  have same : (inBrackets source).toList = '[' :: (source.toList ++ ']' :: []) := by simp [inBrackets]
  generalize inBrackets source = text at *
  have rest : (Cursor.ofText text.toList).rest = '[' :: (source.toList ++ ']' :: []) := same
  have behind : ((Cursor.ofText text.toList).skip ['[']).rest = source.toList ++ ']' :: [] :=
    Cursor.rest_skip_of_cons rest
  have read : Rule.scan .numberElement ((Cursor.ofText text.toList).skip ['[']).rest =
      some source.toList := by
    rw [behind]
    exact numberOf_numeral isNumeral rfl
  have closes : (((Cursor.ofText text.toList).skip ['[']).skip source.toList).rest = ']' :: [] :=
    Cursor.rest_skip_of_append behind
  have single := Pattern.finds_single (Pattern.finds_sealed rfl read)
    (by rw [closes]; exact Cursor.pastGap_of_head rfl) (by rw [closes]; simp)
  have list := Pattern.finds_numberArray rest (pastGap_numeral isNumeral _) single
  rw [skip_enclosed, ← same] at list
  have parsed : parseExpression text = _ :=
    parseExpression_of_primary (by rw [same]; rfl) (by decide) list rfl
  refine ⟨_, Span.between (Cursor.ofText text.toList).position
    ((Cursor.ofText text.toList).skip text.toList).position, ⟨_, behind.symm⟩, parsed.trans ?_⟩
  rw [readPrimary, List.mapM_cons, List.mapM_nil]
  cases readNumberElement (.mk .numberElement ((Cursor.ofText text.toList).skip ['['])
    (((Cursor.ofText text.toList).skip ['[']).skip source.toList) []) <;> rfl

/-! ## What a numeral denotes -/

theorem evaluate_negative {fuel : Nat} {a : Activation} {m : Machine} {place whole : Span} {v : Word}
    (same : w.toInt = -v.toInt) :
    evaluate (fuel + 2) a (.unary .negate (.integer v place) whole) m = (.ok (.int w), m) := by
  have negated : Value.applyUnary .negate (.int v) = .ok (.int w) := by
    rw [Value.applyUnary, ← same, Word.ofInt?_toInt]
  rw [evaluate, evaluate]
  change yield a (Value.applyUnary .negate (.int v)) whole m = _
  rw [negated]
  rfl

theorem exists_word {n : Int} (within : InWordRange n) : ∃ w : Word, w.toInt = n := by
  obtain ⟨w, fits⟩ := Option.ne_none_iff_exists'.mp fun none => Word.ofInt?_eq_none_iff.mp none within
  exact ⟨w, Word.toInt_of_ofInt?_eq_some fits⟩

theorem readPrimary_integer (within : s <+: c.rest) (fits : w.toInt = integerValue s) :
    ∃ span, readPrimary (.mk .integer c (c.skip s) []) = .ok (.integer w span) := by
  rw [readPrimary, readInteger_eq_ok _ within fits]
  exact ⟨_, rfl⟩

theorem readPrimary_integer_exceeds (within : s <+: c.rest) (exceeds : ¬ InWordRange (integerValue s)) :
    ∃ span, readPrimary (.mk .integer c (c.skip s) []) = .error (.integerRange (.ofList s) span) := by
  obtain ⟨span, refused⟩ := readInteger_eq_error .integer within exceeds
  rw [readPrimary, refused]
  exact ⟨span, rfl⟩

theorem integerValue_digits (all : digits.all Char.isDigit = true) :
    integerValue digits = decimalNat digits := by
  rw [integerValue, splitSign_digits all]
  rfl

/-- Alone, a numeral denotes its integer if a word holds it and it is not the least one. -/
theorem denotes_numeral (isNumeral : IsNumeral source.toList) (fits : w.toInt = integerValue source.toList)
    (other : w ≠ Int64.minValue) : Denotes source (.int w) := by
  obtain ⟨digits, some, all, -, ⟨whole, value⟩ | ⟨whole, value⟩⟩ := isNumeral_cases isNumeral
  · obtain ⟨c, within, parsed⟩ := parseExpression_digits whole some all
    rw [whole] at fits
    obtain ⟨span, read⟩ := readPrimary_integer within fits
    exact ⟨_, parsed.trans read, fun fuel a m => by rw [evaluate]; rfl⟩
  · obtain ⟨c, span, within, parsed⟩ := parseExpression_minus whole some all
    have small : w.toInt ≠ -0x8000000000000000 := fun same => other (Int64.toInt_inj.mp same)
    have bounds := Word.inWordRange_toInt w
    rw [fits, value] at small bounds
    -- The digits are read before the sign is applied, so they have to fit into a word themselves.
    have positive : InWordRange (integerValue digits) := by
      rw [integerValue_digits all]
      unfold InWordRange at bounds ⊢
      omega
    obtain ⟨v, fits'⟩ := exists_word positive
    obtain ⟨span', read⟩ := readPrimary_integer within fits'
    rw [read] at parsed
    refine ⟨_, parsed, fun fuel a m => evaluate_negative ?_⟩
    rw [fits, value, fits', integerValue_digits all]

/-- Alone, a numeral is refused if its digits write more than a word holds. -/
theorem exceeds_numeral (isNumeral : IsNumeral source.toList)
    (beyond : ¬ InWordRange (integerValue source.toList) ∨
      integerValue source.toList = Int64.minValue.toInt) :
    Exceeds source (splitSign source.toList).2 := by
  obtain ⟨digits, some, all, unsigned, shape⟩ := isNumeral_cases isNumeral
  have positive : ¬ InWordRange (integerValue digits) := by
    have least : Int64.minValue.toInt = -0x8000000000000000 := by decide
    rw [integerValue_digits all]
    rw [least] at beyond
    unfold InWordRange at beyond ⊢
    omega
  rw [unsigned]
  rcases shape with ⟨whole, -⟩ | ⟨whole, -⟩
  · obtain ⟨c, within, parsed⟩ := parseExpression_digits whole some all
    obtain ⟨span, refused⟩ := readPrimary_integer_exceeds within positive
    exact ⟨span, parsed.trans refused⟩
  · obtain ⟨c, span, within, parsed⟩ := parseExpression_minus whole some all
    obtain ⟨span', refused⟩ := readPrimary_integer_exceeds within positive
    rw [refused] at parsed
    exact ⟨span', parsed⟩

theorem readNumberElement_numeral {n : Node} (isNumeral : IsNumeral n.characters) :
    readNumberElement n = (readInteger n).map .int := by
  obtain ⟨digits, some, all, -, shape⟩ := isNumeral_cases isNumeral
  have pointless : '.' ∉ n.characters := by
    have free : '.' ∉ digits := fun inside => by
      have digit := List.all_eq_true.mp all _ inside
      cases digit
    rcases shape with ⟨whole, -⟩ | ⟨whole, -⟩
    · rwa [whole]
    · rw [whole]
      simp [free]
  rw [readNumberElement, if_neg]
  rwa [List.contains_iff_mem]

/-- In a list, a numeral denotes its integer if a word holds it. -/
theorem denotes_inBrackets (isNumeral : IsNumeral source.toList)
    (fits : w.toInt = integerValue source.toList) : Denotes (inBrackets source) (.array [.int w]) := by
  obtain ⟨c, span, within, parsed⟩ := parseExpression_inBrackets isNumeral
  rw [readNumberElement_numeral (by rwa [characters_skip within]), readInteger_eq_ok _ within fits] at parsed
  exact ⟨_, parsed, fun fuel a m => by rw [evaluate]; rfl⟩

theorem exceeds_inBrackets (isNumeral : IsNumeral source.toList)
    (beyond : ¬ InWordRange (integerValue source.toList)) : Exceeds (inBrackets source) source.toList := by
  obtain ⟨c, span, within, parsed⟩ := parseExpression_inBrackets isNumeral
  obtain ⟨span', refused⟩ := readInteger_eq_error .numberElement within beyond
  rw [readNumberElement_numeral (by rwa [characters_skip within]), refused] at parsed
  exact ⟨span', parsed⟩

/-! ## Decimal texts -/

theorem decimalNat_toString (n : Nat) : decimalNat (toString n).toList = n := by
  rw [Nat.toString_eq_repr, Nat.toList_repr]
  exact Nat.ofDigitChars_ten_toDigits

theorem digits_toString (n : Nat) :
    (toString n).toList ≠ [] ∧ (toString n).toList.all Char.isDigit = true :=
  ⟨Listing.toString_ne_nil n, List.all_eq_true.mpr Listing.isDigit_of_mem_toString⟩

/-- An integer that is not negative is written by digits. -/
theorem toString_of_nonneg {n : Int} (positive : 0 ≤ n) :
    (toString n).toList ≠ [] ∧ (toString n).toList.all Char.isDigit = true ∧
      integerValue (toString n).toList = n := by
  rw [Int.toString_eq_repr, Int.repr_eq_if, if_pos positive, ← Nat.toString_eq_repr]
  obtain ⟨nonempty, all⟩ := digits_toString n.toNat
  refine ⟨nonempty, all, ?_⟩
  rw [integerValue_digits all, decimalNat_toString, Int.toNat_of_nonneg positive]

/-- The text of an integer is a numeral that writes it. -/
theorem isNumeral_text (w : Word) :
    IsNumeral (Value.int w).text.toList ∧ integerValue (Value.int w).text.toList = w.toInt := by
  rw [Value.text]
  by_cases positive : 0 ≤ w.toInt
  · obtain ⟨nonempty, all, writes⟩ := toString_of_nonneg positive
    exact ⟨isNumeral_digits nonempty all, writes⟩
  · rw [Int.toString_eq_repr, Int.repr_eq_if, if_neg positive, ← Nat.toString_eq_repr,
      String.toList_append]
    refine ⟨digits_toString (-w.toInt).toNat, ?_⟩
    change -(decimalNat (toString (-w.toInt).toNat).toList : Int) = w.toInt
    rw [decimalNat_toString]
    omega

/-- Alone and in brackets, the numeral is accepted alike. If it is, then the integer that it denotes
alone, and that its digits write, is also the element of the list. -/
def SameInBrackets (text : String) : Prop :=
  ((∃ e, parseExpression text = .ok e) ↔ ∃ e, parseExpression (inBrackets text) = .ok e) ∧
    ∀ e, parseExpression text = .ok e →
      ∃ w : Word, w.toInt = integerValue text.toList ∧
        Denotes text (.int w) ∧ Denotes (inBrackets text) (.array [.int w])

theorem Denotes.accepted {value : Value} (denotes : Denotes source value) :
    ∃ e, parseExpression source = .ok e :=
  denotes.imp fun _ => And.left

theorem Exceeds.refused {literal : List Char} (exceeds : Exceeds source literal) :
    ¬ ∃ e, parseExpression source = .ok e := by
  obtain ⟨span, refused⟩ := exceeds
  rintro ⟨e, accepted⟩
  cases refused.symm.trans accepted

theorem sameInBrackets_of_denotes (fits : w.toInt = integerValue source.toList)
    (alone : Denotes source (.int w)) (inList : Denotes (inBrackets source) (.array [.int w])) :
    SameInBrackets source :=
  ⟨iff_of_true alone.accepted inList.accepted, fun _ _ => ⟨w, fits, alone, inList⟩⟩

theorem sameInBrackets_of_exceeds {literal literal' : List Char} (alone : Exceeds source literal)
    (inList : Exceeds (inBrackets source) literal') : SameInBrackets source :=
  ⟨iff_of_false alone.refused inList.refused, fun e accepted => absurd ⟨e, accepted⟩ alone.refused⟩

/-- In a list, a numeral is accepted exactly if a word holds what it writes. -/
theorem accepted_inBrackets_iff (isNumeral : IsNumeral source.toList) :
    (∃ e, parseExpression (inBrackets source) = .ok e) ↔ InWordRange (integerValue source.toList) := by
  by_cases inRange : InWordRange (integerValue source.toList)
  · obtain ⟨w, fits⟩ := exists_word inRange
    exact iff_of_true (denotes_inBrackets isNumeral fits).accepted inRange
  · exact iff_of_false (exceeds_inBrackets isNumeral inRange).refused inRange

/-- Only the least integer is refused alone and accepted in a list. -/
theorem sameInBrackets_iff (isNumeral : IsNumeral source.toList) :
    SameInBrackets source ↔ integerValue source.toList ≠ Int64.minValue.toInt := by
  constructor
  · intro same least
    refine (exceeds_numeral isNumeral (.inr least)).refused (same.1.mpr ?_)
    exact (denotes_inBrackets isNumeral least.symm).accepted
  · intro other
    by_cases inRange : InWordRange (integerValue source.toList)
    · obtain ⟨w, fits⟩ := exists_word inRange
      have smaller : w ≠ Int64.minValue := by
        rintro rfl
        exact other fits.symm
      exact sameInBrackets_of_denotes fits (denotes_numeral isNumeral fits smaller)
        (denotes_inBrackets isNumeral fits)
    · exact sameInBrackets_of_exceeds (exceeds_numeral isNumeral (.inl inRange))
        (exceeds_inBrackets isNumeral inRange)

theorem denotes_text_iff : Denotes (Value.int w).text (.int w) ↔ w ≠ Int64.minValue := by
  obtain ⟨isNumeral, writes⟩ := isNumeral_text w
  refine ⟨?_, denotes_numeral isNumeral writes.symm⟩
  rintro denotes rfl
  exact (exceeds_numeral isNumeral (.inr writes)).refused denotes.accepted

end

/-- A numeral is read alike alone and in brackets exactly if it does not write the least integer, and in
brackets it is accepted exactly if a word holds what it writes. So the text of each integer denotes it in
a list, and each one but the least alone. -/
theorem numerals_agree {t : String} (isNumeral : IsNumeral t.toList) (w : Word) :
    ((SameInBrackets t ↔ integerValue t.toList ≠ Int64.minValue.toInt) ∧
      ((∃ e, parseExpression (inBrackets t) = .ok e) ↔ InWordRange (integerValue t.toList))) ∧
    (Denotes (Value.int w).text (.int w) ↔ w ≠ Int64.minValue) ∧
      Denotes (inBrackets (Value.int w).text) (.array [.int w]) := by
  obtain ⟨isNumeral', writes⟩ := isNumeral_text w
  exact ⟨⟨sameInBrackets_iff isNumeral, accepted_inBrackets_iff isNumeral⟩, denotes_text_iff,
    denotes_inBrackets isNumeral' writes.symm⟩

/-- Zeros in front change nothing: `-0042` is read alike alone and in brackets. The text of its integer
is `-42`. -/
theorem numerals_agree_zeros :
    IsNumeral "-0042".toList ∧ integerValue "-0042".toList = -42 ∧ SameInBrackets "-0042" ∧
      Denotes "-42" (.int (-42)) :=
  have isNumeral : IsNumeral "-0042".toList := by decide
  have writes : integerValue "-0042".toList = -42 := by decide
  have ⟨⟨same, _⟩, alone, _⟩ := numerals_agree isNumeral (-42)
  ⟨isNumeral, writes, same.mpr (by rw [writes]; decide), alone.mpr (by decide)⟩

/-- The least integer is a numeral, and in brackets it is accepted. Alone it is refused: its digits write
more than a word holds. -/
theorem least_differs :
    IsNumeral "-9223372036854775808".toList ∧
      (¬ ∃ e, parseExpression "-9223372036854775808" = .ok e) ∧
      ∃ e, parseExpression (inBrackets "-9223372036854775808") = .ok e :=
  have isNumeral : IsNumeral "-9223372036854775808".toList := by decide
  have writes : integerValue "-9223372036854775808".toList = Int64.minValue.toInt := by decide
  ⟨isNumeral, (exceeds_numeral isNumeral (.inr writes)).refused,
    (denotes_inBrackets isNumeral writes.symm).accepted⟩

end CheckedScript.Parsing
