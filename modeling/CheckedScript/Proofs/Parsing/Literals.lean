import CheckedScript.Parsing.Literal
import CheckedScript.Proofs.Grammar.Scan
import Mathlib.Algebra.Ring.Int.Defs

/-!
# What literals come to

A literal is bad if it is an integer that does not fit, or if it holds an escape that stands for
nothing (`Node.IsBad`). Reading a literal fails for this reason only, and reading several fails for
the first bad one among them: a reader `Settles` the nodes that it reads.
-/

namespace CheckedScript

namespace Grammar

/-- The characters that a backslash before them makes an escape. A backslash that ends an escape opens
none. -/
def escapes : List Char → List Char
  | '\\' :: c :: rest => c :: escapes rest
  | _ :: rest => escapes rest
  | [] => []

/-- The characters that stand for something in an escape. -/
def escapeLetters : List Char := ['n', 't', 'r', '0', '\\', '"', '\'']

namespace Node

/-- The integer that the node writes is a signed 64-bit word. -/
def IsInRange (n : Node) : Prop :=
  -2 ^ 63 ≤ Parsing.integerValue n.characters ∧ Parsing.integerValue n.characters < 2 ^ 63

/-- The node is a literal or an array element whose text is well-formed and that still has no value. -/
def IsBad (n : Node) : Prop :=
  match n.rule with
  | .integer => ¬ n.IsInRange
  | .numberElement => '.' ∉ n.characters ∧ ¬ n.IsInRange
  | .string | .charLiteral => ∃ c ∈ escapes n.characters, c ∉ escapeLetters
  | _ => False

/-- The error says what is bad about the node, and where it is. -/
def Causes (n : Node) (e : ParseError) : Prop :=
  match n.rule with
  | .integer | .numberElement => e = .integerRange n.text n.span
  | .string | .charLiteral => ∃ c ∉ escapeLetters, e = .unknownEscape (.ofList ['\\', c]) n.span
  | _ => False

end Node

end Grammar

namespace Parsing

open Grammar

/-- Reading ends with the given fault, or with a value if there is none. -/
def Settles {ε α : Type} (fault : Option ε) (read : Except ε α) : Prop :=
  match fault with
  | some e => read = .error e
  | none => ∃ a, read = .ok a

theorem Settles.map {ε α β : Type} {fault : Option ε} {read : Except ε α}
    (settles : Settles fault read) (f : α → β) : Settles fault (read.map f) := by
  cases fault with
  | some e =>
    cases (settles : read = .error e)
    exact rfl
  | none =>
    obtain ⟨a, rfl⟩ := settles
    exact ⟨f a, rfl⟩

theorem Settles.mapError {ε ε' α : Type} {fault : Option ε} {read : Except ε α}
    (settles : Settles fault read) (f : ε → ε') : Settles (fault.map f) (read.mapError f) := by
  cases fault with
  | some e =>
    cases (settles : read = .error e)
    exact rfl
  | none =>
    obtain ⟨a, rfl⟩ := settles
    exact ⟨a, rfl⟩

/-- What is wrong with the integer of a node. -/
def rangeFault (n : Node) : Option ParseError :=
  match Word.ofInt? (integerValue n.characters) with
  | some _ => none
  | none => some (.integerRange n.text n.span)

/-- The first escape of a text that stands for nothing. -/
def unknownEscape? (text : List Char) : Option String :=
  ((escapes text).find? (!escapeLetters.contains ·)).map fun c => .ofList ['\\', c]

/-- What is wrong with the escapes of a node. -/
def escapeFault (n : Node) : Option ParseError :=
  (unknownEscape? n.characters).map (.unknownEscape · n.span)

/-- What is wrong with a node that is a literal. -/
def literalFault (n : Node) : Option ParseError :=
  match n.rule with
  | .integer => rangeFault n
  | .numberElement => if n.characters.contains '.' then none else rangeFault n
  | .string | .charLiteral => escapeFault n
  | _ => none

/-! ## A fault is what is bad about a literal -/

theorem rangeFault_eq_none_iff {n : Node} : rangeFault n = none ↔ n.IsInRange := by
  have lower : Int64.minValue.toInt = -2 ^ 63 := by decide
  have upper : Int64.maxValue.toInt = 2 ^ 63 - 1 := by decide
  rw [rangeFault, Word.ofInt?, lower, upper, Node.IsInRange]
  split
  · next known =>
    rw [Option.ite_none_right_eq_some] at known
    simp only [true_iff]
    omega
  · next known =>
    rw [ite_eq_right_iff] at known
    simp only [reduceCtorEq, false_iff]
    intro within
    exact absurd (known (by omega)) nofun

theorem eq_integerRange_of_rangeFault {n : Node} {e : ParseError} (found : rangeFault n = some e) :
    e = .integerRange n.text n.span := by
  rw [rangeFault] at found
  split at found
  · cases found
  · exact (Option.some.inj found).symm

theorem escapeFault_eq_none_iff {n : Node} :
    escapeFault n = none ↔ ¬ ∃ c ∈ escapes n.characters, c ∉ escapeLetters := by
  rw [escapeFault, unknownEscape?, Option.map_eq_none_iff, Option.map_eq_none_iff,
    List.find?_eq_none]
  simp

theorem eq_unknownEscape_of_escapeFault {n : Node} {e : ParseError} (found : escapeFault n = some e) :
    ∃ c ∉ escapeLetters, e = .unknownEscape (.ofList ['\\', c]) n.span := by
  obtain ⟨_, known, rfl⟩ := Option.map_eq_some_iff.mp found
  obtain ⟨c, first, rfl⟩ := Option.map_eq_some_iff.mp known
  exact ⟨c, by simpa using List.find?_some first, rfl⟩

theorem literalFault_eq_none_iff {n : Node} : literalFault n = none ↔ ¬ n.IsBad := by
  rw [literalFault, Node.IsBad]
  split
  · rw [rangeFault_eq_none_iff, Classical.not_not]
  · by_cases point : '.' ∈ n.characters
    · simp [point]
    · simp [point, rangeFault_eq_none_iff]
  · exact escapeFault_eq_none_iff
  · exact escapeFault_eq_none_iff
  · simp

theorem causes_of_literalFault {n : Node} {e : ParseError} (found : literalFault n = some e) :
    n.Causes e := by
  rw [literalFault] at found
  rw [Node.Causes]
  split at found
  · exact eq_integerRange_of_rangeFault found
  · rw [Option.ite_none_left_eq_some] at found
    exact eq_integerRange_of_rangeFault found.2
  · exact eq_unknownEscape_of_escapeFault found
  · exact eq_unknownEscape_of_escapeFault found
  · cases found

/-! ## Reading numbers -/

theorem settles_readInteger (n : Node) : Settles (rangeFault n) (readInteger n) := by
  rw [rangeFault, readInteger]
  cases Word.ofInt? (integerValue n.characters) with
  | some value => exact ⟨value, rfl⟩
  | none => exact rfl

theorem isFloatNumeral_append {sign digits places : List Char} (signed : sign = [] ∨ sign = ['-'])
    (some : digits ≠ []) (all : digits.all Char.isDigit = true) (some' : places ≠ [])
    (all' : places.all Char.isDigit = true) :
    isFloatNumeral (sign ++ (digits ++ '.' :: places)) = true := by
  have unsigned : (splitSign (sign ++ (digits ++ '.' :: places))).2 = digits ++ '.' :: places := by
    rcases signed with rfl | rfl
    · cases digits with
      | nil => exact absurd rfl some
      | cons d digits =>
        rw [List.nil_append, List.cons_append, splitSign]
        rintro _ ⟨⟩
        cases all
    · rfl
  have whole : (digits ++ '.' :: places).takeWhile Char.isDigit = digits := by
    rw [List.takeWhile_append_of_pos (List.all_eq_true.mp all), List.takeWhile_cons_of_neg (by decide),
      List.append_nil]
  have behind : (digits ++ '.' :: places).dropWhile Char.isDigit = '.' :: places := by
    rw [List.dropWhile_append_of_pos (List.all_eq_true.mp all), List.dropWhile_cons_of_neg (by decide)]
  rw [isFloatNumeral, unsigned, whole, behind]
  simp [some, some', all']

theorem all_digitsOf (text : List Char) : (digitsOf text).all Char.isDigit = true :=
  List.all_takeWhile

theorem placesOf_cases (text : List Char) :
    placesOf text = [] ∨
      ∃ places, placesOf text = '.' :: places ∧ places ≠ [] ∧ places.all Char.isDigit = true := by
  unfold placesOf
  split
  · next rest =>
    split
    · exact .inl rfl
    · next some => exact .inr ⟨_, rfl, some, all_digitsOf rest⟩
  · exact .inl rfl

theorem isFloatNumeral_of_floatOf {text numeral : List Char} (read : floatOf text = some numeral) :
    isFloatNumeral numeral = true := by
  rw [floatOf, Option.ite_none_left_eq_some, not_or] at read
  obtain ⟨⟨some, pointed⟩, ⟨⟩⟩ := read
  obtain none | ⟨places, same, some', all⟩ := placesOf_cases (text.dropWhile Char.isDigit)
  · exact absurd none pointed
  · rw [numeralOf, same]
    exact isFloatNumeral_append (.inl rfl) some (all_digitsOf text) some' all

theorem isFloatNumeral_of_numberOf {text numeral : List Char} (read : numberOf text = some numeral)
    (pointed : '.' ∈ numeral) : isFloatNumeral numeral = true := by
  rw [numberOf, Option.ite_none_left_eq_some] at read
  obtain ⟨some, ⟨⟩⟩ := read
  have signed : signOf text = [] ∨ signOf text = ['-'] := by
    unfold signOf
    split
    · exact .inr rfl
    · exact .inl rfl
  have all := all_digitsOf (text.drop (signOf text).length)
  rw [numeralOf] at pointed ⊢
  obtain none | ⟨places, same, some', all'⟩ :=
    placesOf_cases ((text.drop (signOf text).length).dropWhile Char.isDigit)
  · rw [none, List.append_nil, List.mem_append] at pointed
    rcases pointed with inSign | inDigits
    · rcases signed with none | minus
      · simp [none] at inSign
      · simp [minus] at inSign
    · exact absurd (List.all_eq_true.mp all _ inDigits) (by decide)
  · rw [same]
    exact isFloatNumeral_append signed some all some' all'

theorem settles_readFloat {n : Node} (numeral : isFloatNumeral n.characters = true) :
    Settles none (readFloat n) := by
  rw [readFloat, if_pos numeral]
  exact ⟨_, rfl⟩

section

variable {start stop : Cursor} {children : List Node}

theorem settles_float (isMatch : (Node.mk .float start stop children).IsMatch) :
    Settles none (readFloat (.mk .float start stop children)) := by
  obtain ⟨read, scanned, -, -, covers⟩ := isMatch.of_sealed rfl
  exact settles_readFloat (by rw [covers]; exact isFloatNumeral_of_floatOf scanned)

theorem settles_readNumberElement (isMatch : (Node.mk .numberElement start stop children).IsMatch) :
    Settles (literalFault (.mk .numberElement start stop children))
      (readNumberElement (.mk .numberElement start stop children)) := by
  obtain ⟨read, scanned, -, -, covers⟩ := isMatch.of_sealed rfl
  rw [literalFault, readNumberElement]
  dsimp only [Node.rule]
  split
  · next pointed =>
    refine (settles_readFloat ?_).map _
    rw [List.contains_iff_mem] at pointed
    rw [covers] at pointed ⊢
    exact isFloatNumeral_of_numberOf scanned pointed
  · exact (settles_readInteger _).map _

end

/-! ## Reading quotes -/

theorem escapeValue?_eq_none_iff {c : Char} : escapeValue? c = none ↔ c ∉ escapeLetters := by
  unfold escapeValue?
  split <;> simp_all [escapeLetters]

theorem unknownEscape?_cons_cons (c : Char) (rest : List Char) :
    unknownEscape? ('\\' :: c :: rest) =
      if c ∈ escapeLetters then unknownEscape? rest else some (.ofList ['\\', c]) := by
  rw [unknownEscape?, escapes, List.find?_cons]
  by_cases known : c ∈ escapeLetters <;> simp [known, unknownEscape?]

theorem unknownEscape?_cons {c : Char} (other : c ≠ '\\') (rest : List Char) :
    unknownEscape? (c :: rest) = unknownEscape? rest := by
  rw [unknownEscape?, escapes]
  · rfl
  · rintro _ _ ⟨⟩
    exact fun _ => other rfl

theorem ne_backslash_of_isPlain {quote c : Char} (plain : isPlain quote c = true) : c ≠ '\\' := by
  rintro rfl
  simp [isPlain] at plain

/-- Resolving escapes fails for the first one that stands for nothing. -/
theorem settles_unescape (quote : Char) (text : List Char) :
    Settles (unknownEscape? (unitsOf quote text)) (unescape (unitsOf quote text)) := by
  induction text using unitsOf.induct quote with
  | case1 c rest ih =>
    rw [unitsOf, unknownEscape?_cons_cons, unescape]
    by_cases known : c ∈ escapeLetters
    · obtain ⟨value, found⟩ : ∃ value, escapeValue? c = some value :=
        Option.ne_none_iff_exists'.mp fun none => escapeValue?_eq_none_iff.mp none known
      rw [if_pos known, found]
      exact ih.map _
    · rw [if_neg known, escapeValue?_eq_none_iff.mpr known]
      exact rfl
  | case2 c rest other plain ih =>
    have solid := ne_backslash_of_isPlain plain
    rw [unitsOf.eq_2 _ _ _ other, if_pos plain, unknownEscape?_cons solid, unescape.eq_4]
    · exact ih.map _
    · rintro _ _ ⟨⟩
      exact fun _ => solid rfl
    · rintro ⟨⟩
      exact fun _ => solid rfl
  | case3 c rest other special =>
    rw [unitsOf.eq_2 _ _ _ other, if_neg special]
    exact ⟨[], rfl⟩
  | case4 => exact ⟨[], rfl⟩

/-- The quotes around a content bring no escape. -/
theorem unknownEscape?_quoted {quote : Char} (solid : quote ≠ '\\') (text : List Char) :
    unknownEscape? (quote :: (unitsOf quote text ++ [quote])) =
      unknownEscape? (unitsOf quote text) := by
  rw [unknownEscape?_cons solid]
  induction text using unitsOf.induct quote with
  | case1 c rest ih =>
    rw [unitsOf, List.cons_append, List.cons_append, unknownEscape?_cons_cons,
      unknownEscape?_cons_cons, ih]
  | case2 c rest other plain ih =>
    have solid := ne_backslash_of_isPlain plain
    rw [unitsOf.eq_2 _ _ _ other, if_pos plain, List.cons_append, unknownEscape?_cons solid,
      unknownEscape?_cons solid, ih]
  | case3 c rest other special =>
    rw [unitsOf.eq_2 _ _ _ other, if_neg special]
    exact unknownEscape?_cons solid []
  | case4 => exact unknownEscape?_cons solid []

theorem unitOf_cases {quote : Char} {text read : List Char} (found : unitOf quote text = some read) :
    (∃ c, read = ['\\', c]) ∨ ∃ c, read = [c] ∧ isPlain quote c = true := by
  unfold unitOf at found
  split at found
  · exact .inl ⟨_, (Option.some.inj found).symm⟩
  · next c _ _ =>
    rw [Option.ite_none_right_eq_some] at found
    exact .inr ⟨c, (Option.some.inj found.2).symm, found.1⟩
  · cases found

theorem unitsOf_unitOf {quote : Char} {text read : List Char} (found : unitOf quote text = some read) :
    unitsOf quote read = read := by
  rcases unitOf_cases found with ⟨c, rfl⟩ | ⟨c, rfl, plain⟩
  · rfl
  · rw [unitsOf.eq_2 quote c [] (fun _ _ _ same => by cases same), if_pos plain]
    rfl

theorem length_unescape_unitOf {quote : Char} {text read value : List Char}
    (found : unitOf quote text = some read) (resolved : unescape read = .ok value) :
    ∃ c, value = [c] := by
  rcases unitOf_cases found with ⟨c, rfl⟩ | ⟨c, rfl, plain⟩
  · rw [unescape] at resolved
    split at resolved
    · cases resolved
      exact ⟨_, rfl⟩
    · cases resolved
  · have solid := ne_backslash_of_isPlain plain
    rw [unescape.eq_4 _ _ (fun _ _ same => absurd same solid) (fun same => absurd same solid)] at resolved
    cases resolved
    exact ⟨c, rfl⟩

variable {start stop : Cursor} {children : List Node}

theorem settles_readQuoted {n inner : Node} {quote : Char} {text : List Char}
    (solid : quote ≠ '\\') (listed : n.children = [inner])
    (inside : inner.characters = unitsOf quote text)
    (whole : n.characters = quote :: (unitsOf quote text ++ [quote])) :
    Settles (escapeFault n) (readQuoted n) := by
  rw [escapeFault, readQuoted, listed, whole, unknownEscape?_quoted solid]
  dsimp only
  rw [inside]
  exact (settles_unescape quote text).mapError _

theorem settles_readString (isMatch : (Node.mk .string start stop children).IsMatch) :
    Settles (literalFault (.mk .string start stop children))
      (readString (.mk .string start stop children)) := by
  obtain ⟨read, inner, ⟨⟩, rfl, inside, whole⟩ :=
    isMatch.of_quoted (show Rule.string.pattern = .text ['"'] ++ .rule .stringContent ++ .text ['"']
      from rfl) rfl rfl
  exact (settles_readQuoted (by decide) rfl inside whole).map _

theorem settles_readChar (isMatch : (Node.mk .charLiteral start stop children).IsMatch) :
    Settles (literalFault (.mk .charLiteral start stop children))
      (readChar (.mk .charLiteral start stop children)) := by
  obtain ⟨read, inner, scanned, rfl, inside, whole⟩ :=
    isMatch.of_quoted (show Rule.charLiteral.pattern = .text ['\''] ++ .rule .charContent ++ .text ['\'']
      from rfl) rfl rfl
  have units := unitsOf_unitOf scanned
  have settled : Settles (escapeFault (.mk .charLiteral start stop [inner]))
      (readQuoted (.mk .charLiteral start stop [inner])) :=
    settles_readQuoted (show '\'' ≠ '\\' by decide) rfl (inside.trans units.symm)
      (by rw [units]; exact whole)
  rw [literalFault, readChar]
  dsimp only [Node.rule]
  cases known : escapeFault (.mk .charLiteral start stop [inner]) with
  | some e =>
    rw [known] at settled
    rw [show readQuoted _ = _ from settled]
    exact rfl
  | none =>
    rw [known] at settled
    obtain ⟨value, resolved⟩ := settled
    obtain ⟨c, rfl⟩ : ∃ c, value = [c] := by
      refine length_unescape_unitOf scanned ?_
      rw [readQuoted, Node.children] at resolved
      dsimp only at resolved
      rw [inside] at resolved
      cases unescaped : unescape read with
      | ok value' =>
        rw [unescaped] at resolved
        cases resolved
        rfl
      | error e =>
        rw [unescaped] at resolved
        cases resolved
    rw [resolved]
    exact ⟨c, rfl⟩

end Parsing

end CheckedScript
