import CheckedScript.Proofs.Grammar.Lexeme

/-!
# Rules that stand for one lexeme

A rule inside of which no blanks may stand reads the lexeme that a text begins with, or it is refused;
which of them is told by the lexeme alone (`Lexical.isLexeme`, `Lexical.eq_alone`).
-/

namespace CheckedScript.Grammar

namespace Rule

/-- What a rule reads that stands for one lexeme, its quotes included. -/
def token : Rule → Scan
  | string => quoteOf '"' (scan stringContent)
  | charLiteral => quoteOf '\'' (scan charContent)
  | rule => rule.scan

/-- Where a rule that stands for one lexeme leads to, if it may be asked for in this mode. -/
def after (rule : Rule) (m : Mode) : Option Mode :=
  match rule with
  | identifier => if m = .listed then none else some .named
  | keyword _ | typeName | voidType | boolean | float | integer
  | unaryOperator .not | binaryOperator .or | binaryOperator .and =>
    if m = .listed then none else some .fresh
  | numberElement => if m = .listed then some .listed else none
  | string | charLiteral => some (if m = .listed then .listed else .fresh)
  | _ => none

end Rule

section

variable {text u : List Char} {m : Mode}

/-- The scans of the rules that stand for one lexeme, between the modes in which they are asked for
and those that they lead to. -/
inductive Lexical (m : Mode) : (m' : Mode) → Scan → Prop
  | word {words : List String} :
      m ≠ .listed → (∀ w ∈ words, w ∈ reservedWords ∧ w ∉ typeWords) → Lexical m .fresh (wordAmong words)
  | name : m ≠ .listed → Lexical m .named nameOf
  | type : m ≠ .listed → Lexical m .fresh typeOf
  | float : m ≠ .listed → Lexical m .fresh floatOf
  | integer : m ≠ .listed → Lexical m .fresh integerOf
  | number : m = .listed → Lexical m .listed numberOf
  | quoted {quote : Char} {content : Rule} :
      quote = '"' ∧ content = .stringContent ∨ quote = '\'' ∧ content = .charContent →
      Lexical m (if m = .listed then .listed else .fresh) (quoteOf quote content.scan)

theorem Rule.lexical {rule : Rule} {m m' : Mode} (allowed : rule.after m = some m') :
    Lexical m m' rule.token := by
  have word (w : String) (reserved : w ∈ reservedWords ∧ w ∉ typeWords) :
      ∀ v ∈ [w], v ∈ reservedWords ∧ v ∉ typeWords := List.forall_mem_singleton.mpr reserved
  unfold Rule.after at allowed
  split at allowed
  case h_11 =>
    obtain ⟨listed, ⟨⟩⟩ := Option.ite_none_right_eq_some.mp allowed
    exact .number listed
  case h_12 =>
    cases allowed
    exact .quoted (.inl ⟨rfl, rfl⟩)
  case h_13 =>
    cases allowed
    exact .quoted (.inr ⟨rfl, rfl⟩)
  case h_14 => cases allowed
  all_goals obtain ⟨unlisted, ⟨⟩⟩ := Option.ite_none_left_eq_some.mp allowed
  case h_1 => exact .name unlisted
  case h_2 keyword => exact .word unlisted (word keyword.text (by cases keyword <;> decide))
  case h_3 => exact .type unlisted
  case h_4 => exact .word unlisted (word "void" (by decide))
  case h_5 => exact .word unlisted (by decide)
  case h_6 => exact .float unlisted
  case h_7 => exact .integer unlisted
  case h_8 => exact .word unlisted (word "not" (by decide))
  case h_9 => exact .word unlisted (word "or" (by decide))
  case h_10 => exact .word unlisted (word "and" (by decide))

namespace Lexical

variable {m' : Mode} {scan : Scan}

theorem typeWords_reserved : ∀ w ∈ typeWords.map String.toList, w ∈ reservedWords.map String.toList := by
  decide

theorem isWordStart_of_reserved :
    ∀ w ∈ reservedWords.map String.toList, w.head?.any isWordStart = true := by
  decide +kernel

theorem exists_cons {test : Char → Bool} (opens : text.head?.any test = true) :
    ∃ c rest, text = c :: rest ∧ test c = true := by
  cases text with
  | nil => cases opens
  | cons c rest => exact ⟨c, rest, rfl, by simpa using opens⟩

theorem opens_of_digitsOf (some : digitsOf text ≠ []) : text.head?.any Char.isDigit = true :=
  Classical.byContradiction fun none => some (digitsOf_eq_nil_iff.mpr (Bool.eq_false_iff.mpr none))

theorem signOf_eq_nil (other : text.head? ≠ some '-') : signOf text = [] := by
  rw [signOf]
  rintro rest rfl
  exact other rfl

/-- A text whose word is reserved begins with it. -/
theorem opens_of_reserved (reserved : wordOf text ∈ reservedWords.map String.toList) :
    text.head?.any isWordStart = true := by
  have opens := isWordStart_of_reserved _ reserved
  have within : wordOf text <+: text := List.takeWhile_prefix _
  obtain ⟨rest, whole⟩ := within
  cases known : wordOf text with
  | nil =>
    rw [known] at opens
    cases opens
  | cons c word =>
    rw [known] at opens whole
    rw [← whole]
    exact opens

theorem mem_of_plain {words : List String} (plain : ∀ w ∈ words, w ∈ reservedWords ∧ w ∉ typeWords)
    (listed : wordOf text ∈ words.map String.toList) :
    wordOf text ∈ reservedWords.map String.toList ∧ wordOf text ∉ typeWords.map String.toList := by
  obtain ⟨w, member, same⟩ := List.mem_map.mp listed
  rw [← same]
  refine ⟨List.mem_map_of_mem (plain w member).1, fun typed => ?_⟩
  obtain ⟨v, member', same'⟩ := List.mem_map.mp typed
  rw [String.toList_inj] at same'
  exact (plain w member).2 (same' ▸ member')

/-- What such a rule reads is the lexeme. -/
theorem isLexeme (lexical : Lexical m m' scan) (read : scan text = some u) : Lexeme m text u := by
  cases lexical with
  | @word words unlisted plain =>
    obtain ⟨listed, ⟨⟩⟩ := Option.ite_none_right_eq_some.mp read
    obtain ⟨reserved, untyped⟩ := mem_of_plain plain listed
    obtain ⟨c, rest, rfl, opens⟩ := exists_cons (opens_of_reserved reserved)
    have isLexeme : Lexeme m (c :: rest) (typeOrWordOf (c :: rest)) := .word opens
    rwa [typeOrWordOf, if_neg untyped, List.append_nil] at isLexeme
  | name unlisted =>
    obtain ⟨⟨opens, unreserved⟩, ⟨⟩⟩ := Option.ite_none_right_eq_some.mp read
    obtain ⟨c, rest, rfl, opens⟩ := exists_cons opens
    have isLexeme : Lexeme m (c :: rest) (typeOrWordOf (c :: rest)) := .word opens
    rwa [typeOrWordOf, if_neg fun typed => unreserved (typeWords_reserved _ typed),
      List.append_nil] at isLexeme
  | type unlisted =>
    obtain ⟨_, word, rfl⟩ := Option.map_eq_some_iff.mp read
    obtain ⟨typed, ⟨⟩⟩ := Option.ite_none_right_eq_some.mp word
    obtain ⟨c, rest, rfl, opens⟩ := exists_cons (opens_of_reserved (typeWords_reserved _ typed))
    have isLexeme : Lexeme m (c :: rest) (typeOrWordOf (c :: rest)) := .word opens
    rwa [typeOrWordOf, if_pos typed] at isLexeme
  | float | integer =>
    obtain ⟨digits, ⟨⟩⟩ := Option.ite_none_left_eq_some.mp read
    obtain ⟨c, rest, rfl, digit⟩ := exists_cons (opens_of_digitsOf fun none => digits (.inl none))
    exact .numeral digit
  | number listed =>
    obtain ⟨digits, ⟨⟩⟩ := Option.ite_none_left_eq_some.mp read
    by_cases minus : text.head? = some '-'
    · obtain ⟨rest, rfl⟩ := List.head?_eq_some_iff.mp minus
      exact .signed listed digits
    · rw [signOf_eq_nil minus] at digits ⊢
      obtain ⟨c, rest, rfl, digit⟩ := exists_cons (opens_of_digitsOf digits)
      exact .numeral digit
  | quoted isQuote =>
    have closed : ∀ content : Rule, content = .stringContent ∨ content = .charContent →
        content.spacing = .sealed := by
      rintro _ (rfl | rfl) <;> rfl
    obtain ⟨read, behind, rfl, here, rfl⟩ :=
      (quoteOf_eq_some_iff (closed _ (isQuote.imp And.right And.right))).mp read
    exact .quoted isQuote here

theorem wordOf_eq_alone (isLexeme : Lexeme m text u) (opens : text.head?.any isWordStart = true) :
    wordOf text = wordOf u ∧ typeOf text = typeOf u := by
  obtain ⟨c, rest, rfl, opens⟩ := exists_cons opens
  obtain rfl : typeOrWordOf (c :: rest) = u :=
    Option.some.inj ((lexeme_word opens).symm.trans (lexeme_eq_some_iff.mpr isLexeme))
  obtain ⟨behind, whole, isWord⟩ := exists_typeOrWord (c :: rest)
  have reads := isWord.reads
  rw [← whole] at reads
  exact reads.2

theorem eq_numeralOf (isLexeme : Lexeme m text u) (digit : text.head?.any Char.isDigit = true) :
    u = numeralOf text := by
  obtain ⟨c, rest, rfl, digit⟩ := exists_cons digit
  exact Option.some.inj ((lexeme_eq_some_iff.mpr isLexeme).symm.trans (lexeme_digit digit))

theorem numberOf_minus (rest : List Char) :
    numberOf ('-' :: rest) =
      if digitsOf rest = [] then none else some ('-' :: numeralOf rest) := rfl

theorem numberOf_other (other : text.head? ≠ some '-') :
    numberOf text = if digitsOf text = [] then none else some (numeralOf text) := by
  rw [numberOf, signOf_eq_nil other]
  rfl

/-- Whether such a rule reads a lexeme is told by the lexeme alone. -/
theorem eq_alone (lexical : Lexical m m' scan) (isLexeme : Lexeme m text u) : scan text = scan u := by
  have first := isLexeme.head?
  -- A scan that asks for another first character reads neither.
  have refused {test : Char → Bool} (asks : ∀ text, scan text ≠ none → text.head?.any test = true)
      (other : ¬ text.head?.any test = true) : scan text = scan u := by
    have here : scan text = none := Classical.byContradiction fun some => other (asks text some)
    have there : scan u = none := Classical.byContradiction fun some =>
      other (first ▸ asks u some)
    rw [here, there]
  cases lexical with
  | @word words unlisted plain =>
    by_cases opens : text.head?.any isWordStart = true
    · rw [wordAmong, wordAmong, (wordOf_eq_alone isLexeme opens).1]
    · exact refused (fun text some => opens_of_reserved (mem_of_plain plain
        (Classical.byContradiction fun other => some (if_neg other))).1) opens
  | name unlisted =>
    by_cases opens : text.head?.any isWordStart = true
    · rw [nameOf, nameOf, (wordOf_eq_alone isLexeme opens).1, first]
    · exact refused (fun text some => Classical.byContradiction fun other =>
        some (if_neg fun both => other both.1)) opens
  | type unlisted =>
    by_cases opens : text.head?.any isWordStart = true
    · exact (wordOf_eq_alone isLexeme opens).2
    · refine refused (fun text some => opens_of_reserved (typeWords_reserved _
        (Classical.byContradiction fun other => some ?_))) opens
      rw [typeOf, wordAmong, if_neg other]
      rfl
  | float unlisted | integer unlisted =>
    by_cases digit : text.head?.any Char.isDigit = true
    · obtain ⟨alone, alone', alone''⟩ := numeral_alone text
      rw [eq_numeralOf isLexeme digit]
      simp only [floatOf, integerOf, alone, alone', alone'']
    · exact refused (fun text some => opens_of_digitsOf fun none => some (if_pos (.inl none))) digit
  | number listed =>
    by_cases minus : text.head? = some '-'
    · cases isLexeme with
      | @signed rest _ digits =>
        obtain ⟨alone, alone', -⟩ := numeral_alone rest
        rw [numberOf_minus, numberOf_minus, alone, alone']
      | @single c rest single other unsigned =>
        obtain rfl : c = '-' := Option.some.inj minus
        have bare : digitsOf rest = [] := Classical.byContradiction fun some =>
          unsigned ⟨listed, rfl, some⟩
        rw [numberOf_minus, numberOf_minus, bare]
        rfl
      | word opens =>
        obtain rfl := Option.some.inj minus
        exact absurd opens (by decide)
      | numeral digit =>
        obtain rfl := Option.some.inj minus
        exact absurd digit (by decide)
      | double double =>
        obtain rfl := Option.some.inj minus
        exact absurd double (by decide)
      | quoted isQuote =>
        rcases isQuote with ⟨rfl, -⟩ | ⟨rfl, -⟩
        · exact absurd (Option.some.inj minus) (by decide)
        · exact absurd (Option.some.inj minus) (by decide)
    · by_cases digit : text.head?.any Char.isDigit = true
      · obtain ⟨alone, alone', -⟩ := numeral_alone text
        have minus' : (numeralOf text).head? ≠ some '-' := by rwa [← eq_numeralOf isLexeme digit, first]
        rw [eq_numeralOf isLexeme digit, numberOf_other minus, numberOf_other minus', alone, alone']
      · have bare : digitsOf text = [] := digitsOf_eq_nil_iff.mpr (Bool.eq_false_iff.mpr digit)
        have bare' : digitsOf u = [] := digitsOf_eq_nil_iff.mpr (first ▸ Bool.eq_false_iff.mpr digit)
        rw [numberOf_other minus, numberOf_other (first ▸ minus), if_pos bare, if_pos bare']
  | @quoted quote content isQuote =>
    by_cases opens : text.head? = some quote
    · obtain ⟨rest, rfl⟩ := List.head?_eq_some_iff.mp opens
      obtain ⟨rest', rfl⟩ := List.head?_eq_some_iff.mp (first.trans opens)
      rw [← lexeme_quote (m := m) isQuote, ← lexeme_quote (m := m) isQuote,
        lexeme_eq_some_iff.mpr isLexeme, lexeme_eq_some_iff.mpr isLexeme.alone]
    · have asks (text : List Char) (some : quoteOf quote content.scan text ≠ none) :
          text.head?.any (· == quote) = true := by
        cases text with
        | nil => exact absurd rfl some
        | cons c rest =>
          rw [quoteOf, quotedOf] at some
          split at some
          · next same => simp [same]
          · exact absurd rfl some
      refine refused asks fun same => ?_
      · obtain ⟨c, rest, rfl, same⟩ := exists_cons same
        exact opens (congrArg Option.some (beq_iff_eq.mp same))

/-- The characters that open what such rules read. -/
def opensToken (c : Char) : Bool :=
  isWordStart c || c.isDigit || c == '-' || c == '"' || c == '\''

/-- What such a rule reads does not begin like a mark, but for the minus sign. -/
theorem opens (lexical : Lexical m m' scan) (read : scan text = some u) :
    text.head?.any opensToken = true := by
  have kind {test : Char → Bool} (begins : text.head?.any test = true)
      (opens : ∀ c, test c = true → opensToken c = true) : text.head?.any opensToken = true := by
    obtain ⟨c, rest, rfl, passes⟩ := exists_cons begins
    simpa using opens c passes
  have word : ∀ c, isWordStart c = true → opensToken c = true := fun c start => by
    simp [opensToken, start]
  have digit : ∀ c, Char.isDigit c = true → opensToken c = true := fun c digit => by
    simp [opensToken, digit]
  cases lexical with
  | word unlisted plain =>
    obtain ⟨listed, -⟩ := Option.ite_none_right_eq_some.mp read
    exact kind (opens_of_reserved (mem_of_plain plain listed).1) word
  | name unlisted =>
    obtain ⟨both, -⟩ := Option.ite_none_right_eq_some.mp read
    exact kind both.1 word
  | type unlisted =>
    obtain ⟨_, scanned, -⟩ := Option.map_eq_some_iff.mp read
    obtain ⟨typed, -⟩ := Option.ite_none_right_eq_some.mp scanned
    exact kind (opens_of_reserved (typeWords_reserved _ typed)) word
  | float unlisted | integer unlisted =>
    obtain ⟨some, -⟩ := Option.ite_none_left_eq_some.mp read
    exact kind (opens_of_digitsOf fun none => some (.inl none)) digit
  | number listed =>
    by_cases minus : text.head? = some '-'
    · rw [minus]
      rfl
    · rw [numberOf_other minus] at read
      obtain ⟨some, -⟩ := Option.ite_none_left_eq_some.mp read
      exact kind (opens_of_digitsOf some) digit
  | @quoted quote content isQuote =>
    have begins : text.head? = some quote := by
      obtain ⟨read, behind, rfl, -⟩ :=
        (quoteOf_eq_some_iff (by rcases isQuote with ⟨-, rfl⟩ | ⟨-, rfl⟩ <;> rfl)).mp read
      rfl
    rw [begins]
    rcases isQuote with ⟨rfl, -⟩ | ⟨rfl, -⟩ <;> rfl

/-- Such a rule leads where it should. -/
theorem next (lexical : Lexical m m' scan) (read : scan text = some u) : m.next u = m' := by
  have isLexeme := lexical.isLexeme read
  have alone : scan u = some u := (lexical.eq_alone isLexeme).symm.trans read
  -- What is no word leads on in the list or nowhere.
  have other (noName : nameOf u = none) : m.next u = if m = .listed then .listed else .fresh := by
    have bracket : opensToken '[' = false ∧ opensToken ']' = false := by decide
    obtain ⟨c, rest, rfl, opens⟩ := exists_cons (lexical.opens alone)
    rw [Mode.next, noName, if_neg (by simp), if_neg, if_neg]
    · rintro same
      rw [(List.cons.inj same).1, bracket.2] at opens
      cases opens
    · rintro same
      rw [(List.cons.inj same).1, bracket.1] at opens
      cases opens
  have reserved (reserved : wordOf u ∈ reservedWords.map String.toList) : nameOf u = none :=
    if_neg fun both => both.2 reserved
  have digits (some : digitsOf u ≠ []) : nameOf u = none := by
    obtain ⟨c, rest, rfl, digit⟩ := exists_cons (opens_of_digitsOf some)
    exact if_neg fun both => by simp [not_isWordStart_of_isDigit digit] at both
  cases lexical with
  | word unlisted plain =>
    obtain ⟨listed, -⟩ := Option.ite_none_right_eq_some.mp alone
    rw [other (reserved (mem_of_plain plain listed).1), if_neg unlisted]
  | name unlisted =>
    rw [Mode.next, alone]
    exact if_pos rfl
  | type unlisted =>
    obtain ⟨_, word, -⟩ := Option.map_eq_some_iff.mp alone
    obtain ⟨typed, -⟩ := Option.ite_none_right_eq_some.mp word
    rw [other (reserved (typeWords_reserved _ typed)), if_neg unlisted]
  | float unlisted | integer unlisted =>
    obtain ⟨some, -⟩ := Option.ite_none_left_eq_some.mp alone
    rw [other (digits fun none => some (.inl none)), if_neg unlisted]
  | number listed =>
    by_cases minus : u.head? = some '-'
    · rw [other, if_pos listed]
      exact if_neg fun both => absurd both.1 (by rw [minus]; decide)
    · rw [numberOf_other minus] at alone
      obtain ⟨some, -⟩ := Option.ite_none_left_eq_some.mp alone
      rw [other (digits some), if_pos listed]
  | @quoted quote content isQuote =>
    refine other (if_neg fun both => ?_)
    obtain ⟨read, behind, rfl, -⟩ :=
      (quoteOf_eq_some_iff (by rcases isQuote with ⟨-, rfl⟩ | ⟨-, rfl⟩ <;> rfl)).mp alone
    rcases isQuote with ⟨rfl, -⟩ | ⟨rfl, -⟩
    · exact absurd (show isWordStart '"' = true from both.1) (by decide)
    · exact absurd (show isWordStart '\'' = true from both.1) (by decide)

end Lexical

end

end CheckedScript.Grammar
