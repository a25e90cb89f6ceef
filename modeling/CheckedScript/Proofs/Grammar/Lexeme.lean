import CheckedScript.Proofs.Grammar.Scan
import CheckedScript.Proofs.Source.Gap

/-!
# Lexemes

The grammar has no tokens of its own, but every text begins with a longest word, numeral, quoted
literal or mark: its first `Lexeme`. Where it ends is told by its own characters and the one behind it,
so that it stays the same if the text is broken off by a blank (`Lexeme.breaks`). The one thing that
depends on what went before is a minus sign, which belongs to the number behind it where an array
literal lists its elements; so lexemes are told by a `Mode`.
-/

namespace CheckedScript.Grammar

/-- What the lexemes before a place tell about it. -/
inductive Mode where
  | fresh
  /-- Behind a name: a bracket opens an index here. -/
  | named
  /-- Among the elements of an array literal. -/
  | listed
deriving DecidableEq

/-! ## Marks -/

/-- The characters that an equals sign behind them turns into another mark. -/
def doubles : List Char := ['=', '!', '<', '>']

/-- The characters that are marks by themselves. -/
def singles : List Char :=
  ['=', '<', '>', '+', '-', '*', '/', '(', ')', '\x7b', '\x7d', '[', ']', ';', ',', '.']

/-- Reads the longest mark that the text begins with. -/
def markOf : Scan
  | [] => none
  | c :: rest =>
    if c ∈ doubles ∧ rest.head? = some '=' then some [c, '=']
    else if c ∈ singles then some [c]
    else none

/-- The characters make up a mark. -/
def IsMark (s : List Char) : Prop := s ∈ singles.map ([·]) ++ doubles.map ([·, '='])

instance (s : List Char) : Decidable (IsMark s) := inferInstanceAs (Decidable (_ ∈ _))

/-- An equals sign behind this mark belongs to it. -/
def IsHalf (s : List Char) : Prop := IsMark s ∧ s ∈ doubles.map ([·])

instance (s : List Char) : Decidable (IsHalf s) := inferInstanceAs (Decidable (_ ∧ _))

/-! ## The longest lexeme -/

/-- Reads a word, with a pair of brackets behind it if it names a type. -/
def typeOrWordOf (text : List Char) : List Char :=
  wordOf text ++
    if wordOf text ∈ typeWords.map String.toList then bracketsOf (text.dropWhile isWordChar) else []

/-- Reads a content and the quotes around it. -/
def quoteOf (quote : Char) (content : Scan) : Scan := fun text =>
  (quotedOf quote content text).map fun read => quote :: (read ++ [quote])

/-- Reads the longest lexeme that the text begins with. -/
def lexeme (m : Mode) : Scan
  | [] => none
  | c :: rest =>
    if isWordStart c then some (typeOrWordOf (c :: rest))
    else if c.isDigit then some (numeralOf (c :: rest))
    else if c = '"' then quoteOf '"' (Rule.scan .stringContent) (c :: rest)
    else if c = '\'' then quoteOf '\'' (Rule.scan .charContent) (c :: rest)
    else if m = .listed ∧ c = '-' ∧ digitsOf rest ≠ [] then some ('-' :: numeralOf rest)
    else markOf (c :: rest)

/-- Where a lexeme leads to. -/
def Mode.next (m : Mode) (u : List Char) : Mode :=
  if (nameOf u).isSome then .named
  else if u = ['['] then if m = .named then .fresh else .listed
  else if u = [']'] then .fresh
  else if m = .listed then .listed
  else .fresh

/-! ## What a lexeme covers -/

section

variable {c : Char} {text rest u y y' : List Char} {m : Mode} {quote : Char}

theorem not_isWordStart_of_isDigit (digit : c.isDigit = true) : isWordStart c = false := by
  refine Classical.byContradiction fun opens => ?_
  rw [Bool.not_eq_false] at opens
  change (decide ('A'.val ≤ c.val ∧ c.val ≤ 'Z'.val) ||
    (decide ('a'.val ≤ c.val) && decide (c.val ≤ 'z'.val)) || c == '_') = true at opens
  simp only [Char.isDigit, ge_iff_le, Bool.and_eq_true, Bool.or_eq_true, decide_eq_true_eq,
    beq_iff_eq, UInt32.le_iff_toNat_le] at digit opens
  rcases opens with (upper | lower) | rfl
  · exact absurd (Nat.le_trans upper.1 digit.2) (by decide)
  · exact absurd (Nat.le_trans lower.1 digit.2) (by decide)
  · exact absurd digit.2 (by decide)

theorem lexeme_word (opens : isWordStart c = true) :
    lexeme m (c :: rest) = some (typeOrWordOf (c :: rest)) := by
  rw [lexeme, if_pos opens]

theorem lexeme_digit (digit : c.isDigit = true) :
    lexeme m (c :: rest) = some (numeralOf (c :: rest)) := by
  rw [lexeme, if_neg (by simp [not_isWordStart_of_isDigit digit]), if_pos digit]

theorem lexeme_quote {content : Rule}
    (isQuote : quote = '"' ∧ content = .stringContent ∨ quote = '\'' ∧ content = .charContent) :
    lexeme m (quote :: rest) = quoteOf quote content.scan (quote :: rest) := by
  rcases isQuote with ⟨rfl, rfl⟩ | ⟨rfl, rfl⟩
  · rw [lexeme, if_neg (by decide), if_neg (by decide), if_pos rfl]
  · rw [lexeme, if_neg (by decide), if_neg (by decide), if_neg (by decide), if_pos rfl]

theorem quoteOf_eq_some_iff {content : Rule} (closed : content.spacing = .sealed) :
    quoteOf quote content.scan text = some u ↔
      ∃ read behind, text = quote :: (read ++ quote :: behind) ∧
        content.scan (read ++ quote :: behind) = some read ∧ u = quote :: (read ++ [quote]) := by
  simp only [quoteOf, Option.map_eq_some_iff,
    quotedOf_eq_some_iff (content.scans_pattern closed).within]
  constructor
  · rintro ⟨read, ⟨behind, whole, here⟩, rfl⟩
    exact ⟨read, behind, whole, here, rfl⟩
  · rintro ⟨read, behind, whole, here, rfl⟩
    exact ⟨read, ⟨behind, whole, here⟩, rfl⟩

theorem markOf_eq_some (known : markOf (c :: rest) = some u) :
    u = [c, '='] ∧ c ∈ doubles ∧ rest.head? = some '=' ∨
      u = [c] ∧ c ∈ singles ∧ ¬ (c ∈ doubles ∧ rest.head? = some '=') := by
  rw [markOf] at known
  split at known
  · next double =>
    cases known
    exact .inl ⟨rfl, double⟩
  · next other =>
    rw [Option.ite_none_right_eq_some] at known
    obtain ⟨single, ⟨⟩⟩ := known
    exact .inr ⟨rfl, single, other⟩

/-- No mark begins like a word, a numeral or a quoted literal. -/
theorem not_opens_of_mark (mark : c ∈ doubles ++ singles) :
    isWordStart c = false ∧ c.isDigit = false ∧ c ≠ '"' ∧ c ≠ '\'' := by
  have marks : (doubles ++ singles).all (fun c =>
      decide (isWordStart c = false ∧ c.isDigit = false ∧ c ≠ '"' ∧ c ≠ '\'')) = true := by decide
  exact of_decide_eq_true (List.all_eq_true.mp marks c mark)

/-- The kinds of lexemes, told apart by their first characters. -/
inductive Lexeme (m : Mode) : (text u : List Char) → Prop
  | word {c : Char} {rest : List Char} :
      isWordStart c = true → Lexeme m (c :: rest) (typeOrWordOf (c :: rest))
  | numeral {c : Char} {rest : List Char} :
      c.isDigit = true → Lexeme m (c :: rest) (numeralOf (c :: rest))
  | quoted {quote : Char} {content : Rule} {read behind : List Char} :
      quote = '"' ∧ content = .stringContent ∨ quote = '\'' ∧ content = .charContent →
      content.scan (read ++ quote :: behind) = some read →
      Lexeme m (quote :: (read ++ quote :: behind)) (quote :: (read ++ [quote]))
  | signed {rest : List Char} :
      m = .listed → digitsOf rest ≠ [] → Lexeme m ('-' :: rest) ('-' :: numeralOf rest)
  | double {c : Char} {rest : List Char} :
      c ∈ doubles → Lexeme m (c :: '=' :: rest) [c, '=']
  | single {c : Char} {rest : List Char} :
      c ∈ singles → ¬ (c ∈ doubles ∧ rest.head? = some '=') →
      ¬ (m = .listed ∧ c = '-' ∧ digitsOf rest ≠ []) → Lexeme m (c :: rest) [c]

theorem lexeme_eq_some_iff : lexeme m text = some u ↔ Lexeme m text u := by
  constructor
  · intro known
    cases text with
    | nil => cases known
    | cons c rest =>
      rw [lexeme] at known
      split at known
      · next opens =>
        cases known
        exact .word opens
      split at known
      · next digit =>
        cases known
        exact .numeral digit
      split at known
      · next quote =>
        subst quote
        obtain ⟨read, behind, whole, here, rfl⟩ := (quoteOf_eq_some_iff rfl).mp known
        rw [whole]
        exact .quoted (.inl ⟨rfl, rfl⟩) here
      split at known
      · next quote =>
        subst quote
        obtain ⟨read, behind, whole, here, rfl⟩ := (quoteOf_eq_some_iff rfl).mp known
        rw [whole]
        exact .quoted (.inr ⟨rfl, rfl⟩) here
      split at known
      · next signed =>
        cases known
        obtain ⟨listed, rfl, digits⟩ := signed
        exact .signed listed digits
      · next unsigned =>
        rcases markOf_eq_some known with ⟨rfl, double, behind⟩ | ⟨rfl, single, other⟩
        · obtain ⟨more, rfl⟩ := List.head?_eq_some_iff.mp behind
          exact .double double
        · exact .single single other unsigned
  · intro isLexeme
    cases isLexeme with
    | word opens => exact lexeme_word opens
    | numeral digit => exact lexeme_digit digit
    | quoted quote here =>
      rcases quote with ⟨rfl, rfl⟩ | ⟨rfl, rfl⟩
      · exact (quoteOf_eq_some_iff rfl).mpr ⟨_, _, rfl, here, rfl⟩
      · exact (quoteOf_eq_some_iff rfl).mpr ⟨_, _, rfl, here, rfl⟩
    | @signed rest listed digits => exact if_pos ⟨listed, rfl, digits⟩
    | @double c rest double =>
      obtain ⟨noWord, noDigit, noQuote, noQuote'⟩ := not_opens_of_mark (List.mem_append_left _ double)
      have minus : c ≠ '-' := by
        rintro rfl
        revert double
        decide
      rw [lexeme, if_neg (by simp [noWord]), if_neg (by simp [noDigit]), if_neg noQuote,
        if_neg noQuote', if_neg (fun all => minus all.2.1), markOf, if_pos ⟨double, rfl⟩]
    | @single c rest single other unsigned =>
      obtain ⟨noWord, noDigit, noQuote, noQuote'⟩ := not_opens_of_mark (List.mem_append_right _ single)
      rw [lexeme, if_neg (by simp [noWord]), if_neg (by simp [noDigit]), if_neg noQuote,
        if_neg noQuote', if_neg unsigned, markOf, if_neg other, if_pos single]

theorem wordOf_all (text : List Char) : (wordOf text).all isWordChar = true := List.all_takeWhile

theorem wordOf_ne_nil (opens : isWordStart c = true) : wordOf (c :: rest) ≠ [] := by
  rw [wordOf, List.takeWhile_cons_of_pos (isWordChar_of_isWordStart opens)]
  exact List.cons_ne_nil _ _

theorem digitsOf_ne_nil (digit : c.isDigit = true) : digitsOf (c :: rest) ≠ [] := by
  rw [digitsOf, List.takeWhile_cons_of_pos digit]
  exact List.cons_ne_nil _ _

theorem prefix_placesOf (text : List Char) : placesOf text <+: text := by
  unfold placesOf
  split
  · split
    · exact List.nil_prefix
    · exact List.cons_prefix_cons.mpr ⟨rfl, List.takeWhile_prefix _⟩
  · exact List.nil_prefix

theorem prefix_numeralOf (text : List Char) : numeralOf text <+: text := by
  have whole : digitsOf text ++ text.dropWhile Char.isDigit = text := List.takeWhile_append_dropWhile
  conv => rhs; rw [← whole]
  exact List.prefix_append_right_inj _ |>.mpr (prefix_placesOf _)

theorem prefix_typeOrWordOf (text : List Char) : typeOrWordOf text <+: text := by
  have whole : wordOf text ++ text.dropWhile isWordChar = text := List.takeWhile_append_dropWhile
  conv => rhs; rw [← whole]
  refine List.prefix_append_right_inj _ |>.mpr ?_
  split
  · rw [bracketsOf]
    split
    · assumption
    · exact List.nil_prefix
  · exact List.nil_prefix

/-- A lexeme is a beginning of the text, and not an empty one. -/
theorem Lexeme.within (isLexeme : Lexeme m text u) : u <+: text ∧ u ≠ [] := by
  cases isLexeme with
  | word opens =>
    exact ⟨prefix_typeOrWordOf _, fun none => wordOf_ne_nil opens (List.append_eq_nil_iff.mp none).1⟩
  | numeral digit =>
    exact ⟨prefix_numeralOf _, fun none => digitsOf_ne_nil digit (List.append_eq_nil_iff.mp none).1⟩
  | @quoted quote content read behind => exact ⟨⟨behind, by simp⟩, List.cons_ne_nil _ _⟩
  | @signed rest =>
    exact ⟨List.cons_prefix_cons.mpr ⟨rfl, prefix_numeralOf rest⟩, List.cons_ne_nil _ _⟩
  | @double c rest => exact ⟨⟨rest, rfl⟩, List.cons_ne_nil _ _⟩
  | @single c rest => exact ⟨⟨rest, rfl⟩, List.cons_ne_nil _ _⟩

theorem Lexeme.head? (isLexeme : Lexeme m text u) : u.head? = text.head? := by
  obtain ⟨⟨rest, rfl⟩, some⟩ := isLexeme.within
  cases u with
  | nil => exact absurd rfl some
  | cons c u => rfl

/-! ## Lexemes end where blanks begin -/

/-- The texts are the same up to where the second one ends or goes on with a blank. -/
def Breaks (y y' : List Char) : Prop :=
  ∃ front back back', y = front ++ back ∧ y' = front ++ back' ∧ back'.head?.all Cursor.isBlank = true

theorem Breaks.uncons (breaks : Breaks y (c :: rest)) (solid : Cursor.isBlank c = false) :
    ∃ more, y = c :: more ∧ Breaks more rest := by
  obtain ⟨_ | ⟨d, front⟩, back, back', rfl, same, blank⟩ := breaks
  · rw [List.nil_append] at same
    rw [← same] at blank
    simp [solid] at blank
  · obtain ⟨rfl, rfl⟩ := List.cons.inj same
    exact ⟨front ++ back, rfl, front, back, back', rfl, rfl, blank⟩

/-- What does not go on with such a character does not do so where it is broken off. -/
theorem Breaks.ended {test : Char → Bool} (breaks : Breaks y y')
    (solid : ∀ c, test c = true → Cursor.isBlank c = false) (ended : y.head?.all (!test ·) = true) :
    y'.head?.all (!test ·) = true := by
  cases y' with
  | nil => rfl
  | cons c rest =>
    rw [List.head?_cons, Option.all_some, Bool.not_eq_true']
    refine Bool.eq_false_iff.mpr fun passes => ?_
    obtain ⟨more, rfl, -⟩ := breaks.uncons (solid c passes)
    simp [passes] at ended

theorem not_isBlank_of_isWordChar (passes : isWordChar c = true) : Cursor.isBlank c = false := by
  refine Bool.eq_false_iff.mpr fun blank => ?_
  simp only [Cursor.isBlank, Bool.or_eq_true, decide_eq_true_iff] at blank
  rcases blank with ((rfl | rfl) | rfl) | rfl <;> revert passes <;> decide

theorem ne_of_isWordChar {d : Char} (passes : isWordChar c = true) (special : isWordChar d = false) :
    c ≠ d := by
  rintro rfl
  rw [passes] at special
  cases special

theorem isWordChar_of_isDigit (digit : c.isDigit = true) : isWordChar c = true := by
  simp [isWordChar, Char.isAlphanum, digit]

theorem not_isBlank_of_isDigit (digit : c.isDigit = true) : Cursor.isBlank c = false :=
  not_isBlank_of_isWordChar (isWordChar_of_isDigit digit)

theorem Breaks.bracketsOf (breaks : Breaks y y') (none : bracketsOf y = []) :
    bracketsOf y' = [] := by
  rw [Grammar.bracketsOf, ite_eq_right_iff] at none ⊢
  rintro ⟨rest, rfl⟩
  obtain ⟨_, rfl, breaks'⟩ := breaks.uncons (by decide)
  obtain ⟨more, rfl, -⟩ := breaks'.uncons (by decide)
  exact absurd (none ⟨more, rfl⟩) (List.cons_ne_nil _ _)

theorem Breaks.digitsOf (breaks : Breaks y y') (none : digitsOf y = []) : digitsOf y' = [] := by
  rw [digitsOf_eq_nil_iff] at none ⊢
  cases y' with
  | nil => rfl
  | cons c rest =>
    refine Bool.eq_false_iff.mpr fun digit => ?_
    obtain ⟨more, rfl, -⟩ := breaks.uncons (not_isBlank_of_isDigit digit)
    exact absurd (show c.isDigit = true from digit) (Bool.eq_false_iff.mp none)

theorem Breaks.placesOf (breaks : Breaks y y') (none : placesOf y = []) : placesOf y' = [] := by
  unfold Grammar.placesOf
  split
  · next rest =>
    obtain ⟨more, rfl, breaks'⟩ := breaks.uncons (by decide)
    rw [Grammar.placesOf, ite_eq_left_iff] at none
    have bare : Grammar.digitsOf more = [] := Classical.byContradiction fun some =>
      List.cons_ne_nil _ _ (none some)
    rw [if_pos (breaks'.digitsOf bare)]
  · rfl

/-- A numeral is its digits, or they, a point and further digits. -/
inductive Numeral : (u behind : List Char) → Prop
  | whole {digits behind : List Char} :
      digits.all Char.isDigit = true → behind.head?.all (!Char.isDigit ·) = true →
      placesOf behind = [] → Numeral digits behind
  | point {digits places behind : List Char} :
      digits.all Char.isDigit = true → places.all Char.isDigit = true → places ≠ [] →
      behind.head?.all (!Char.isDigit ·) = true → Numeral (digits ++ '.' :: places) behind

theorem Numeral.forall_mem {P : Char → Prop} (numeral : Numeral u y)
    (digit : ∀ c, c.isDigit = true → P c) (point : P '.') : ∀ c ∈ u, P c := by
  have each {digits : List Char} (all : digits.all Char.isDigit = true) : ∀ c ∈ digits, P c :=
    fun c member => digit c (List.all_eq_true.mp all c member)
  cases numeral with
  | whole all => exact each all
  | point all all' =>
    exact List.forall_mem_append.mpr ⟨each all, List.forall_mem_cons.mpr ⟨point, each all'⟩⟩

theorem exists_numeral (text : List Char) :
    ∃ behind, text = numeralOf text ++ behind ∧ Numeral (numeralOf text) behind := by
  have split : text = digitsOf text ++ text.dropWhile Char.isDigit :=
    List.takeWhile_append_dropWhile.symm
  have digits : (digitsOf text).all Char.isDigit = true := List.all_takeWhile
  have ended := head?_dropWhile Char.isDigit text
  rw [numeralOf]
  generalize text.dropWhile Char.isDigit = rest at split ended
  by_cases bare : placesOf rest = []
  · rw [bare, List.append_nil]
    exact ⟨rest, split, .whole digits ended bare⟩
  · obtain ⟨more, rfl⟩ : ∃ more, rest = '.' :: more := by
      unfold placesOf at bare
      split at bare
      · exact ⟨_, rfl⟩
      · exact absurd rfl bare
    have places : placesOf ('.' :: more) = '.' :: digitsOf more := by
      rw [placesOf] at bare ⊢
      exact if_neg fun none => bare (if_pos none)
    rw [places] at bare ⊢
    refine ⟨more.dropWhile Char.isDigit, ?_, .point digits List.all_takeWhile ?_
      (head?_dropWhile Char.isDigit more)⟩
    · have further : digitsOf more ++ more.dropWhile Char.isDigit = more :=
        List.takeWhile_append_dropWhile
      rw [List.append_assoc, List.cons_append, further]
      exact split
    · rintro none
      rw [placesOf, if_pos none] at places
      cases places

/-- What is read of a numeral does not depend on what stands behind it. -/
theorem Numeral.reads (numeral : Numeral u y) :
    numeralOf (u ++ y) = u ∧ digitsOf (u ++ y) = digitsOf u ∧
      placesOf ((u ++ y).dropWhile Char.isDigit) = placesOf (u.dropWhile Char.isDigit) := by
  cases numeral with
  | whole digits ended bare =>
    have first : digitsOf (u ++ y) = u := takeWhile_append_ended digits ended
    have alone : digitsOf u = u := by
      have whole : digitsOf (u ++ []) = u := takeWhile_append_ended digits rfl
      rwa [List.append_nil] at whole
    have none : u.dropWhile Char.isDigit = [] := by
      have whole : (u ++ []).dropWhile Char.isDigit = [] := dropWhile_append_ended digits rfl
      rwa [List.append_nil] at whole
    rw [numeralOf, first, alone, dropWhile_append_ended digits ended, bare, none]
    exact ⟨List.append_nil u, rfl, rfl⟩
  | @point digits places _ isDigits isPlaces some ended =>
    have reads (behind : List Char) (ended : behind.head?.all (!Char.isDigit ·) = true) :
        digitsOf (digits ++ '.' :: (places ++ behind)) = digits ∧
          placesOf ((digits ++ '.' :: (places ++ behind)).dropWhile Char.isDigit) = '.' :: places := by
      have further : digitsOf (places ++ behind) = places := takeWhile_append_ended isPlaces ended
      refine ⟨takeWhile_append_ended isDigits rfl, ?_⟩
      rw [dropWhile_append_ended isDigits rfl, placesOf, further, if_neg some]
    have here := reads y ended
    have alone := reads [] rfl
    rw [List.append_nil] at alone
    rw [List.append_assoc, List.cons_append, numeralOf, here.1, here.2, alone.1, alone.2]
    exact ⟨rfl, rfl, rfl⟩

/-- A numeral by itself is read as in its text. -/
theorem numeral_alone (text : List Char) :
    numeralOf (numeralOf text) = numeralOf text ∧ digitsOf (numeralOf text) = digitsOf text ∧
      placesOf ((numeralOf text).dropWhile Char.isDigit) = placesOf (text.dropWhile Char.isDigit) := by
  obtain ⟨behind, whole, numeral⟩ := exists_numeral text
  obtain ⟨-, digits, places⟩ := numeral.reads
  rw [← whole] at digits places
  refine ⟨?_, digits.symm, places.symm⟩
  conv => lhs; rw [numeralOf, ← digits, ← places]
  rfl

theorem Numeral.breaks (numeral : Numeral u y) (breaks : Breaks y y') : Numeral u y' := by
  cases numeral with
  | whole digits ended bare =>
    exact .whole digits (breaks.ended (fun _ => not_isBlank_of_isDigit) ended) (breaks.placesOf bare)
  | point digits places some ended =>
    exact .point digits places some (breaks.ended (fun _ => not_isBlank_of_isDigit) ended)

theorem not_escape_of_isPlain (plain : isPlain quote c = true) : c ≠ '\\' := by
  rintro rfl
  simp [isPlain] at plain

/-- Plain characters and escapes, as they stand between such quotes. -/
inductive Units (quote : Char) : List Char → Prop
  | nil : Units quote []
  | escape {c : Char} {rest : List Char} : Units quote rest → Units quote ('\\' :: c :: rest)
  | plain {c : Char} {rest : List Char} :
      isPlain quote c = true → Units quote rest → Units quote (c :: rest)

theorem units_of_unitsOf {read : List Char} (here : unitsOf quote (read ++ quote :: y) = read) :
    Units quote read := by
  induction read using unitsOf.induct quote with
  | case1 c rest ih =>
    rw [List.cons_append, List.cons_append, unitsOf] at here
    exact .escape (ih (List.cons.inj (List.cons.inj here).2).2)
  | case2 c rest other plain ih =>
    have solid := not_escape_of_isPlain plain
    rw [List.cons_append, unitsOf.eq_2 _ _ _ (fun _ _ same _ => solid same), if_pos plain] at here
    exact .plain plain (ih (List.cons.inj here).2)
  | case3 c rest other special =>
    -- Such a character is not read, or it is a backslash that takes the quote along.
    rw [List.cons_append] at here
    by_cases escape : c = '\\'
    · subst escape
      cases rest with
      | nil => cases here
      | cons d rest => exact absurd rfl (other d rest rfl)
    · rw [unitsOf.eq_2 _ _ _ (fun _ _ same _ => escape same), if_neg special] at here
      cases here
  | case4 => exact .nil

theorem Units.unitsOf_append {read : List Char} (units : Units quote read) (other : quote ≠ '\\')
    (y : List Char) : unitsOf quote (read ++ quote :: y) = read := by
  induction units with
  | nil =>
    rw [List.nil_append, unitsOf.eq_2 _ _ _ (fun _ _ same _ => other same), if_neg (by simp [isPlain])]
  | escape _ ih => rw [List.cons_append, List.cons_append, unitsOf, ih]
  | @plain c rest plain _ ih =>
    have solid := not_escape_of_isPlain plain
    rw [List.cons_append, unitsOf.eq_2 _ _ _ (fun _ _ same _ => solid same), if_pos plain, ih]

/-- A content is made of plain characters and escapes. -/
theorem units_of_scan {content : Rule} {read : List Char}
    (quoted : quote = '"' ∧ content = .stringContent ∨ quote = '\'' ∧ content = .charContent)
    (here : content.scan (read ++ quote :: y) = some read) : Units quote read := by
  rcases quoted with ⟨rfl, rfl⟩ | ⟨rfl, rfl⟩
  · exact units_of_unitsOf (Option.some.inj here)
  · refine units_of_unitsOf (y := y) ?_
    rw [unitsOf_eq, show unitOf '\'' _ = some read from here]
    dsimp only
    rw [List.drop_left]
    exact List.append_nil read

/-- A content ends at its quote, whatever stands behind. -/
theorem scan_content {content : Rule} {read : List Char}
    (quoted : quote = '"' ∧ content = .stringContent ∨ quote = '\'' ∧ content = .charContent)
    (here : content.scan (read ++ quote :: y) = some read) :
    content.scan (read ++ quote :: y') = some read := by
  have units := units_of_scan quoted here
  rcases quoted with ⟨rfl, rfl⟩ | ⟨rfl, rfl⟩
  · exact congrArg some (units.unitsOf_append (by decide) y')
  · rw [Rule.scan] at here ⊢
    rcases read with _ | ⟨c, _ | ⟨d, rest⟩⟩
    · cases here
    · by_cases escape : c = '\\'
      · subst escape
        cases here
      · rw [List.cons_append, unitOf_cons escape] at here ⊢
        exact here
    · by_cases escape : c = '\\'
      · subst escape
        cases here
        rfl
      · rw [List.cons_append, unitOf_cons escape, Option.ite_none_right_eq_some] at here
        cases here.2

/-- A word is its word characters, or the name of a type with brackets behind it. -/
inductive TypeOrWord : (u behind : List Char) → Prop
  | word {word behind : List Char} :
      word.all isWordChar = true → behind.head?.all (!isWordChar ·) = true →
      (word ∈ typeWords.map String.toList → bracketsOf behind = []) → TypeOrWord word behind
  | array {word behind : List Char} :
      word ∈ typeWords.map String.toList → TypeOrWord (word ++ ['[', ']']) behind

theorem isWordChar_of_typeWord : ∀ w ∈ typeWords.map String.toList, w.all isWordChar = true := by decide

theorem TypeOrWord.forall_mem {P : Char → Prop} (isWord : TypeOrWord u y)
    (word : ∀ c, isWordChar c = true → P c) (brackets : P '[' ∧ P ']') : ∀ c ∈ u, P c := by
  have each {w : List Char} (all : w.all isWordChar = true) : ∀ c ∈ w, P c :=
    fun c member => word c (List.all_eq_true.mp all c member)
  cases isWord with
  | word all => exact each all
  | array named =>
    refine List.forall_mem_append.mpr ⟨each (isWordChar_of_typeWord _ named), ?_⟩
    exact List.forall_mem_cons.mpr ⟨brackets.1, List.forall_mem_singleton.mpr brackets.2⟩

theorem exists_typeOrWord (text : List Char) :
    ∃ behind, text = typeOrWordOf text ++ behind ∧ TypeOrWord (typeOrWordOf text) behind := by
  have split : text = wordOf text ++ text.dropWhile isWordChar := List.takeWhile_append_dropWhile.symm
  have ended := head?_dropWhile isWordChar text
  rw [typeOrWordOf]
  generalize text.dropWhile isWordChar = rest at split ended
  by_cases brackets : wordOf text ∈ typeWords.map String.toList ∧ ['[', ']'] <+: rest
  · obtain ⟨named, behind, rfl⟩ := brackets
    rw [if_pos named, bracketsOf, if_pos (List.prefix_append ..)]
    exact ⟨behind, by rw [List.append_assoc]; exact split, .array named⟩
  · refine ⟨rest, ?_⟩
    have none : (if wordOf text ∈ typeWords.map String.toList then bracketsOf rest else []) = [] := by
      rw [ite_eq_right_iff, bracketsOf]
      exact fun named => if_neg fun opens => brackets ⟨named, opens⟩
    rw [none, List.append_nil]
    exact ⟨split, .word (wordOf_all text) ended fun named =>
      if_neg fun opens => brackets ⟨named, opens⟩⟩

/-- What is read of a word does not depend on what stands behind it. -/
theorem TypeOrWord.reads (isWord : TypeOrWord u y) :
    typeOrWordOf (u ++ y) = u ∧ wordOf (u ++ y) = wordOf u ∧ typeOf (u ++ y) = typeOf u := by
  cases isWord with
  | word all ended bare =>
    have first : wordOf (u ++ y) = u := takeWhile_append_ended all ended
    have behind : (u ++ y).dropWhile isWordChar = y := dropWhile_append_ended all ended
    have alone : wordOf u = u := by
      have whole : wordOf (u ++ []) = u := takeWhile_append_ended all rfl
      rwa [List.append_nil] at whole
    have none : u.dropWhile isWordChar = [] := by
      have whole : (u ++ []).dropWhile isWordChar = [] := dropWhile_append_ended all rfl
      rwa [List.append_nil] at whole
    rw [typeOrWordOf, typeOf, typeOf, wordAmong, wordAmong, first, behind, alone, none]
    refine ⟨?_, rfl, ?_⟩
    · rw [ite_eq_right_iff.mpr bare, List.append_nil]
    · by_cases named : u ∈ typeWords.map String.toList
      · rw [bare named]
        rfl
      · rw [if_neg named]
        rfl
  | @array word _ named =>
    have all : word.all isWordChar = true := isWordChar_of_typeWord word named
    have reads (behind : List Char) : wordOf (word ++ '[' :: ']' :: behind) = word ∧
        (word ++ '[' :: ']' :: behind).dropWhile isWordChar = '[' :: ']' :: behind ∧
          bracketsOf ('[' :: ']' :: behind) = ['[', ']'] :=
      ⟨takeWhile_append_ended all rfl, dropWhile_append_ended all rfl, if_pos ⟨behind, rfl⟩⟩
    have here := reads y
    have alone := reads []
    rw [List.append_assoc, List.cons_append, List.cons_append, List.nil_append, typeOrWordOf, typeOf,
      typeOf, wordAmong, wordAmong, here.1, here.2.1, here.2.2, alone.1, alone.2.1, alone.2.2,
      if_pos named]
    exact ⟨rfl, rfl, rfl⟩

theorem TypeOrWord.breaks (isWord : TypeOrWord u y) (breaks : Breaks y y') : TypeOrWord u y' := by
  cases isWord with
  | word all ended bare =>
    exact .word all (breaks.ended (fun _ => not_isBlank_of_isWordChar) ended)
      fun named => breaks.bracketsOf (bare named)
  | array named => exact .array named

theorem Lexeme.of_word (opens : u.head?.any isWordStart = true) (isWord : TypeOrWord u y) :
    Lexeme m (u ++ y) u := by
  cases u with
  | nil => cases opens
  | cons c u =>
    have reads := isWord.reads.1
    have isLexeme : Lexeme m (c :: (u ++ y)) (typeOrWordOf (c :: (u ++ y))) :=
      .word (by simpa using opens)
    rwa [← List.cons_append, reads] at isLexeme

theorem Lexeme.of_numeral (digit : u.head?.any Char.isDigit = true) (numeral : Numeral u y) :
    Lexeme m (u ++ y) u := by
  cases u with
  | nil => cases digit
  | cons c u =>
    have reads := numeral.reads.1
    have isLexeme : Lexeme m (c :: (u ++ y)) (numeralOf (c :: (u ++ y))) :=
      .numeral (by simpa using digit)
    rwa [← List.cons_append, reads] at isLexeme

/-- A lexeme that is broken off behind its end stays one. -/
theorem Lexeme.breaks (isLexeme : Lexeme m (u ++ y) u) (breaks : Breaks y y') :
    Lexeme m (u ++ y') u := by
  have first := isLexeme.head?
  generalize known : u ++ y = text at isLexeme first
  cases isLexeme with
  | @word c rest opens =>
    obtain ⟨behind, whole, isWord⟩ := exists_typeOrWord (c :: rest)
    obtain rfl := List.append_cancel_left (known.trans whole)
    exact .of_word (by rw [first]; simpa using opens) (isWord.breaks breaks)
  | @numeral c rest digit =>
    obtain ⟨behind, whole, numeral⟩ := exists_numeral (c :: rest)
    obtain rfl := List.append_cancel_left (known.trans whole)
    exact .of_numeral (by rw [first]; simpa using digit) (numeral.breaks breaks)
  | @quoted quote content read behind isQuote here =>
    have whole : Lexeme m (quote :: (read ++ quote :: y')) (quote :: (read ++ [quote])) :=
      .quoted isQuote (scan_content isQuote here)
    simpa using whole
  | @signed rest listed digits =>
    obtain ⟨behind, whole, numeral⟩ := exists_numeral rest
    obtain rfl : y = behind := List.append_cancel_left ((List.cons.inj known).2.trans whole)
    have reads := (numeral.breaks breaks).reads
    have same := numeral.reads
    rw [← whole] at same
    have isLexeme : Lexeme m ('-' :: (numeralOf rest ++ y')) _ :=
      .signed listed (by rw [reads.2.1, ← same.2.1]; exact digits)
    rwa [reads.1] at isLexeme
  | double double => exact .double double
  | @single c rest single other unsigned =>
    obtain rfl : y = rest := (List.cons.inj known).2
    refine .single single (fun both => other ⟨both.1, ?_⟩) fun signed => unsigned
      ⟨signed.1, signed.2.1, fun none => signed.2.2 (breaks.digitsOf none)⟩
    obtain ⟨more, rfl⟩ := List.head?_eq_some_iff.mp both.2
    obtain ⟨more, rfl, -⟩ := breaks.uncons (by decide)
    rfl

/-- A lexeme by itself is one. -/
theorem Lexeme.alone (isLexeme : Lexeme m text u) : Lexeme m u u := by
  obtain ⟨y, rfl⟩ := isLexeme.within.1
  have breaks : Breaks y [] := ⟨[], y, [], rfl, rfl, rfl⟩
  have whole := isLexeme.breaks breaks
  rwa [List.append_nil] at whole

/-! ## Marks in a text -/

/-- Where a mark stands it is the lexeme, or the first half of it. -/
theorem lexeme_of_prefix {s : List Char} (within : s <+: text) (mark : IsMark s)
    (unsigned : m = .listed → s ≠ ['-']) :
    Lexeme m text s ∨ IsHalf s ∧ Lexeme m text (s ++ ['=']) := by
  obtain ⟨behind, rfl⟩ := within
  rcases List.mem_append.mp mark with single | double
  · obtain ⟨c, member, rfl⟩ := List.mem_map.mp single
    by_cases half : c ∈ doubles ∧ behind.head? = some '='
    · obtain ⟨isDouble, behind⟩ := half
      obtain ⟨rest, rfl⟩ := List.head?_eq_some_iff.mp behind
      exact .inr ⟨⟨mark, List.mem_map_of_mem isDouble⟩, .double isDouble⟩
    · refine .inl (.single member half fun signed => unsigned signed.1 ?_)
      rw [signed.2.1]
  · obtain ⟨c, member, rfl⟩ := List.mem_map.mp double
    exact .inl (.double member)

theorem Lexeme.unique {v : List Char} (one : Lexeme m text u) (other : Lexeme m text v) : u = v :=
  Option.some.inj ((lexeme_eq_some_iff.mpr one).symm.trans (lexeme_eq_some_iff.mpr other))

/-- A mark stands at the beginning of a text exactly if it does so in the lexeme there. -/
theorem Lexeme.prefix_iff {s : List Char} (isLexeme : Lexeme m text u) (mark : IsMark s)
    (unsigned : m = .listed → s ≠ ['-']) : s <+: text ↔ s <+: u := by
  constructor
  · intro within
    rcases lexeme_of_prefix within mark unsigned with whole | ⟨-, half⟩
    · obtain rfl := isLexeme.unique whole
      exact List.prefix_rfl
    · obtain rfl := isLexeme.unique half
      exact List.prefix_append ..
  · exact fun within => within.trans isLexeme.within.1

end

end CheckedScript.Grammar
