import CheckedScript.Proofs.Grammar.Shape

/-!
# What words, numbers and quotes read

Inside a sealed rule no blanks may stand and nothing is kept, so all that counts is how much of the
text it takes. `Rule.scan` says this of every sealed rule in terms of the longest word and the longest
numeral that the text begins with (`derives_sealed`); a quoted literal is a sealed content between two
quotes (`derives_quoted`).
-/

namespace CheckedScript.Grammar

/-- What is read of a text from its beginning on, if anything. -/
abbrev Scan := List Char → Option (List Char)

namespace Scan

def text (characters : List Char) : Scan := fun text =>
  if characters <+: text then some characters else none

def character (test : Char → Bool) : Scan := fun text => (text.head?.filter test).map ([·])

@[simp] theorem character_nil (test : Char → Bool) : character test [] = none := rfl

@[simp] theorem character_cons (test : Char → Bool) (c : Char) (rest : List Char) :
    character test (c :: rest) = if test c then some [c] else none := by
  by_cases passes : test c = true <;> simp [character, Option.filter, passes]

@[simp] theorem text_singleton_nil (c : Char) : text [c] [] = none := rfl

@[simp] theorem text_singleton_cons (c d : Char) (rest : List Char) :
    text [c] (d :: rest) = if c = d then some [c] else none := by
  by_cases same : c = d <;> simp [text, List.cons_prefix_cons, same]

/-- Reads what `part` finds at the beginning of the text, which must not be empty. -/
def nonempty (part : List Char → List Char) : Scan := fun text =>
  if part text = [] then none else some (part text)

/-- Reads on with `second` behind what `first` reads. -/
def andThen (first second : Scan) : Scan := fun text =>
  (first text).bind fun read => (second (text.drop read.length)).map (read ++ ·)

theorem andThen_assoc (f g h : Scan) : (f.andThen g).andThen h = f.andThen (g.andThen h) := by
  funext text
  simp only [andThen]
  cases f text with
  | none => rfl
  | some front =>
    simp only [Option.bind_some]
    cases g (text.drop front.length) with
    | none => rfl
    | some middle =>
      simp only [Option.map_some, Option.bind_some, Option.map_map, List.length_append,
        List.drop_drop]
      congr 1
      funext back
      exact List.append_assoc ..

def orElse (first second : Scan) : Scan := fun text => (first text).or (second text)

def optional (item : Scan) : Scan := fun text => some ((item text).getD [])

def absent (item : Scan) : Scan := fun text => if (item text).isSome then none else some []

end Scan

/-- Where no blanks may stand and nothing is kept, the pattern reads what `scan` says. -/
structure Pattern.Scans (p : Pattern) (scan : Scan) : Prop where
  derives : ∀ c : Cursor,
    Derives .sealed (.one p) c ((scan c.rest).map fun read => ⟨[], [], c.skip read⟩)
  within : ∀ text, ∀ read ∈ scan text, read <+: text

namespace Pattern

variable {first second item : Pattern} {f g : Scan} {p : Pattern}

theorem Scans.congr (scans : p.Scans f) (same : ∀ text, f text = g text) : p.Scans g := by
  rwa [← funext same]

theorem scans_text (characters : List Char) :
    (text characters).Scans (Scan.text characters) := by
  constructor
  · intro c
    refine derives_text_iff.mpr ?_
    rw [Cursor.takeText_eq, Scan.text]
    split <;> rfl
  · intro text read found
    rw [Scan.text, Option.mem_def, Option.ite_none_right_eq_some] at found
    obtain ⟨within, ⟨⟩⟩ := found
    exact within

theorem scans_satisfying (test : Char → Bool) :
    (satisfying test).Scans (Scan.character test) := by
  constructor
  · intro c
    refine derives_satisfying_iff.mpr ?_
    rw [Cursor.takeIf_eq, Scan.character, Option.map_map, Option.map_map]
    rfl
  · intro text read found
    obtain ⟨c, first, rfl⟩ := Option.map_eq_some_iff.mp found
    obtain ⟨rest, rfl⟩ := List.head?_eq_some_iff.mp (Option.eq_some_of_filter_eq_some first)
    exact ⟨rest, rfl⟩

theorem Scans.seq (before : first.Scans f) (after : second.Scans g) :
    (first ++ second).Scans (f.andThen g) := by
  constructor
  · intro c
    have here := before.derives c
    rw [Scan.andThen]
    cases known : f c.rest with
    | none =>
      rw [known] at here
      exact .seqRefused here
    | some read =>
      rw [known] at here
      have there : Derives .sealed (.one (first ++ second)) c _ :=
        .seq here (after.derives (c.skip read))
      rw [Cursor.rest_skip, Option.map_map] at there
      rw [Option.bind_some, Option.map_map]
      simpa only [Function.comp_def, Reading.followedBy, List.append_nil, Cursor.skip_append] using there
  · intro text read found
    obtain ⟨front, here, found⟩ := Option.bind_eq_some_iff.mp found
    obtain ⟨back, there, rfl⟩ := Option.map_eq_some_iff.mp found
    obtain ⟨rest, rfl⟩ := before.within text front here
    rw [List.drop_left] at there
    exact List.prefix_append_right_inj front |>.mpr (after.within rest back there)

theorem Scans.alt (before : first.Scans f) (after : second.Scans g) :
    (first.alt second).Scans (f.orElse g) := by
  constructor
  · intro c
    have here := before.derives c
    rw [Scan.orElse]
    cases known : f c.rest with
    | none =>
      rw [known] at here
      exact .second here (after.derives c)
    | some read =>
      rw [known] at here
      exact .first here
  · intro text read found
    rcases Option.or_eq_some_iff.mp found with here | ⟨-, there⟩
    · exact before.within text read here
    · exact after.within text read there

theorem Scans.optional (scans : item.Scans f) : (optional item).Scans f.optional := by
  constructor
  · intro c
    have here := scans.derives c
    rw [Scan.optional]
    cases known : f c.rest with
    | none =>
      rw [known] at here
      exact .optionalNone here
    | some read =>
      rw [known] at here
      exact .optional here
  · rintro text _ ⟨⟩
    cases known : f text with
    | none => exact List.nil_prefix
    | some read => exact scans.within text read known

theorem Scans.absent (scans : item.Scans f) : (absent item).Scans f.absent := by
  constructor
  · intro c
    have here := scans.derives c
    rw [Scan.absent]
    cases known : f c.rest with
    | none =>
      rw [known] at here
      exact .absent here
    | some read =>
      rw [known] at here
      exact .absentRefused here
  · intro text read found
    rw [Scan.absent, Option.mem_def, Option.ite_none_left_eq_some] at found
    obtain ⟨-, ⟨⟩⟩ := found
    exact List.nil_prefix

/-- Repetitions read what `all` says if it says the same of what is left behind the first one. -/
theorem Scans.many (scans : item.Scans f) {all : List Char → List Char}
    (unfolds : ∀ text, all text =
      match f text with
      | some read => read ++ all (text.drop read.length)
      | none => [])
    (advances : ∀ text, f text ≠ some []) : (many item).Scans fun text => some (all text) := by
  have further (c : Cursor) : Derives .sealed (.further item) c
      (some ⟨[], [], c.skip (all c.rest)⟩) ∧ all c.rest <+: c.rest := by
    induction left : c.size using Nat.strongRecOn generalizing c with
    | ind size ih =>
      have here := scans.derives c
      rw [unfolds]
      cases known : f c.rest with
      | none =>
        rw [known] at here
        exact ⟨.done here, List.nil_prefix⟩
      | some read =>
        rw [known] at here
        obtain ⟨rest, whole⟩ := scans.within _ read known
        have long : 0 < read.length := List.length_pos_iff.mpr fun none =>
          advances _ (none ▸ known)
        have shorter : (c.skip read).size < size := by
          rw [← left, Cursor.size, Cursor.size, Cursor.rest_skip, ← whole, List.drop_left,
            List.length_append]
          omega
        obtain ⟨later, within⟩ := ih _ shorter (c.skip read) rfl
        rw [Cursor.rest_skip, ← whole, List.drop_left] at within
        have both := Derives.again here later
        rw [Option.map_some, Reading.followedBy, ← Cursor.skip_append] at both
        refine ⟨both, ?_⟩
        dsimp only
        rw [← whole, List.drop_left]
        exact List.prefix_append_right_inj read |>.mpr within
  constructor
  · intro c
    have here := scans.derives c
    rw [Option.map_some, unfolds]
    cases known : f c.rest with
    | none =>
      rw [known] at here
      exact .manyNone here
    | some read =>
      rw [known] at here
      have both := Derives.many here (further (c.skip read)).1
      rw [Option.map_some, Reading.followedBy, ← Cursor.skip_append] at both
      exact both
  · rintro text _ ⟨⟩
    exact (further (.ofText text)).2

theorem scans_takeWhile (test : Char → Bool) :
    (many (satisfying test)).Scans fun text => some (text.takeWhile test) := by
  refine (scans_satisfying test).many (fun text => ?_) (fun text => ?_)
  · cases text with
    | nil => rfl
    | cons c rest =>
      rw [List.takeWhile_cons]
      by_cases passes : test c = true <;> simp [passes]
  · intro nothing
    obtain ⟨c, -, same⟩ := Option.map_eq_some_iff.mp nothing
    cases same

theorem scans_absent_satisfying (test : Char → Bool) :
    (absent (satisfying test)).Scans fun text =>
      if text.head?.all (!test ·) then some [] else none := by
  refine (scans_satisfying test).absent.congr fun text => ?_
  cases text with
  | nil => rfl
  | cons c rest => by_cases passes : test c = true <;> simp [Scan.absent, passes]

theorem scans_oneOrMore (test : Char → Bool) :
    (oneOrMore (satisfying test)).Scans (.nonempty (List.takeWhile test)) := by
  refine ((scans_satisfying test).seq (scans_takeWhile test)).congr fun text => ?_
  cases text with
  | nil => rfl
  | cons c rest =>
    by_cases passes : test c = true <;> simp [Scan.andThen, Scan.nonempty, passes]

end Pattern

theorem drop_length_takeWhile (test : Char → Bool) (text : List Char) :
    text.drop (text.takeWhile test).length = text.dropWhile test := by
  conv => lhs; arg 2; rw [← List.takeWhile_append_dropWhile (p := test) (l := text)]
  exact List.drop_left

/-! ## Words -/

/-- The longest word that the text begins with. -/
def wordOf (text : List Char) : List Char := text.takeWhile isWordChar

instance lawfulBEqChars : LawfulBEq (List Char) := inferInstance

/-- Reads the word that the text begins with, if it is one of `words`. -/
def wordAmong (words : List String) : Scan := fun text =>
  if wordOf text ∈ words.map String.toList then some (wordOf text) else none

/-- The words consist of word characters, and none of them is the beginning of another. -/
def Distinct (words : List String) : Prop :=
  (∀ w ∈ words, w.toList.all isWordChar = true) ∧
    ∀ v ∈ words, ∀ w ∈ words, v.toList <+: w.toList → v = w

instance (words : List String) : Decidable (Distinct words) :=
  inferInstanceAs (Decidable (_ ∧ _))

theorem scans_anyWord (words : List String) :
    (Pattern.anyWord words).Scans fun text =>
      (words.find? fun w => decide (w.toList <+: text)).map String.toList := by
  induction words using Pattern.anyWord.induct with
  | case1 => exact (Pattern.scans_text []).absent.congr fun text => by simp [Scan.absent, Scan.text]
  | case2 w =>
    refine (Pattern.scans_text w.toList).congr fun text => ?_
    by_cases within : w.toList <+: text <;> simp [Scan.text, within]
  | case3 w rest more ih =>
    rw [Pattern.anyWord.eq_3 _ _ more]
    refine ((Pattern.scans_text w.toList).alt ih).congr fun text => ?_
    by_cases within : w.toList <+: text <;> simp [Scan.text, Scan.orElse, within]

section

variable {test : Char → Bool} {word rest : List Char}

theorem takeWhile_append_ended (all : word.all test = true)
    (ended : rest.head?.all (!test ·) = true) : (word ++ rest).takeWhile test = word := by
  rw [List.takeWhile_append_of_pos (List.all_eq_true.mp all)]
  cases rest with
  | nil => rw [List.takeWhile_nil, List.append_nil]
  | cons c rest => rw [List.takeWhile_cons_of_neg (by simpa using ended), List.append_nil]

theorem dropWhile_append_ended (all : word.all test = true)
    (ended : rest.head?.all (!test ·) = true) : (word ++ rest).dropWhile test = rest := by
  rw [List.dropWhile_append_of_pos (List.all_eq_true.mp all)]
  cases rest with
  | nil => rfl
  | cons c rest => rw [List.dropWhile_cons_of_neg (by simpa using ended)]

end

theorem head?_dropWhile (test : Char → Bool) (text : List Char) :
    (text.dropWhile test).head?.all (!test ·) = true := by
  induction text with
  | nil => rfl
  | cons c rest ih =>
    rw [List.dropWhile_cons]
    split
    · exact ih
    · next fails => simpa using fails

theorem scans_wholeWord (words : List String) (distinct : Distinct words) :
    (wholeWord (Pattern.anyWord words)).Scans (wordAmong words) := by
  refine ((scans_anyWord words).seq (Pattern.scans_absent_satisfying isWordChar)).congr fun text => ?_
  rw [Scan.andThen, wordAmong]
  have front : wordOf text <+: text := List.takeWhile_prefix _
  cases found : words.find? fun w => decide (w.toList <+: text) with
  | none =>
    rw [if_neg]
    · rfl
    · intro listed
      obtain ⟨w, member, same⟩ := List.mem_map.mp listed
      have beginning := List.find?_eq_none.mp found w member
      rw [same, decide_eq_true_iff] at beginning
      exact beginning front
  | some w =>
    have member := List.mem_of_find?_eq_some found
    have beginning := List.find?_some found
    rw [decide_eq_true_iff] at beginning
    obtain ⟨rest, rfl⟩ := beginning
    have all := distinct.1 w member
    rw [Option.map_some, Option.bind_some, List.drop_left]
    by_cases ended : rest.head?.all (!isWordChar ·) = true
    · have word : wordOf (w.toList ++ rest) = w.toList := takeWhile_append_ended all ended
      rw [word, if_pos ended, if_pos (List.mem_map_of_mem member), Option.map_some,
        List.append_nil]
    · rw [if_neg ended, if_neg, Option.map_none]
      -- The text goes on with a word character, so its word is longer than `w`.
      intro listed
      obtain ⟨v, member', same⟩ := List.mem_map.mp listed
      rw [wordOf, List.takeWhile_append_of_pos (List.all_eq_true.mp all)] at same
      have equal := distinct.2 w member v member' ⟨_, same.symm⟩
      rw [← equal, List.self_eq_append_right] at same
      cases rest with
      | nil => exact ended rfl
      | cons c rest =>
        have passes : isWordChar c = true := by simpa using ended
        rw [List.takeWhile_cons_of_pos passes] at same
        cases same

theorem Pattern.Scans.rule {rule : Rule} {f : Scan} (closed : rule.spacing = .sealed)
    (scans : rule.pattern.Scans f) : (Pattern.rule rule).Scans f := by
  constructor
  · intro c
    have inner : rule.innerSpacing .sealed = .sealed := by rw [Rule.innerSpacing, closed]
    have inside : Derives (rule.innerSpacing .sealed) (.one rule.pattern) c _ := inner ▸ scans.derives c
    have whole := Derives.rule inside
    rw [Option.map_map] at whole
    exact whole
  · exact scans.within

/-- Reads the word that the text begins with, unless it is reserved. -/
def nameOf : Scan := fun text =>
  if text.head?.any isWordStart ∧ wordOf text ∉ reservedWords.map String.toList then
    some (wordOf text)
  else none

theorem isWordChar_of_isWordStart {c : Char} (opens : isWordStart c = true) : isWordChar c = true := by
  simp only [isWordStart, isWordChar, Char.isAlphanum, Bool.or_eq_true] at opens ⊢
  rcases opens with letter | underscore
  · exact .inl (.inl letter)
  · exact .inr underscore

theorem scans_reservedWord : (Pattern.rule .reservedWord).Scans (wordAmong reservedWords) :=
  .rule rfl (scans_wholeWord _ (by decide +kernel))

theorem scans_identifier : (Rule.pattern .identifier).Scans nameOf := by
  have unreserved : (Pattern.absent (.rule .reservedWord)).Scans fun text =>
      if wordOf text ∈ reservedWords.map String.toList then none else some [] := by
    refine scans_reservedWord.absent.congr fun text => ?_
    rw [Scan.absent, wordAmong]
    split <;> rfl
  refine ((unreserved.seq (Pattern.scans_satisfying isWordStart)).seq
    (Pattern.scans_takeWhile isWordChar)).congr fun text => ?_
  simp only [Scan.andThen, nameOf]
  by_cases reserved : wordOf text ∈ reservedWords.map String.toList
  · rw [if_pos reserved, if_neg fun both => both.2 reserved]
    rfl
  · rw [if_neg reserved]
    cases text with
    | nil => rfl
    | cons c rest =>
      by_cases opens : isWordStart c = true
      · rw [if_pos ⟨by simpa using opens, reserved⟩]
        simp [opens, wordOf, isWordChar_of_isWordStart opens]
      · rw [if_neg fun both => opens (by simpa using both.1)]
        simp [opens]

/-- The names of the scalar types. -/
def typeWords : List String := ["int", "float", "str", "char", "bool"]

/-- A pair of brackets that the text begins with. -/
def bracketsOf (text : List Char) : List Char := if ['[', ']'] <+: text then ['[', ']'] else []

def typeOf : Scan := fun text =>
  (wordAmong typeWords text).map (· ++ bracketsOf (text.dropWhile isWordChar))

theorem scans_typeName : (Rule.pattern .typeName).Scans typeOf := by
  have word : (wholeWord (Pattern.anyWord typeWords)).Scans (wordAmong typeWords) :=
    scans_wholeWord _ (by decide +kernel)
  have brackets : (Pattern.word "[" ++ Pattern.word "]").Scans fun text =>
      if ['[', ']'] <+: text then some ['[', ']'] else none := by
    refine ((Pattern.scans_text ['[']).seq (Pattern.scans_text [']'])).congr fun text => ?_
    rcases text with _ | ⟨a, _ | ⟨b, rest⟩⟩
    · rfl
    · simp [Scan.andThen, List.cons_prefix_cons]
    · by_cases opens : '[' = a
      · subst opens
        by_cases closes : ']' = b <;> simp [Scan.andThen, List.cons_prefix_cons, closes]
      · simp [Scan.andThen, List.cons_prefix_cons, opens]
  refine (word.seq brackets.optional).congr fun text => ?_
  rw [Scan.andThen, typeOf, wordAmong]
  split
  · rw [Option.bind_some, wordOf, drop_length_takeWhile, Scan.optional, bracketsOf]
    split <;> rfl
  · rfl

/-! ## Numbers -/

/-- The digits that the text begins with. -/
def digitsOf (text : List Char) : List Char := text.takeWhile Char.isDigit

/-- A point that the text begins with and the digits behind it, if there are any. -/
def placesOf : List Char → List Char
  | '.' :: rest => if digitsOf rest = [] then [] else '.' :: digitsOf rest
  | _ => []

/-- A minus sign that the text begins with. -/
def signOf : List Char → List Char
  | '-' :: _ => ['-']
  | _ => []

/-- The longest numeral without a sign that the text begins with; it begins with a digit. -/
def numeralOf (text : List Char) : List Char :=
  digitsOf text ++ placesOf (text.dropWhile Char.isDigit)

def floatOf : Scan := fun text =>
  if digitsOf text = [] ∨ placesOf (text.dropWhile Char.isDigit) = [] then none
  else some (numeralOf text)

def integerOf : Scan := fun text =>
  if digitsOf text = [] ∨ placesOf (text.dropWhile Char.isDigit) ≠ [] then none
  else some (numeralOf text)

def numberOf : Scan := fun text =>
  let unsigned := text.drop (signOf text).length
  if digitsOf unsigned = [] then none else some (signOf text ++ numeralOf unsigned)

theorem digitsOf_eq_nil_iff {text : List Char} :
    digitsOf text = [] ↔ text.head?.any Char.isDigit = false := by
  cases text with
  | nil => simp [digitsOf]
  | cons c rest => simp [digitsOf, List.takeWhile_cons]

theorem placesOf_eq_nil_of_ne {c : Char} {rest : List Char} (other : '.' ≠ c) :
    placesOf (c :: rest) = [] := by
  rw [placesOf]
  rintro _ ⟨⟩
  exact other rfl

/-- A point and the digits behind it are read if there are such places. -/
theorem point_andThen_digits :
    (Scan.text ['.']).andThen (.nonempty digitsOf) = .nonempty placesOf := by
  funext text
  cases text with
  | nil => rfl
  | cons c rest =>
    by_cases point : '.' = c
    · subst point
      by_cases bare : digitsOf rest = [] <;> simp [Scan.andThen, Scan.nonempty, placesOf, bare]
    · simp [Scan.andThen, Scan.nonempty, point, placesOf_eq_nil_of_ne point]

theorem scans_digits : (Pattern.oneOrMore digit).Scans (.nonempty digitsOf) :=
  Pattern.scans_oneOrMore Char.isDigit

theorem scans_places :
    (Pattern.word "." ++ Pattern.oneOrMore digit).Scans (.nonempty placesOf) :=
  point_andThen_digits ▸ (Pattern.scans_text ['.']).seq scans_digits

/-- Digits are read and then what `more` reads behind them. -/
theorem digits_andThen (more : Scan) (text : List Char) :
    Scan.andThen (.nonempty digitsOf) more text =
      if digitsOf text = [] then none
      else (more (text.dropWhile Char.isDigit)).map (digitsOf text ++ ·) := by
  rw [Scan.andThen, Scan.nonempty]
  split
  · rfl
  · rw [Option.bind_some, digitsOf, drop_length_takeWhile]

theorem scans_float : (Rule.pattern .float).Scans floatOf := by
  have whole := (scans_digits.seq (Pattern.scans_text ['.'])).seq scans_digits
  rw [Scan.andThen_assoc, point_andThen_digits] at whole
  refine whole.congr fun text => ?_
  rw [digits_andThen, floatOf, Scan.nonempty]
  by_cases bare : digitsOf text = []
  · rw [if_pos bare, if_pos (.inl bare)]
  · by_cases whole : placesOf (text.dropWhile Char.isDigit) = [] <;> simp [numeralOf, bare, whole]

theorem scans_integer : (Rule.pattern .integer).Scans integerOf := by
  have noPlaces : (Pattern.absent (Pattern.word "." ++ digit)).Scans fun text =>
      if placesOf text = [] then some [] else none := by
    refine ((Pattern.scans_text ['.']).seq (Pattern.scans_satisfying Char.isDigit)).absent.congr
      fun text => ?_
    rcases text with _ | ⟨c, _ | ⟨d, rest⟩⟩
    · rfl
    · by_cases point : '.' = c
      · subst point
        rfl
      · rw [placesOf_eq_nil_of_ne point]
        simp [Scan.absent, Scan.andThen, point]
    · by_cases point : '.' = c
      · subst point
        by_cases more : d.isDigit = true <;>
          simp [Scan.absent, Scan.andThen, placesOf, digitsOf, more]
      · rw [placesOf_eq_nil_of_ne point]
        simp [Scan.absent, Scan.andThen, point]
  refine (scans_digits.seq noPlaces).congr fun text => ?_
  rw [digits_andThen, integerOf]
  by_cases bare : digitsOf text = []
  · rw [if_pos bare, if_pos (.inl bare)]
  · by_cases whole : placesOf (text.dropWhile Char.isDigit) = [] <;> simp [numeralOf, bare, whole]

theorem scans_numberElement : (Rule.pattern .numberElement).Scans numberOf := by
  have whole := ((Pattern.scans_text ['-']).optional.seq scans_digits).seq scans_places.optional
  rw [Scan.andThen_assoc] at whole
  refine whole.congr fun text => ?_
  have sign : (Scan.text ['-']).optional text = some (signOf text) := by
    cases text with
    | nil => rfl
    | cons c rest =>
      by_cases minus : '-' = c
      · subst minus
        simp [Scan.optional, signOf]
      · have none : signOf (c :: rest) = [] := by
          rw [signOf]
          rintro _ ⟨⟩
          exact minus rfl
        simp [Scan.optional, minus, none]
  have places (text : List Char) : Scan.optional (.nonempty placesOf) text = some (placesOf text) := by
    rw [Scan.optional, Scan.nonempty]
    split
    · next none => rw [none, Option.getD_none]
    · rfl
  rw [Scan.andThen, sign, Option.bind_some, digits_andThen, places, numberOf]
  split <;> rfl

/-! ## Quotes -/

/-- The character that may stand for itself between such quotes. -/
def isPlain (quote c : Char) : Bool := c != quote && c != '\\' && c != '\n'

/-- Reads one plain character, or an escape. -/
def unitOf (quote : Char) : Scan
  | '\\' :: c :: _ => some ['\\', c]
  | c :: _ => if isPlain quote c then some [c] else none
  | [] => none

/-- The plain characters and escapes that the text begins with. -/
def unitsOf (quote : Char) : List Char → List Char
  | '\\' :: c :: rest => '\\' :: c :: unitsOf quote rest
  | c :: rest => if isPlain quote c then c :: unitsOf quote rest else []
  | [] => []

theorem unitOf_cons {quote c : Char} {rest : List Char} (other : c ≠ '\\') :
    unitOf quote (c :: rest) = if isPlain quote c then some [c] else none := by
  rw [unitOf]
  rintro d more ⟨⟩
  exact fun _ => other rfl

theorem scans_quotedChar (quote : Char) : (quotedChar quote).Scans (unitOf quote) := by
  refine (((Pattern.scans_text ['\\']).seq (Pattern.scans_satisfying fun _ => true)).alt
    (Pattern.scans_satisfying (isPlain quote))).congr fun text => ?_
  rcases text with _ | ⟨c, _ | ⟨d, rest⟩⟩
  · rfl
  · by_cases escape : '\\' = c
    · subst escape
      simp [Scan.orElse, Scan.andThen, unitOf]
    · simp [Scan.orElse, Scan.andThen, escape, unitOf_cons (Ne.symm escape)]
  · by_cases escape : '\\' = c
    · subst escape
      simp [Scan.orElse, Scan.andThen, unitOf]
    · simp [Scan.orElse, Scan.andThen, escape, unitOf_cons (Ne.symm escape)]

theorem unitsOf_eq (quote : Char) (text : List Char) :
    unitsOf quote text =
      match unitOf quote text with
      | some read => read ++ unitsOf quote (text.drop read.length)
      | none => [] := by
  induction text using unitsOf.induct quote with
  | case1 c rest ih => rfl
  | case2 c rest other plain ih =>
    rw [unitsOf.eq_2 _ _ _ other, unitOf.eq_2 _ _ _ other, if_pos plain, if_pos plain]
    rfl
  | case3 c rest other special =>
    rw [unitsOf.eq_2 _ _ _ other, unitOf.eq_2 _ _ _ other, if_neg special, if_neg special]
  | case4 => rfl

theorem scans_quotedChars (quote : Char) :
    (Pattern.many (quotedChar quote)).Scans fun text => some (unitsOf quote text) := by
  refine (scans_quotedChar quote).many (unitsOf_eq quote) fun text => ?_
  unfold unitOf
  split
  · nofun
  · split <;> nofun
  · nofun

/-! ## Rules -/

/-- What a sealed rule reads. -/
def Rule.scan : Rule → Scan
  | reservedWord => wordAmong reservedWords
  | keyword word => wordAmong [word.text]
  | unaryOperator .not => wordAmong ["not"]
  | binaryOperator .or => wordAmong ["or"]
  | binaryOperator .and => wordAmong ["and"]
  | boolean => wordAmong ["true", "false"]
  | voidType => wordAmong ["void"]
  | identifier => nameOf
  | typeName => typeOf
  | float => floatOf
  | integer => integerOf
  | numberElement => numberOf
  | stringContent => fun text => some (unitsOf '"' text)
  | charContent => unitOf '\''
  | _ => fun _ => none

theorem Rule.scans_pattern (rule : Rule) (closed : rule.spacing = .sealed) :
    rule.pattern.Scans rule.scan := by
  cases rule with
  | reservedWord => exact scans_wholeWord _ (by decide +kernel)
  | keyword word => exact scans_wholeWord [word.text] (by cases word <;> decide +kernel)
  | unaryOperator operator =>
    cases operator with
    | negate => cases closed
    | not => exact scans_wholeWord ["not"] (by decide +kernel)
  | binaryOperator operator =>
    cases operator with
    | or => exact scans_wholeWord ["or"] (by decide +kernel)
    | and => exact scans_wholeWord ["and"] (by decide +kernel)
    | _ => cases closed
  | boolean => exact scans_wholeWord _ (by decide +kernel)
  | voidType => exact scans_wholeWord ["void"] (by decide +kernel)
  | identifier => exact scans_identifier
  | typeName => exact scans_typeName
  | float => exact scans_float
  | integer => exact scans_integer
  | numberElement => exact scans_numberElement
  | stringContent => exact scans_quotedChars '"'
  | charContent => exact scans_quotedChar '\''
  | _ => cases closed

/-- A sealed rule comes to what it reads. -/
theorem derives_sealed {rule : Rule} (closed : rule.spacing = .sealed) (spacing : Spacing)
    (c : Cursor) :
    Derives spacing (.one (.rule rule)) c
      ((rule.scan c.rest).map fun read => .ofRule rule spacing c ⟨[], [], c.skip read⟩) := by
  have inner : rule.innerSpacing spacing = .sealed := by rw [Rule.innerSpacing, closed]
  have inside : Derives (rule.innerSpacing spacing) (.one rule.pattern) c _ :=
    inner ▸ (rule.scans_pattern closed).derives c
  have whole := Derives.rule inside
  rw [Option.map_map] at whole
  exact whole

/-- Reads the quote, a content and the quote again; gives the content. -/
def quotedOf (quote : Char) (content : Scan) : Scan
  | [] => none
  | c :: rest =>
    if c = quote then
      (content rest).filter fun read => (rest.drop read.length).head? == some quote
    else none

theorem derives_quoted {rule content : Rule} {quote : Char}
    (shape : rule.pattern = .text [quote] ++ .rule content ++ .text [quote])
    (tight : rule.spacing = .tight) (closed : content.spacing = .sealed) (spacing : Spacing)
    (c : Cursor) :
    Derives spacing (.one (.rule rule)) c
      ((quotedOf quote content.scan c.rest).map fun read =>
        .ofRule rule spacing c ⟨[.mk content (c.skip [quote]) (c.skip (quote :: read)) []], [],
          c.skip (quote :: (read ++ [quote]))⟩) := by
  have inner : rule.innerSpacing spacing = .tight := by rw [Rule.innerSpacing, tight]
  have quotes (c : Cursor) : Derives .tight (.one (.text [quote])) c
      (if c.rest.head? == some quote then some ⟨[], [], c.skip [quote]⟩ else none) := by
    refine derives_text_iff.mpr ?_
    rw [Cursor.takeText_eq]
    cases known : c.rest with
    | nil => rfl
    | cons first rest =>
      by_cases same : quote = first
      · simp [same, Reading.ofTerminal]
      · simp [same, Ne.symm same]
  suffices inside : Derives .tight (.one rule.pattern) c
      ((quotedOf quote content.scan c.rest).map fun read =>
        ⟨[.mk content (c.skip [quote]) (c.skip (quote :: read)) []], [],
          c.skip (quote :: (read ++ [quote]))⟩) by
    have inside : Derives (rule.innerSpacing spacing) (.one rule.pattern) c _ := inner ▸ inside
    have whole := Derives.rule inside
    rw [Option.map_map] at whole
    exact whole
  have opening := quotes c
  rw [shape]
  cases known : c.rest with
  | nil =>
    rw [known] at opening
    exact .seqRefused (.seqRefused opening)
  | cons first rest =>
    by_cases same : quote = first
    · subst same
      have here : Derives .tight (.one (.rule content)) (c.skip [quote])
          ((content.scan rest).map fun read =>
            ⟨[.mk content (c.skip [quote]) (c.skip (quote :: read)) []], [],
              c.skip (quote :: read)⟩) := by
        have raw := derives_sealed closed .tight (c.skip [quote])
        simp only [Cursor.rest_skip, known, ← Cursor.skip_append] at raw
        exact raw
      rw [known, if_pos (by simp)] at opening
      rw [quotedOf, if_pos rfl]
      cases scanned : content.scan rest with
      | none =>
        rw [scanned] at here
        exact .seqRefused (.seq opening here)
      | some read =>
        rw [scanned] at here
        have front : Derives .tight (.one (.text [quote] ++ .rule content)) c _ := .seq opening here
        have closing := quotes (c.skip (quote :: read))
        have both : Derives .tight (.one (.text [quote] ++ .rule content ++ .text [quote])) c _ :=
          .seq front closing
        have behind : (c.skip (quote :: read)).rest = rest.drop read.length := by
          rw [Cursor.rest_skip, known]
          rfl
        rw [behind, ← Cursor.skip_append] at both
        rw [Option.filter_some]
        split at both
        · next ended =>
          rw [if_pos ended]
          exact both
        · next more =>
          rw [if_neg more]
          exact both
    · rw [known, if_neg (by simpa using Ne.symm same)] at opening
      rw [quotedOf, if_neg (Ne.symm same)]
      exact .seqRefused (.seqRefused opening)

theorem quotedOf_eq_some_iff {quote : Char} {content : Scan} {text read : List Char}
    (within : ∀ text, ∀ read ∈ content text, read <+: text) :
    quotedOf quote content text = some read ↔
      ∃ behind, text = quote :: (read ++ quote :: behind) ∧
        content (read ++ quote :: behind) = some read := by
  cases text with
  | nil => simp [quotedOf]
  | cons first rest =>
    rw [quotedOf, Option.ite_none_right_eq_some, Option.filter_eq_some_iff]
    constructor
    · rintro ⟨rfl, here, closes⟩
      obtain ⟨behind, rfl⟩ := within rest read here
      rw [List.drop_left, beq_iff_eq, List.head?_eq_some_iff] at closes
      obtain ⟨more, rfl⟩ := closes
      exact ⟨more, rfl, here⟩
    · rintro ⟨behind, same, here⟩
      obtain ⟨rfl, rfl⟩ := List.cons.inj same
      exact ⟨rfl, here, by simp⟩

/-! ## The nodes of sealed rules and of quotes -/

namespace Node

variable {rule content : Rule} {start stop : Cursor} {children : List Node} {quote : Char}

/-- A sealed rule covers what it reads. -/
theorem IsMatch.of_sealed (isMatch : (mk rule start stop children).IsMatch)
    (closed : rule.spacing = .sealed) :
    ∃ read, rule.scan start.rest = some read ∧ stop = start.skip read ∧ children = [] ∧
      (mk rule start stop children).characters = read := by
  obtain ⟨spacing, tokens, derived⟩ := isMatch
  have same := derived.unique (derives_sealed closed spacing start)
  obtain ⟨read, scanned, same⟩ := Option.map_eq_some_iff.mp same.symm
  have within := (rule.scans_pattern closed).within _ read scanned
  dsimp only [Reading.ofRule] at same
  split at same
  · cases same
  · cases same
    exact ⟨read, scanned, rfl, rfl, Cursor.textUpTo_skip within⟩

/-- The children of a match are matches. -/
theorem IsMatch.of_child (isMatch : (mk rule start stop children).IsMatch) :
    ∀ n ∈ children, n.IsMatch := by
  by_cases closed : rule.spacing = .sealed
  · obtain ⟨-, -, -, none, -⟩ := isMatch.of_sealed closed
    rw [none]
    exact List.forall_mem_nil _
  · exact (isMatch.leaves closed).isMatch

/-- A quoted literal covers its quotes and a content between them. -/
theorem IsMatch.of_quoted (isMatch : (mk rule start stop children).IsMatch)
    (shape : rule.pattern = .text [quote] ++ .rule content ++ .text [quote])
    (tight : rule.spacing = .tight) (closed : content.spacing = .sealed) :
    ∃ read inner, content.scan (start.rest.drop 1) = some read ∧ children = [inner] ∧
      inner.characters = read ∧
      (mk rule start stop children).characters = quote :: (read ++ [quote]) := by
  obtain ⟨spacing, tokens, derived⟩ := isMatch
  have same := derived.unique (derives_quoted shape tight closed spacing start)
  obtain ⟨read, scanned, same⟩ := Option.map_eq_some_iff.mp same.symm
  obtain ⟨behind, text, here⟩ :=
    (quotedOf_eq_some_iff (content.scans_pattern closed).within).mp scanned
  have whole : quote :: (read ++ [quote]) <+: start.rest := ⟨behind, by simp [text]⟩
  have inside : read <+: (start.skip [quote]).rest := ⟨quote :: behind, by simp [text]⟩
  dsimp only [Reading.ofRule] at same
  split at same
  · cases same
  · cases same
    refine ⟨read, _, by rw [text]; exact here, rfl, ?_, Cursor.textUpTo_skip whole⟩
    have skipped : start.skip (quote :: read) = (start.skip [quote]).skip read :=
      start.skip_append [quote] read
    rw [characters, Node.stop, Node.start, skipped]
    exact Cursor.textUpTo_skip inside

end Node

end CheckedScript.Grammar
