import CheckedScript.Proofs.Grammar.Finding

/-!
# Operands and operators in a given text

A primary expression is what the first of its rules finds that is not refused. Most of them are refused
for the first character (`Pattern.misses_of_opener`); what stands behind a name or a bracket tells the
rest apart. An expression is found from its operands and the operators between them.
-/

namespace CheckedScript.Grammar

open Cursor

/-! ## Words and numerals in front of a text -/

section

variable {text s rest : List Char} {words : List String}

theorem nameOf_eq_none (shut : text.head?.any isWordStart = false) : nameOf text = none :=
  if_neg fun both => Bool.false_ne_true (shut.symm.trans both.1)

theorem wordAmong_eq_none (reserved : ∀ w ∈ words, w ∈ reservedWords)
    (shut : text.head?.any isWordStart = false) : wordAmong words text = none := by
  refine if_neg fun listed => ?_
  obtain ⟨w, member, same⟩ := List.mem_map.mp listed
  have opens : text.head?.any isWordStart = true := by
    refine Lexical.opens_of_reserved ?_
    rw [← same]
    exact List.mem_map_of_mem (reserved w member)
  exact Bool.false_ne_true (shut.symm.trans opens)

theorem opens_of_nameOf (named : nameOf text = some s) : text.head?.any isWordStart = true :=
  (Option.ite_none_right_eq_some.mp named).1.1

/-- No gap is in front of a word. -/
theorem pastGap_of_opens (opens : text.head?.any isWordStart = true) : pastGap text = text := by
  obtain ⟨d, rest, rfl, start⟩ := Lexical.exists_cons opens
  refine pastGap_solid (not_isBlank_of_isWordChar (isWordChar_of_isWordStart start)) ?_
  rintro rfl
  exact absurd start (by decide)

/-- A word that begins with a name is no reserved one. -/
theorem wordAmong_of_nameOf (reserved : ∀ w ∈ words, w ∈ reservedWords) (named : nameOf text = some s) :
    wordAmong words text = none := by
  refine if_neg fun listed => ?_
  obtain ⟨⟨-, unreserved⟩, -⟩ := Option.ite_none_right_eq_some.mp named
  obtain ⟨w, member, same⟩ := List.mem_map.mp listed
  rw [← same] at unreserved
  exact unreserved (List.mem_map_of_mem (reserved w member))

/-- A name ends where no word goes on. -/
theorem nameOf_append (named : nameOf s = some s) (ended : rest.head?.all (!isWordChar ·) = true) :
    nameOf (s ++ rest) = some s := by
  obtain ⟨⟨opens, unreserved⟩, same⟩ := Option.ite_none_right_eq_some.mp named
  have all : s.all isWordChar = true := by
    rw [← Option.some.inj same]
    exact wordOf_all s
  have word : wordOf (s ++ rest) = s := takeWhile_append_ended all ended
  have first : (s ++ rest).head?.any isWordStart = true := by
    cases s with
    | nil => cases opens
    | cons c s => exact opens
  rw [Option.some.inj same] at unreserved
  rw [nameOf, word, if_pos ⟨first, unreserved⟩]

theorem wordAmong_append {w : String} (listed : w ∈ words) (all : w.toList.all isWordChar = true)
    (ended : rest.head?.all (!isWordChar ·) = true) :
    wordAmong words (w.toList ++ rest) = some w.toList := by
  have word : wordOf (w.toList ++ rest) = w.toList := takeWhile_append_ended all ended
  rw [wordAmong, word, if_pos (List.mem_map_of_mem listed)]

/-- Digits behind which neither digits nor a point go on. -/
theorem numeral_append (digits : s.all Char.isDigit = true)
    (ended : rest.head?.all (fun c => !c.isDigit && c != '.') = true) :
    digitsOf (s ++ rest) = s ∧ placesOf ((s ++ rest).dropWhile Char.isDigit) = [] ∧
      numeralOf (s ++ rest) = s := by
  have digitless : rest.head?.all (!Char.isDigit ·) = true := by
    cases rest with
    | nil => rfl
    | cons c rest => simp_all
  have front : digitsOf (s ++ rest) = s := takeWhile_append_ended digits digitless
  have back : (s ++ rest).dropWhile Char.isDigit = rest := dropWhile_append_ended digits digitless
  have bare : placesOf rest = [] := by
    cases rest with
    | nil => rfl
    | cons c rest => exact placesOf_eq_nil_of_ne (by rintro rfl; simp at ended)
  exact ⟨front, by rw [back, bare], by rw [numeralOf, front, back, bare, List.append_nil]⟩

end

namespace Pattern

variable {c middle behind stop : Cursor} {nodes more : List Node} {n sign : Node} {name item : Rule}
  {s rest : List Char}

/-! ## Primary expressions -/

/-- The rules of primary expressions in the order in which they are tried. -/
def primaryRules : List Rule :=
  [.functionCall, .indexAccess, .fieldAccess, .float, .integer, .string, .charLiteral, .boolean,
    .numberArray, .charArray, .strArray, .identifier, .parenthesized]

/-- The characters that can open what a rule of a primary expression reads. -/
def opener : Rule → Char → Bool
  | .functionCall | .indexAccess | .fieldAccess | .identifier | .boolean => isWordStart
  | .float | .integer => Char.isDigit
  | .string => (· == '"')
  | .charLiteral => (· == '\'')
  | .numberArray | .charArray | .strArray => (· == '[')
  | .parenthesized => (· == '(')
  | _ => fun _ => false

theorem misses_of_opener (listed : name ∈ primaryRules)
    (shut : c.rest.head?.any (opener name) = false) : (rule name).Misses c := by
  have other {d : Char} (shut : c.rest.head?.any (· == d) = false) : c.rest.head? ≠ some d := by
    intro same
    simp [same] at shut
  cases name with
  | functionCall | indexAccess =>
    exact .rule (.seq (.seq (.seq (misses_sealed rfl (nameOf_eq_none shut))))) rfl
  | fieldAccess => exact .rule (.seq (.seq (misses_sealed rfl (nameOf_eq_none shut)))) rfl
  | identifier => exact misses_sealed rfl (nameOf_eq_none shut)
  | boolean => exact misses_sealed rfl (wordAmong_eq_none (by decide) shut)
  | float | integer => exact misses_sealed rfl (if_pos (.inl (digitsOf_eq_nil_iff.mpr shut)))
  | string | charLiteral => exact misses_quoted rfl rfl rfl (other shut)
  | numberArray | charArray | strArray | parenthesized =>
    exact .rule (.seq (.seq (misses_text_singleton (other shut)))) rfl
  | _ => simp [primaryRules] at listed

/-- A primary expression is what the first rule finds that is not refused. Of those before it, the ones
that open with another character are. -/
theorem finds_primary (before after : List Rule) (listed : primaryRules = before ++ name :: after)
    {d : Char} (opens : c.rest.head? = some d)
    (refused : ∀ r ∈ before, opener r d = true → (rule r).Misses c)
    (found : (rule name).Finds c nodes stop) : primary.Finds c nodes stop := by
  refine finds_of_rules before after (congrArg (List.map rule) listed) (fun r member => ?_) found
  by_cases same : opener r d = true
  · exact refused r member same
  · refine misses_of_opener (listed ▸ List.mem_append_left _ member) ?_
    rw [opens]
    exact Bool.eq_false_iff.mpr same

theorem finds_primary_alone (before after : List Rule) (listed : primaryRules = before ++ name :: after)
    {d : Char} (opens : c.rest.head? = some d) (shut : ∀ r ∈ before, opener r d = false)
    (found : (rule name).Finds c nodes stop) : primary.Finds c nodes stop :=
  finds_primary before after listed opens
    (fun r member same => absurd same (by simp [shut r member])) found

theorem finds_integer (whole : c.rest = s ++ rest) (digits : s.all Char.isDigit = true) (some : s ≠ [])
    (ended : rest.head?.all (fun c => !c.isDigit && c != '.') = true) :
    primary.Finds c [.mk .integer c (c.skip s) []] (c.skip s) := by
  obtain ⟨front, bare, same⟩ := numeral_append digits ended
  obtain ⟨d, s', rfl⟩ := List.exists_cons_of_ne_nil some
  have digit : d.isDigit = true := by simp_all
  have opens : c.rest.head? = Option.some d := by rw [whole]; rfl
  rw [← whole] at front bare same
  have float : (rule .float).Misses c := misses_sealed rfl (if_pos (.inr bare))
  have isInteger : Rule.scan .integer c.rest = Option.some (d :: s') := by
    change integerOf c.rest = _
    rw [integerOf, front, bare, same]
    simp
  refine finds_primary [.functionCall, .indexAccess, .fieldAccess, .float] _ rfl opens ?_
    (finds_sealed rfl isInteger)
  simpa [opener, not_isWordStart_of_isDigit digit] using fun _ => float

/-- What begins with a name is refused where there is none. -/
theorem misses_names (unnamed : nameOf c.rest = none) :
    ∀ r ∈ [Rule.functionCall, .indexAccess, .fieldAccess], (rule r).Misses c := by
  have unread : (rule .identifier).Misses c := misses_sealed rfl unnamed
  rw [List.forall_mem_cons, List.forall_mem_cons, List.forall_mem_singleton]
  exact ⟨.rule (.seq (.seq (.seq unread))) rfl, .rule (.seq (.seq (.seq unread))) rfl,
    .rule (.seq (.seq unread)) rfl⟩

theorem finds_boolean {w : String} (listed : w ∈ ["true", "false"]) (whole : c.rest = w.toList ++ rest)
    (ended : rest.head?.all (!isWordChar ·) = true) :
    primary.Finds c [.mk .boolean c (c.skip w.toList) []] (c.skip w.toList) := by
  have words : ∀ w ∈ ["true", "false"], w ∈ reservedWords ∧ w.toList.all isWordChar = true ∧
      ∃ d, w.toList.head? = some d ∧ ∀ r ∈ primaryRules.take 7, opener r d = true →
        r ∈ [Rule.functionCall, .indexAccess, .fieldAccess] := by
    rw [List.forall_mem_cons, List.forall_mem_singleton]
    exact ⟨⟨by decide, by decide, 't', rfl, by decide⟩, by decide, by decide, 'f', rfl, by decide⟩
  obtain ⟨reserved, all, d, opens, rivals⟩ := words w listed
  have isWord : wordOf c.rest = w.toList := by
    rw [whole]
    exact takeWhile_append_ended all ended
  have unnamed : nameOf c.rest = none := by
    refine if_neg fun both => both.2 ?_
    rw [isWord]
    exact List.mem_map_of_mem reserved
  have first : c.rest.head? = some d := by
    obtain ⟨more, same⟩ := List.head?_eq_some_iff.mp opens
    rw [whole, same]
    rfl
  refine finds_primary _ _ (primaryRules.take_append_drop 7).symm first
    (fun r member same => misses_names unnamed r (rivals r member same)) (finds_sealed rfl ?_)
  rw [whole]
  exact wordAmong_append listed all ended

theorem finds_string (opens : c.rest.head? = some '"') (found : (rule .string).Finds c nodes stop) :
    primary.Finds c nodes stop :=
  finds_primary_alone [.functionCall, .indexAccess, .fieldAccess, .float, .integer] _ rfl opens
    (by decide) found

theorem finds_charLiteral (opens : c.rest.head? = some '\'')
    (found : (rule .charLiteral).Finds c nodes stop) : primary.Finds c nodes stop :=
  finds_primary_alone [.functionCall, .indexAccess, .fieldAccess, .float, .integer, .string] _ rfl opens
    (by decide) found

/-! ## Names and what stands behind them -/

/-- What is left behind an operand does not go on with it. -/
def EndsOperand (rest : List Char) : Prop :=
  rest.head?.all (!isWordChar ·) = true ∧
    (pastGap rest).head?.all (fun d => !List.contains ['(', '[', '.'] d) = true

theorem EndsOperand.ne {d : Char} (ends : EndsOperand rest) (listed : d ∈ ['(', '[', '.']) :
    (pastGap rest).head? ≠ some d := by
  intro same
  have other := ends.2
  rw [same] at other
  simp_all

/-- Neither digits nor a point go on behind an operand. -/
theorem EndsOperand.digits (ends : EndsOperand rest) :
    rest.head?.all (fun c => !c.isDigit && c != '.') = true := by
  cases rest with
  | nil => rfl
  | cons d rest =>
    have wordless : isWordChar d = false := by simpa using ends.1
    have pointless : d ≠ '.' := by
      rintro rfl
      have settled : pastGap ('.' :: rest) = '.' :: rest := pastGap_of_head rfl
      exact ends.ne (d := '.') (by decide) (by rw [settled]; rfl)
    have digitless : d.isDigit = false := by
      simp only [isWordChar, Char.isAlphanum, Bool.or_eq_false_iff] at wordless
      exact wordless.1.2
    simp [digitless, pointless]

theorem misses_behindName {d : Char} (named : nameOf c.rest = some s)
    (other : (pastGap (c.rest.drop s.length)).head? ≠ some d) :
    (rule .identifier ++ text [d]).Misses c := by
  have name : (rule .identifier).Finds c _ (c.skip s) := finds_sealed rfl named
  refine name.seq_misses (misses_text_singleton ?_)
  rwa [rest_skipGap, rest_skip]

theorem misses_call (named : nameOf c.rest = some s)
    (other : (pastGap (c.rest.drop s.length)).head? ≠ some '(') : (rule .functionCall).Misses c :=
  .rule (.seq (.seq (misses_behindName named other))) rfl

theorem misses_index (named : nameOf c.rest = some s)
    (other : (pastGap (c.rest.drop s.length)).head? ≠ some '[') : (rule .indexAccess).Misses c :=
  .rule (.seq (.seq (misses_behindName named other))) rfl

theorem misses_field (named : nameOf c.rest = some s)
    (other : (pastGap (c.rest.drop s.length)).head? ≠ some '.') : (rule .fieldAccess).Misses c :=
  .rule (.seq (misses_behindName named other)) rfl

/-- The rules before that of a name which begin with no word. -/
def wordlessRules : List Rule :=
  [.float, .integer, .string, .charLiteral, .numberArray, .charArray, .strArray]

theorem exists_opener (named : nameOf c.rest = some s) :
    ∃ d, c.rest.head? = some d ∧ ∀ r ∈ wordlessRules, opener r d = false := by
  obtain ⟨d, rest, whole, start⟩ := Lexical.exists_cons (opens_of_nameOf named)
  have digitless : d.isDigit = false :=
    Bool.eq_false_iff.mpr fun digit => by simp [not_isWordStart_of_isDigit digit] at start
  have other (mark : Char) (shut : isWordStart mark = false) : (d == mark) = false := by
    refine beq_false_of_ne ?_
    rintro rfl
    exact Bool.false_ne_true (shut.symm.trans start)
  refine ⟨d, by rw [whole]; rfl, ?_⟩
  simp only [wordlessRules, List.forall_mem_cons, List.not_mem_nil, false_implies, implies_true, and_true]
  exact ⟨digitless, digitless, other '"' rfl, other '\'' rfl, other '[' rfl, other '[' rfl, other '[' rfl⟩

theorem finds_identifier (named : nameOf s = some s) (whole : c.rest = s ++ rest)
    (ends : EndsOperand rest) : primary.Finds c [.mk .identifier c (c.skip s) []] (c.skip s) := by
  have read : nameOf c.rest = some s := by
    rw [whole]
    exact nameOf_append named ends.1
  have behind : c.rest.drop s.length = rest := by rw [whole, List.drop_left]
  obtain ⟨d, opens, shut⟩ := exists_opener read
  refine finds_primary (primaryRules.take 11) _ (primaryRules.take_append_drop 11).symm opens ?_
    (finds_sealed rfl read)
  intro r member same
  by_cases other : r ∈ wordlessRules
  · exact absurd same (by simp [shut r other])
  · -- What stands behind the name tells the others apart, and a reserved word is no name.
    have rivals : ∀ r ∈ primaryRules.take 11, r ∉ wordlessRules →
        r ∈ [Rule.functionCall, .indexAccess, .fieldAccess, .boolean] := by decide
    have left := rivals r member other
    simp only [List.mem_cons, List.not_mem_nil, or_false] at left
    rcases left with rfl | rfl | rfl | rfl
    · exact misses_call read (behind ▸ ends.ne (by decide))
    · exact misses_index read (behind ▸ ends.ne (by decide))
    · exact misses_field read (behind ▸ ends.ne (by decide))
    · exact misses_sealed rfl (wordAmong_of_nameOf (by decide) read)

theorem finds_field {field : List Char} (named : nameOf s = some s) (named' : nameOf field = some field)
    (whole : c.rest = s ++ '.' :: (field ++ rest)) (ended : rest.head?.all (!isWordChar ·) = true) :
    primary.Finds c
      [.mk .fieldAccess c (((c.skip s).skip ['.']).skip field)
        [.mk .identifier c (c.skip s) [],
          .mk .identifier ((c.skip s).skip ['.']) (((c.skip s).skip ['.']).skip field) []]]
      (((c.skip s).skip ['.']).skip field) := by
  have read : nameOf c.rest = some s := by
    rw [whole]
    exact nameOf_append named rfl
  have behind : (c.skip s).rest = '.' :: (field ++ rest) := rest_skip_of_append whole
  have settled : pastGap (c.skip s).rest = (c.skip s).rest := by
    rw [behind]
    exact pastGap_of_head rfl
  have read' : nameOf ((c.skip s).skip ['.']).rest = some field := by
    rw [rest_skip_of_cons behind]
    exact nameOf_append named' ended
  have first : (rule .identifier).Finds c _ (c.skip s) := finds_sealed rfl read
  have point : (text ['.']).Finds (c.skip s) [] ((c.skip s).skip ['.']) := finds_text ⟨_, behind.symm⟩
  have second : (rule .identifier).Finds ((c.skip s).skip ['.']) _ _ := finds_sealed rfl read'
  obtain ⟨d, opens, -⟩ := exists_opener read
  have other : ∀ mark ∈ ['(', '['], (pastGap (c.rest.drop s.length)).head? ≠ some mark := by
    change ∀ mark ∈ ['(', '['], (pastGap (c.skip s).rest).head? ≠ some mark
    rw [settled, behind]
    simp
  refine finds_primary [.functionCall, .indexAccess] _ rfl opens ?_
    (Finds.rule ((first.next settled point).next (pastGap_of_opens (opens_of_nameOf read')) second) rfl)
  rw [List.forall_mem_cons, List.forall_mem_singleton]
  exact ⟨fun _ => misses_call read (other '(' (by decide)),
    fun _ => misses_index read (other '[' (by decide))⟩

/-! ## Brackets -/

/-- The brackets that stand around expressions. -/
def brackets : List (Char × Char) := [('(', ')'), ('[', ']')]

section

variable {opening closing : Char} {inner : Pattern}

theorem pastGap_brackets (listed : (opening, closing) ∈ brackets) (text : List Char) :
    pastGap (opening :: text) = opening :: text ∧ pastGap (closing :: text) = closing :: text := by
  have solid : ∀ b ∈ brackets,
      (!isBlank b.1 && b.1 != '/') = true ∧ (!isBlank b.2 && b.2 != '/') = true := by
    decide
  exact ⟨pastGap_of_head (solid _ listed).1, pastGap_of_head (solid _ listed).2⟩

theorem finds_enclosed (listed : (opening, closing) ∈ brackets)
    (whole : c.rest = opening :: (s ++ closing :: rest))
    (settled : pastGap (s ++ closing :: rest) = s ++ closing :: rest)
    (inside : inner.Finds (c.skip [opening]) nodes ((c.skip [opening]).skip s)) :
    (text [opening] ++ inner ++ text [closing]).Finds c nodes
      (((c.skip [opening]).skip s).skip [closing]) := by
  have front : (c.skip [opening]).rest = s ++ closing :: rest := rest_skip_of_cons whole
  have back : ((c.skip [opening]).skip s).rest = closing :: rest := rest_skip_of_append front
  have opens : (text [opening]).Finds c [] (c.skip [opening]) := finds_text ⟨_, whole.symm⟩
  have closes : (text [closing]).Finds ((c.skip [opening]).skip s) [] _ := finds_text ⟨_, back.symm⟩
  have both := (opens.next (by rw [front, settled]) inside).next
    (by rw [back]; exact (pastGap_brackets listed rest).2) closes
  rwa [List.nil_append, List.append_nil] at both

/-- What stands between brackets behind a name is found with both. -/
theorem finds_applied (listed : (opening, closing) ∈ brackets) {t : List Char}
    (named : nameOf s = some s) (whole : c.rest = s ++ opening :: (t ++ closing :: rest))
    (settled : pastGap (t ++ closing :: rest) = t ++ closing :: rest)
    (inside : inner.Finds ((c.skip s).skip [opening]) nodes (((c.skip s).skip [opening]).skip t)) :
    (rule .identifier ++ text [opening] ++ inner ++ text [closing]).Finds c
      (.mk .identifier c (c.skip s) [] :: nodes) ((((c.skip s).skip [opening]).skip t).skip [closing]) := by
  have front : (c.skip s).rest = opening :: (t ++ closing :: rest) := rest_skip_of_append whole
  have ended : ∀ b ∈ brackets, (!isWordChar b.1) = true := by decide
  have read : nameOf c.rest = some s := by
    rw [whole]
    exact nameOf_append named (ended _ listed)
  have name : (rule .identifier).Finds c _ (c.skip s) := finds_sealed rfl read
  have middle : ((c.skip s).skip [opening]).rest = t ++ closing :: rest := rest_skip_of_cons front
  have back : (((c.skip s).skip [opening]).skip t).rest = closing :: rest := rest_skip_of_append middle
  have opens : (text [opening]).Finds (c.skip s) [] ((c.skip s).skip [opening]) :=
    finds_text ⟨_, front.symm⟩
  have closes : (text [closing]).Finds (((c.skip s).skip [opening]).skip t) [] _ :=
    finds_text ⟨_, back.symm⟩
  have whole := ((name.next (by rw [front]; exact (pastGap_brackets listed _).1) opens).next
    (by rw [middle, settled]) inside).next (by rw [back]; exact (pastGap_brackets listed rest).2) closes
  rwa [List.append_nil, List.append_nil, List.singleton_append] at whole

end

theorem finds_parenthesized (whole : c.rest = '(' :: (s ++ ')' :: rest))
    (settled : pastGap (s ++ ')' :: rest) = s ++ ')' :: rest)
    (inside : (rule .expression).Finds (c.skip ['(']) nodes ((c.skip ['(']).skip s)) :
    primary.Finds c [.mk .parenthesized c (((c.skip ['(']).skip s).skip [')']) nodes]
      (((c.skip ['(']).skip s).skip [')']) := by
  have opens : c.rest.head? = some '(' := by rw [whole]; rfl
  exact finds_primary_alone (primaryRules.take 12) _ (primaryRules.take_append_drop 12).symm opens
    (by decide) (Finds.rule (finds_enclosed (by decide) whole settled inside) rfl)

theorem finds_call {t : List Char} (named : nameOf s = some s)
    (whole : c.rest = s ++ '(' :: (t ++ ')' :: rest))
    (settled : pastGap (t ++ ')' :: rest) = t ++ ')' :: rest)
    (inside : (optional (rule .argumentList)).Finds ((c.skip s).skip ['(']) nodes
      (((c.skip s).skip ['(']).skip t)) :
    primary.Finds c
      [.mk .functionCall c ((((c.skip s).skip ['(']).skip t).skip [')'])
        (.mk .identifier c (c.skip s) [] :: nodes)]
      ((((c.skip s).skip ['(']).skip t).skip [')']) := by
  have read : nameOf c.rest = some s := by
    rw [whole]
    exact nameOf_append named rfl
  obtain ⟨d, opens, -⟩ := exists_opener read
  exact finds_primary_alone [] _ rfl opens (List.forall_mem_nil _)
    (Finds.rule (finds_applied (by decide) named whole settled inside) rfl)

theorem finds_index {t : List Char} (named : nameOf s = some s)
    (whole : c.rest = s ++ '[' :: (t ++ ']' :: rest))
    (settled : pastGap (t ++ ']' :: rest) = t ++ ']' :: rest)
    (inside : (rule .expression).Finds ((c.skip s).skip ['[']) nodes (((c.skip s).skip ['[']).skip t)) :
    primary.Finds c
      [.mk .indexAccess c ((((c.skip s).skip ['[']).skip t).skip [']'])
        (.mk .identifier c (c.skip s) [] :: nodes)]
      ((((c.skip s).skip ['[']).skip t).skip [']']) := by
  have read : nameOf c.rest = some s := by
    rw [whole]
    exact nameOf_append named rfl
  have behind : c.rest.drop s.length = '[' :: (t ++ ']' :: rest) := by rw [whole, List.drop_left]
  have other : (pastGap (c.rest.drop s.length)).head? ≠ some '(' := by
    rw [behind, pastGap_of_head rfl]
    simp
  obtain ⟨d, opens, -⟩ := exists_opener read
  refine finds_primary [.functionCall] _ rfl opens ?_
    (Finds.rule (finds_applied (by decide) named whole settled inside) rfl)
  exact List.forall_mem_singleton.mpr fun _ => misses_call read other

/-! ## Lists -/

theorem misses_list {list item : Rule}
    (shape : list.pattern = text ['['] ++ commaSeparated (rule item) ++ text [']'])
    (free : list.spacing = .free) (whole : c.rest = '[' :: rest) (settled : pastGap rest = rest)
    (refused : (rule item).Misses (c.skip ['['])) : (rule list).Misses c := by
  have behind : (c.skip ['[']).rest = rest := rest_skip_of_cons whole
  have still : (c.skip ['[']).skipGap = c.skip ['['] := skipGap_of_settled (by rw [behind, settled])
  have opens : (text ['[']).Finds c [] (c.skip ['[']) := finds_text ⟨_, whole.symm⟩
  refine .rule ?_ free
  rw [shape]
  exact .seq (opens.seq_misses (.seq (still.symm ▸ refused)))

theorem finds_numberArray (whole : c.rest = '[' :: (s ++ ']' :: rest))
    (settled : pastGap (s ++ ']' :: rest) = s ++ ']' :: rest)
    (inside : (commaSeparated (rule .numberElement)).Finds (c.skip ['[']) nodes ((c.skip ['[']).skip s)) :
    primary.Finds c [.mk .numberArray c (((c.skip ['[']).skip s).skip [']']) nodes]
      (((c.skip ['[']).skip s).skip [']']) := by
  have opens : c.rest.head? = some '[' := by rw [whole]; rfl
  exact finds_primary_alone (primaryRules.take 8) _ (primaryRules.take_append_drop 8).symm opens
    (by decide) (Finds.rule (finds_enclosed (by decide) whole settled inside) rfl)

/-- A list that begins with a quote is none of numbers. -/
theorem misses_numberArray {quote : Char} (isQuote : quote = '"' ∨ quote = '\'')
    (whole : c.rest = '[' :: quote :: rest) : (rule .numberArray).Misses c := by
  have plain : isBlank quote = false ∧ quote ≠ '/' ∧ quote ≠ '-' ∧ quote.isDigit = false := by
    rcases isQuote with rfl | rfl <;> decide
  have behind : (c.skip ['[']).rest = quote :: rest := rest_skip_of_cons whole
  have bare : digitsOf (quote :: rest) = [] := digitsOf_eq_nil_iff.mpr (by simp [plain.2.2.2])
  refine misses_list rfl rfl whole
    (pastGap_solid plain.1 fun slash => absurd slash plain.2.1) (misses_sealed rfl ?_)
  rw [behind]
  exact (Lexical.numberOf_other (by simp [plain.2.2.1])).trans (if_pos bare)

theorem finds_charArray (whole : c.rest = '[' :: (s ++ ']' :: rest)) (quote : s.head? = some '\'')
    (inside : (commaSeparated (rule .charLiteral)).Finds (c.skip ['[']) nodes ((c.skip ['[']).skip s)) :
    primary.Finds c [.mk .charArray c (((c.skip ['[']).skip s).skip [']']) nodes]
      (((c.skip ['[']).skip s).skip [']']) := by
  obtain ⟨s, rfl⟩ := List.head?_eq_some_iff.mp quote
  have opens : c.rest.head? = some '[' := by rw [whole]; rfl
  refine finds_primary (primaryRules.take 9) _ (primaryRules.take_append_drop 9).symm opens ?_
    (Finds.rule (finds_enclosed (by decide) whole (pastGap_of_head rfl) inside) rfl)
  intro r member same
  have rival : ∀ r ∈ primaryRules.take 9, opener r '[' = true → r = .numberArray := by decide
  rw [rival r member same]
  exact misses_numberArray (.inr rfl) whole

theorem finds_strArray (whole : c.rest = '[' :: (s ++ ']' :: rest)) (quote : s.head? = some '"')
    (inside : (commaSeparated (rule .string)).Finds (c.skip ['[']) nodes ((c.skip ['[']).skip s)) :
    primary.Finds c [.mk .strArray c (((c.skip ['[']).skip s).skip [']']) nodes]
      (((c.skip ['[']).skip s).skip [']']) := by
  obtain ⟨s, rfl⟩ := List.head?_eq_some_iff.mp quote
  have opens : c.rest.head? = some '[' := by rw [whole]; rfl
  have behind : (c.skip ['[']).rest = '"' :: (s ++ ']' :: rest) := rest_skip_of_cons whole
  refine finds_primary (primaryRules.take 10) _ (primaryRules.take_append_drop 10).symm opens ?_
    (Finds.rule (finds_enclosed (by decide) whole (pastGap_of_head rfl) inside) rfl)
  intro r member same
  have rivals : ∀ r ∈ primaryRules.take 10, opener r '[' = true →
      r = .numberArray ∨ r = .charArray := by decide
  rcases rivals r member same with rfl | rfl
  · exact misses_numberArray (.inl rfl) whole
  · refine misses_list rfl rfl whole (pastGap_of_head rfl) ?_
    have other : (c.skip ['[']).rest.head? ≠ some '\'' := by
      rw [behind]
      simp
    exact misses_quoted rfl rfl rfl other

/-! ## Operators -/

theorem finds_minus (whole : c.rest = '-' :: rest) :
    prefixSign.Finds c [.mk (.unaryOperator .negate) c (c.skip ['-']) []] (c.skip ['-']) := by
  have minus : (rule (.unaryOperator .negate)).Finds c _ (c.skip ['-']) :=
    Finds.rule (finds_text ⟨_, whole.symm⟩) rfl
  exact minus.left

theorem misses_minus (other : c.rest.head? ≠ some '-') : (rule (.unaryOperator .negate)).Misses c :=
  .rule (misses_text_singleton other) rfl

theorem finds_prefixSign (operator : UnaryOperator)
    (whole : c.rest = operator.symbol.toList ++ ' ' :: rest) :
    prefixSign.Finds c [.mk (.unaryOperator operator) c (c.skip operator.symbol.toList) []]
      (c.skip operator.symbol.toList) := by
  cases operator with
  | negate => exact finds_minus whole
  | not =>
    have read : Rule.scan (.unaryOperator .not) c.rest = some "not".toList := by
      rw [whole]
      exact wordAmong_append (List.mem_singleton_self _) (by decide) rfl
    refine (misses_minus ?_).right (finds_sealed rfl read)
    rw [whole]
    simp [UnaryOperator.symbol]

/-- No operator stands before an operand that begins with neither a minus sign nor the letter of
`not`. -/
theorem misses_prefixSign {d : Char} (opens : c.rest.head? = some d) (minus : d ≠ '-') (other : d ≠ 'n') :
    prefixSign.Misses c := by
  refine (misses_minus (by simp [opens, minus])).alt (misses_sealed rfl (if_neg fun listed => ?_))
  obtain ⟨rest, whole⟩ := List.head?_eq_some_iff.mp opens
  rw [List.map_singleton, List.mem_singleton, whole] at listed
  have first : (wordOf (d :: rest)).head? = some 'n' := by rw [listed]; rfl
  rw [wordOf, List.takeWhile_cons] at first
  split at first
  · exact other (Option.some.inj first)
  · cases first

theorem misses_prefixSign_of_name (named : nameOf c.rest = some s) : prefixSign.Misses c := by
  obtain ⟨d, rest, whole, start⟩ := Lexical.exists_cons (opens_of_nameOf named)
  refine (misses_minus ?_).alt (misses_sealed rfl (wordAmong_of_nameOf (by decide) named))
  rw [whole]
  rintro ⟨⟩
  exact absurd start (by decide)

/-- The operators between operands in the order in which they are tried. -/
def infixOperators : List BinaryOperator :=
  [.or, .and, .equal, .notEqual, .lessEqual, .greaterEqual, .less, .greater, .add, .subtract, .multiply,
    .divide]

/-- Whether the text begins with the operator. -/
def begins (operator : BinaryOperator) (text : List Char) : Bool :=
  match operator with
  | .or | .and => (wordAmong [operator.symbol] text).isSome
  | _ => operator.symbol.toList.isPrefixOf text

theorem misses_binaryOperator {operator : BinaryOperator} (absent : begins operator c.rest = false) :
    (rule (.binaryOperator operator)).Misses c := by
  cases operator with
  | or | and => exact misses_sealed rfl (Option.not_isSome_iff_eq_none.mp (Bool.eq_false_iff.mp absent))
  | _ =>
    refine .rule (misses_text fun within => ?_) rfl
    exact Bool.false_ne_true (absent.symm.trans (List.isPrefixOf_iff_prefix.mpr within))

theorem finds_binaryOperator {operator : BinaryOperator}
    (whole : c.rest = operator.symbol.toList ++ ' ' :: rest) :
    (rule (.binaryOperator operator)).Finds c
      [.mk (.binaryOperator operator) c (c.skip operator.symbol.toList) []]
      (c.skip operator.symbol.toList) := by
  cases operator with
  | or | and =>
    refine finds_sealed rfl ?_
    rw [whole]
    exact wordAmong_append (List.mem_singleton_self _) (by decide) rfl
  | _ => exact Finds.rule (finds_text ⟨_, whole.symm⟩) rfl

theorem finds_infixSign (operator : BinaryOperator)
    (whole : c.rest = operator.symbol.toList ++ ' ' :: rest) :
    infixSign.Finds c [.mk (.binaryOperator operator) c (c.skip operator.symbol.toList) []]
      (c.skip operator.symbol.toList) := by
  have earlier : (infixOperators.takeWhile (· != operator)).all
      (fun other => !begins other c.rest) = true := by
    rw [whole]
    cases operator <;> rfl
  rw [List.all_eq_true] at earlier
  refine finds_of_rules ((infixOperators.takeWhile (· != operator)).map .binaryOperator)
    ((infixOperators.dropWhile (· != operator)).tail.map .binaryOperator) (by cases operator <;> rfl)
    (List.forall_mem_map.mpr fun other member => ?_) (finds_binaryOperator whole)
  exact misses_binaryOperator (by simpa using earlier other member)

/-- What stands behind an expression that is not itself an operand. -/
def ClosesExpression (rest : List Char) : Prop :=
  rest.head?.all ([')', ']', ',', ';'].contains ·) = true

theorem ClosesExpression.cases (closes : ClosesExpression rest) :
    rest = [] ∨ (∃ more, rest = ')' :: more) ∨ (∃ more, rest = ']' :: more) ∨
      (∃ more, rest = ',' :: more) ∨ ∃ more, rest = ';' :: more := by
  cases rest with
  | nil => exact .inl rfl
  | cons d rest => simpa [ClosesExpression] using closes

theorem ClosesExpression.settled (closes : ClosesExpression rest) : pastGap rest = rest := by
  rcases closes.cases with rfl | ⟨more, rfl⟩ | ⟨more, rfl⟩ | ⟨more, rfl⟩ | ⟨more, rfl⟩ <;>
    exact pastGap_of_head rfl

theorem ClosesExpression.endsOperand (closes : ClosesExpression rest) : EndsOperand rest := by
  rw [EndsOperand, closes.settled]
  rcases closes.cases with rfl | ⟨more, rfl⟩ | ⟨more, rfl⟩ | ⟨more, rfl⟩ | ⟨more, rfl⟩ <;>
    exact ⟨rfl, rfl⟩

theorem misses_infixSign (closes : ClosesExpression c.rest) : infixSign.Misses c := by
  have absent (operator : BinaryOperator) : begins operator c.rest = false := by
    rcases closes.cases with same | ⟨more, same⟩ | ⟨more, same⟩ | ⟨more, same⟩ | ⟨more, same⟩ <;>
      rw [same] <;> cases operator <;> rfl
  have listed : infixSign.alternatives = (infixOperators.map .binaryOperator).map rule := rfl
  exact misses_of_rules listed
    (List.forall_mem_map.mpr fun operator _ => misses_binaryOperator (absent operator))

/-! ## Expressions -/

/-- No expression begins where neither a minus sign, a word nor another operand does. -/
theorem misses_expression (settled : pastGap c.rest = c.rest) (minus : c.rest.head? ≠ some '-')
    (wordless : c.rest.head?.any isWordStart = false)
    (shut : ∀ r ∈ primaryRules, c.rest.head?.any (opener r) = false) : (rule .expression).Misses c := by
  have unsigned : prefixSign.Misses c :=
    (misses_minus minus).alt (misses_sealed rfl (wordAmong_eq_none (by decide) wordless))
  have listed : primary.alternatives = primaryRules.map rule := rfl
  have operandless : primary.Misses c :=
    misses_of_rules listed fun r member => misses_of_opener member (shut r member)
  have still : c.skipGap = c := skipGap_of_settled settled
  exact .rule (.seq (unsigned.many.seq_misses (still.symm ▸ operandless))) rfl

theorem finds_operand (refused : prefixSign.Misses c) (settled : pastGap c.rest = c.rest)
    (found : primary.Finds c nodes stop) : operand.Finds c nodes stop :=
  refused.many.next settled found

theorem finds_operand_signed (found : prefixSign.Finds c [sign] middle)
    (refused : prefixSign.Misses middle.skipGap) (found' : primary.Finds middle.skipGap nodes stop) :
    operand.Finds c (sign :: nodes) stop :=
  (found.many refused.done).seq found'

theorem finds_expression (found : operand.Finds c nodes stop) (closes : ClosesExpression stop.rest) :
    (rule .expression).Finds c [.mk .expression c stop nodes] stop := by
  have refused : (infixSign ++ operand).Misses stop := .seq (misses_infixSign closes)
  have whole := found.next closes.settled refused.many
  rw [List.append_nil] at whole
  exact .rule whole rfl

theorem finds_expression_binary (left : operand.Finds c nodes middle)
    (found : infixSign.Finds middle.skipGap [sign] behind) (right : operand.Finds behind.skipGap more stop)
    (closes : ClosesExpression stop.rest) :
    (rule .expression).Finds c [.mk .expression c stop (nodes ++ sign :: more)] stop := by
  have settled : stop.skipGap = stop := skipGap_of_settled closes.settled
  have refused : (infixSign ++ operand).Misses stop.skipGap := by
    rw [settled]
    exact .seq (misses_infixSign closes)
  have others := (found.seq right).many refused.done
  rw [List.append_nil, List.singleton_append] at others
  exact .rule (left.seq others) rfl

/-! ## Operators between spaces -/

theorem pastGap_symbol (operator : BinaryOperator) (rest : List Char) :
    pastGap (operator.symbol.toList ++ ' ' :: rest) = operator.symbol.toList ++ ' ' :: rest := by
  cases operator with
  | divide => exact pastGap_solid rfl fun _ => nofun
  | _ => exact pastGap_of_head rfl

theorem skipGap_space {text : List Char} (whole : c.rest = ' ' :: text)
    (settled : pastGap text = text) : c.skipGap = c.skip [' '] :=
  skipGap_of_gap (.blank rfl .nil) whole settled

theorem endsOperand_symbol (operator : BinaryOperator) (rest : List Char) :
    EndsOperand (' ' :: (operator.symbol.toList ++ ' ' :: rest)) := by
  refine ⟨rfl, ?_⟩
  rw [pastGap_blank rfl, pastGap_symbol]
  cases operator <;> rfl

/-- An operator in front of an operand. -/
theorem finds_spaced_unary (operator : UnaryOperator) {t : List Char} {n : Node}
    (whole : c.rest = operator.symbol.toList ++ ' ' :: (t ++ rest))
    (settled : pastGap (t ++ rest) = t ++ rest)
    (unsigned : prefixSign.Misses ((c.skip operator.symbol.toList).skip [' ']))
    (found : primary.Finds ((c.skip operator.symbol.toList).skip [' ']) [n]
      (((c.skip operator.symbol.toList).skip [' ']).skip t))
    (closes : ClosesExpression rest) :
    (rule .expression).Finds c
      [.mk .expression c (c.skip (operator.symbol.toList ++ ' ' :: t))
        [.mk (.unaryOperator operator) c (c.skip operator.symbol.toList) [], n]]
      (c.skip (operator.symbol.toList ++ ' ' :: t)) := by
  have front : (c.skip operator.symbol.toList).rest = ' ' :: (t ++ rest) :=
    rest_skip_of_append whole
  have gap := skipGap_space front settled
  have stops : ((c.skip operator.symbol.toList).skip [' ']).skip t =
      c.skip (operator.symbol.toList ++ ' ' :: t) := by
    rw [← skip_append, ← skip_append]
    simp
  have left : (((c.skip operator.symbol.toList).skip [' ']).skip t).rest = rest :=
    rest_skip_of_append (rest_skip_of_cons front)
  rw [stops] at found left
  rw [← gap] at unsigned found
  exact finds_expression (finds_operand_signed (finds_prefixSign operator whole) unsigned found)
    (by rwa [left])

/-- An operator between two operands. -/
theorem finds_spaced_binary (operator : BinaryOperator) {t u : List Char} {n m : Node}
    (whole : c.rest = t ++ ' ' :: (operator.symbol.toList ++ ' ' :: (u ++ rest)))
    (settled : pastGap (u ++ rest) = u ++ rest) (first : operand.Finds c [n] (c.skip t))
    (second : operand.Finds ((((c.skip t).skip [' ']).skip operator.symbol.toList).skip [' ']) [m]
      (((((c.skip t).skip [' ']).skip operator.symbol.toList).skip [' ']).skip u))
    (closes : ClosesExpression rest) :
    (rule .expression).Finds c
      [.mk .expression c (c.skip (t ++ ' ' :: (operator.symbol.toList ++ ' ' :: u)))
        [n, .mk (.binaryOperator operator) ((c.skip t).skip [' '])
          (((c.skip t).skip [' ']).skip operator.symbol.toList) [], m]]
      (c.skip (t ++ ' ' :: (operator.symbol.toList ++ ' ' :: u))) := by
  have front : (c.skip t).rest = ' ' :: (operator.symbol.toList ++ ' ' :: (u ++ rest)) :=
    rest_skip_of_append whole
  have inner : ((c.skip t).skip [' ']).rest = operator.symbol.toList ++ ' ' :: (u ++ rest) :=
    rest_skip_of_cons front
  have back : (((c.skip t).skip [' ']).skip operator.symbol.toList).rest = ' ' :: (u ++ rest) :=
    rest_skip_of_append inner
  have stops : ((((c.skip t).skip [' ']).skip operator.symbol.toList).skip [' ']).skip u =
      c.skip (t ++ ' ' :: (operator.symbol.toList ++ ' ' :: u)) := by
    simp only [← skip_append]
    simp
  have left : (((((c.skip t).skip [' ']).skip operator.symbol.toList).skip [' ']).skip u).rest = rest :=
    rest_skip_of_append (rest_skip_of_cons back)
  have sign := finds_infixSign operator inner
  rw [stops] at second left
  rw [← skipGap_space back settled] at second
  exact finds_expression_binary first ((skipGap_space front (pastGap_symbol operator _)).symm ▸ sign) second
    (by rwa [left])

end Pattern

end CheckedScript.Grammar
