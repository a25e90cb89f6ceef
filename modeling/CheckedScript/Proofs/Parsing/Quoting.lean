import CheckedScript.Proofs.Listing.Escapes
import CheckedScript.Proofs.Ast.Layout
import CheckedScript.Proofs.Parsing.Found

/-!
# Writing quoted literals

A text whose special characters are written as escapes is found as a whole between its quotes and
resolved to itself, whatever characters it holds. So a string, a character, and a list of either is what
the parser reads of the literal that writes it (`parseExpression_quoted`).
-/

namespace CheckedScript

theorem Cursor.prefix_ofText (text : List Char) : text <+: (ofText text).rest := List.prefix_rfl

/-- The span of a text that stands alone. -/
def Span.whole (text : String) : Span := ⟨0, text.utf8ByteSize, 1, 1⟩

theorem Span.between_ofText (text : String) :
    Span.between (Cursor.ofText text.toList).position
      ((Cursor.ofText text.toList).skip text.toList).position = .whole text := by
  have stop : (Position.origin.advanceBy text.toList).offset = text.utf8ByteSize := by
    rw [Position.offset_advanceBy, byteCount_toList]
    exact Nat.zero_add _
  change Span.mk 0 (Position.origin.advanceBy text.toList).offset 1 1 = _
  rw [stop, whole]

namespace Parsing

open Grammar Text

/-- The letter of the escape that stands for a character. -/
def escapeLetter? : (c : Char) → Option Char
  | '\n' => some 'n'
  | '\t' => some 't'
  | '\r' => some 'r'
  | '\x00' => some '0'
  | '\\' => some '\\'
  | '"' => some '"'
  | '\'' => some '\''
  | _ => none

/-- A character, or the escape that stands for it. -/
def escapeOf (c : Char) : List Char :=
  match escapeLetter? c with
  | some letter => ['\\', letter]
  | none => [c]

/-- A text with all escapes that there are for its characters. -/
def escaped (text : List Char) : List Char := text.flatMap escapeOf

def stringText (s : String) : String := .ofList ('"' :: (escaped s.toList ++ ['"']))

def charText (c : Char) : String := .ofList ('\'' :: (escapeOf c ++ ['\'']))

/-- Items in brackets, with a comma and a gap between them. -/
def listText (gap : String) (items : List String) : String :=
  "[" ++ ("," ++ gap).intercalate items ++ "]"

/-! ## Escapes -/

variable {quote c : Char} {text rest value gap : List Char}

theorem escapeValue?_of_escapeLetter? {letter : Char} (known : escapeLetter? c = some letter) :
    escapeValue? letter = some c := by
  unfold escapeLetter? at known
  split at known <;> cases known <;> rfl

theorem isPlain_of_escapeLetter? (quotes : IsQuote quote) (none : escapeLetter? c = none) :
    isPlain quote c = true := by
  have other {d : Char} (special : escapeLetter? d ≠ .none) : c ≠ d := by
    rintro rfl
    exact special none
  have apart : c ≠ quote := by
    rcases quotes with rfl | rfl
    · exact other (by decide)
    · exact other (by decide)
  simp [isPlain, apart, other (d := '\\') (by decide), other (d := '\n') (by decide)]

theorem escaped_escapeOf (quotes : IsQuote quote) (c : Char) : Escaped quote c (escapeOf c) := by
  unfold escapeOf
  split
  · next known => exact .letter (escapeValue?_of_escapeLetter? known)
  · next none => exact .plain (isPlain_of_escapeLetter? quotes none)

theorem unescape_escapeOf (c : Char) (rest : List Char) :
    unescape (escapeOf c ++ rest) = (unescape rest).map (c :: ·) := by
  unfold escapeOf
  split
  · next letter known =>
    rw [List.cons_append, List.singleton_append, unescape, escapeValue?_of_escapeLetter? known]
  · next none =>
    have solid := ne_backslash_of_isPlain (isPlain_of_escapeLetter? (.inl rfl) none)
    rw [List.singleton_append,
      unescape.eq_4 _ _ (fun _ _ same => absurd same solid) (fun same => absurd same solid)]

theorem unescape_escaped (text : List Char) : unescape (escaped text) = .ok text := by
  induction text with
  | nil => rfl
  | cons c text ih =>
    rw [escaped, List.flatMap_cons, unescape_escapeOf, ← escaped, ih]
    rfl

/-- The quote that closes a text is the one behind its escapes. -/
theorem unitsOf_escaped (quotes : IsQuote quote) (text rest : List Char) :
    unitsOf quote (escaped text ++ quote :: rest) = escaped text := by
  induction text with
  | nil =>
    rw [escaped, List.flatMap_nil, List.nil_append]
    rcases quotes with rfl | rfl <;> rfl
  | cons c text ih =>
    rw [escaped, List.flatMap_cons, List.append_assoc,
      (escaped_escapeOf quotes c).unitsOf_append quotes, ← escaped, ih]

theorem unitOf_escapeOf (quotes : IsQuote quote) (c : Char) (rest : List Char) :
    unitOf quote (escapeOf c ++ rest) = some (escapeOf c) := by
  unfold escapeOf
  split
  · rfl
  · next none =>
    have plain := isPlain_of_escapeLetter? quotes none
    rw [List.singleton_append, unitOf_cons (ne_backslash_of_isPlain plain), if_pos plain]

/-! ## Quoted literals -/

/-- The tree of a literal that stands between quotes. -/
def quotedNode (name content : Rule) (quote : Char) (inside : List Char) (c : Cursor) : Node :=
  .mk name c (c.skip (quote :: (inside ++ [quote])))
    [.mk content (c.skip [quote]) (c.skip (quote :: inside)) []]

theorem readQuoted_quotedNode {name content : Rule} {inside : List Char} {c : Cursor}
    (rest : c.rest = quote :: (inside ++ text)) (resolved : unescape inside = .ok value) :
    readQuoted (quotedNode name content quote inside c) = .ok value := by
  have covers : (c.skip [quote]).textUpTo (c.skip (quote :: inside)) = inside := by
    have split : c.skip (quote :: inside) = (c.skip [quote]).skip inside :=
      Cursor.skip_append c [quote] inside
    rw [split]
    exact Cursor.textUpTo_skip ⟨text, (Cursor.rest_skip_of_cons rest).symm⟩
  rw [readQuoted, quotedNode, Node.children]
  dsimp only [Node.characters, Node.start, Node.stop]
  rw [covers, resolved]
  rfl

theorem finds_stringText (s : String) {c : Cursor} (within : (stringText s).toList <+: c.rest) :
    ∃ n, (Pattern.rule .string).Finds c [n] (c.skip (stringText s).toList) ∧ n.rule = .string ∧
      n.span = .between c.position (c.skip (stringText s).toList).position ∧ readString n = .ok s := by
  obtain ⟨rest, whole⟩ := within
  rw [stringText, String.toList_ofList] at whole ⊢
  have whole : c.rest = '"' :: (escaped s.toList ++ '"' :: rest) := by simpa using whole.symm
  have content : Rule.scan .stringContent (escaped s.toList ++ '"' :: rest) = some (escaped s.toList) :=
    congrArg some (unitsOf_escaped (.inl rfl) s.toList rest)
  have found : (Pattern.rule .string).Finds c
      [quotedNode .string .stringContent '"' (escaped s.toList) c]
      (c.skip ('"' :: (escaped s.toList ++ ['"']))) :=
    Pattern.finds_quoted rfl rfl rfl whole content
  have read : readQuoted (quotedNode .string .stringContent '"' (escaped s.toList) c) = .ok s.toList :=
    readQuoted_quotedNode whole (unescape_escaped s.toList)
  refine ⟨_, found, rfl, rfl, ?_⟩
  rw [readString, read]
  exact congrArg Except.ok s.ofList_toList

theorem finds_charText (d : Char) {c : Cursor} (within : (charText d).toList <+: c.rest) :
    ∃ n, (Pattern.rule .charLiteral).Finds c [n] (c.skip (charText d).toList) ∧ n.rule = .charLiteral ∧
      n.span = .between c.position (c.skip (charText d).toList).position ∧ readChar n = .ok d := by
  obtain ⟨rest, whole⟩ := within
  rw [charText, String.toList_ofList] at whole ⊢
  have whole : c.rest = '\'' :: (escapeOf d ++ '\'' :: rest) := by simpa using whole.symm
  have content : Rule.scan .charContent (escapeOf d ++ '\'' :: rest) = some (escapeOf d) :=
    unitOf_escapeOf (.inr rfl) d _
  have found : (Pattern.rule .charLiteral).Finds c [quotedNode .charLiteral .charContent '\'' (escapeOf d) c]
      (c.skip ('\'' :: (escapeOf d ++ ['\'']))) :=
    Pattern.finds_quoted rfl rfl rfl whole content
  have resolved : unescape (escapeOf d) = .ok [d] := by
    have alone := unescape_escapeOf d []
    rwa [List.append_nil] at alone
  have read : readQuoted (quotedNode .charLiteral .charContent '\'' (escapeOf d) c) = .ok [d] :=
    readQuoted_quotedNode whole resolved
  refine ⟨_, found, rfl, rfl, ?_⟩
  rw [readChar, read]
  rfl

/-! ## Whole texts -/

theorem readPrimary_string {n : Node} {s : String} (named : n.rule = .string)
    (read : readString n = .ok s) : readPrimary n = .ok (.str s n.span) := by
  obtain ⟨rule, start, stop, children⟩ := n
  obtain rfl : rule = .string := named
  rw [readPrimary, read]
  rfl

theorem readPrimary_charLiteral {n : Node} {d : Char} (named : n.rule = .charLiteral)
    (read : readChar n = .ok d) : readPrimary n = .ok (.char d n.span) := by
  obtain ⟨rule, start, stop, children⟩ := n
  obtain rfl : rule = .charLiteral := named
  rw [readPrimary, read]
  rfl

theorem parseExpression_stringText (s : String) :
    parseExpression (stringText s) = .ok (.str s (.whole (stringText s))) := by
  have opens : (stringText s).toList.head? = some '"' := by rw [stringText, String.toList_ofList]; rfl
  obtain ⟨n, found, named, placed, read⟩ := finds_stringText s (Cursor.prefix_ofText _)
  generalize stringText s = source at *
  rw [parseExpression_of_primary opens (by decide) (Pattern.finds_string opens found) (by rw [named]; rfl),
    readPrimary_string named read, placed, Span.between_ofText]

theorem parseExpression_charText (d : Char) :
    parseExpression (charText d) = .ok (.char d (.whole (charText d))) := by
  have opens : (charText d).toList.head? = some '\'' := by rw [charText, String.toList_ofList]; rfl
  obtain ⟨n, found, named, placed, read⟩ := finds_charText d (Cursor.prefix_ofText _)
  generalize charText d = source at *
  rw [parseExpression_of_primary opens (by decide) (Pattern.finds_charLiteral opens found)
    (by rw [named]; rfl), readPrimary_charLiteral named read, placed, Span.between_ofText]

/-- A list is parsed to what is read of its items where each of them is found and read. -/
theorem parseExpression_list {α : Type} {item list : Rule} {read : Node → Except ParseError α}
    {spell : α → String} {gap : String} (isGap : Cursor.Gap gap.toList) {xs : List α} (some : xs ≠ [])
    {d : Char} (opens : ∀ x, (spell x).toList.head? = .some d)
    (plain : (!Cursor.isBlank d && d != '/') = true)
    (each : ∀ x (c : Cursor), (spell x).toList <+: c.rest →
      ∃ n, (Pattern.rule item).Finds c [n] (c.skip (spell x).toList) ∧ read n = .ok x)
    (finds : ∀ {c : Cursor} {inside : List Char} {nodes : List Node},
      c.rest = '[' :: (inside ++ [']']) → inside.head? = .some d →
      (Pattern.commaSeparated (.rule item)).Finds (c.skip ['[']) nodes ((c.skip ['[']).skip inside) →
      primary.Finds c [.mk list c (((c.skip ['[']).skip inside).skip [']']) nodes]
        (((c.skip ['[']).skip inside).skip [']']))
    (isPrimary : list.isPrimary = true) :
    ∃ start stop nodes, nodes.mapM read = .ok xs ∧
      Span.between start.position stop.position = .whole (listText gap (xs.map spell)) ∧
      parseExpression (listText gap (xs.map spell)) = readPrimary (.mk list start stop nodes) := by
  let inside := (',' :: gap.toList).intercalate (xs.map fun x => (spell x).toList)
  have same : (listText gap (xs.map spell)).toList = '[' :: (inside ++ [']']) := by
    simp [listText, inside, String.toList_intercalate, Function.comp_def]
  have first : inside.head? = .some d := by
    obtain ⟨x, xs, rfl⟩ := List.exists_cons_of_ne_nil some
    obtain ⟨more, known⟩ := List.head?_eq_some_iff.mp (opens x)
    have front : inside = _ := Pattern.intercalate_map_cons (',' :: gap.toList) x xs
    rw [front, known]
    rfl
  have settled : ∀ x ∈ xs, ∀ rest, Cursor.pastGap ((spell x).toList ++ rest) = (spell x).toList ++ rest := by
    intro x _ rest
    refine Cursor.pastGap_of_head ?_
    obtain ⟨more, known⟩ := List.head?_eq_some_iff.mp (opens x)
    rw [known]
    exact plain
  have each' : Pattern.FindsEach (.rule item) (fun x => (spell x).toList) (fun _ => True)
      (fun x n => read n = .ok x) xs :=
    fun x _ c rest here _ => each x c ⟨rest, here.symm⟩
  generalize listText gap (xs.map spell) = source at *
  have whole : (Cursor.ofText source.toList).rest = '[' :: (inside ++ [']']) := same
  have behind : ((Cursor.ofText source.toList).skip ['[']).rest = inside ++ ']' :: [] :=
    Cursor.rest_skip_of_cons whole
  obtain ⟨nodes, found, readAll⟩ :=
    finds_items each' isGap settled (fun _ => trivial) trivial some behind
  have listed := finds whole first found
  rw [skip_enclosed, ← same] at listed
  exact ⟨_, _, nodes, readAll, Span.between_ofText source,
    parseExpression_of_primary (by rw [same]; rfl) (by decide) listed isPrimary⟩

theorem parseExpression_strings {gap : String} (isGap : Cursor.Gap gap.toList) {ss : List String}
    (some : ss ≠ []) :
    parseExpression (listText gap (ss.map stringText)) =
      .ok (.strArray ss (.whole (listText gap (ss.map stringText)))) := by
  have opens (s : String) : (stringText s).toList.head? = .some '"' := by
    rw [stringText, String.toList_ofList]
    rfl
  obtain ⟨start, stop, nodes, read, placed, parsed⟩ := parseExpression_list isGap some opens (by decide)
    (fun s c within => (finds_stringText s within).imp fun n all => ⟨all.1, all.2.2.2⟩)
    Pattern.finds_strArray rfl
  rw [parsed, readPrimary, read, ← placed]
  rfl

theorem parseExpression_chars {gap : String} (isGap : Cursor.Gap gap.toList) {cs : List Char}
    (some : cs ≠ []) :
    parseExpression (listText gap (cs.map charText)) =
      .ok (.charArray cs (.whole (listText gap (cs.map charText)))) := by
  have opens (d : Char) : (charText d).toList.head? = .some '\'' := by
    rw [charText, String.toList_ofList]
    rfl
  obtain ⟨start, stop, nodes, read, placed, parsed⟩ := parseExpression_list isGap some opens (by decide)
    (fun d c within => (finds_charText d within).imp fun n all => ⟨all.1, all.2.2.2⟩)
    Pattern.finds_charArray rfl
  rw [parsed, readPrimary, read, ← placed]
  rfl

/-- Every string, every character and every list of either is what is parsed of the literal that writes
it, over the whole text. -/
theorem parseExpression_quoted :
    (∀ s : String, parseExpression (stringText s) = .ok (.str s (.whole (stringText s)))) ∧
      (∀ c : Char, parseExpression (charText c) = .ok (.char c (.whole (charText c)))) ∧
      ∀ gap : String, Cursor.Gap gap.toList →
        (∀ ss : List String, ss ≠ [] →
          parseExpression (listText gap (ss.map stringText)) =
            .ok (.strArray ss (.whole (listText gap (ss.map stringText))))) ∧
        ∀ cs : List Char, cs ≠ [] →
          parseExpression (listText gap (cs.map charText)) =
            .ok (.charArray cs (.whole (listText gap (cs.map charText)))) :=
  ⟨parseExpression_stringText, parseExpression_charText, fun _ isGap =>
    ⟨fun _ some => parseExpression_strings isGap some, fun _ some => parseExpression_chars isGap some⟩⟩

/-- Quotes, brackets, slashes and a backslash at the end of a text do not close it early. -/
theorem parseExpression_quoted_marks :
    stringText "\"]//\\" = "\"\\\"]//\\\\\"" ∧
      parseExpression (listText " " (["\"]//\\", "é\n"].map stringText)) =
        .ok (.strArray ["\"]//\\", "é\n"] (.whole "[\"\\\"]//\\\\\", \"é\\n\"]")) ∧
      parseExpression (listText "" (['\'', '"'].map charText)) =
        .ok (.charArray ['\'', '"'] (.whole "['\\'','\\\"']")) := by
  refine ⟨by decide, ?_, ?_⟩
  · exact (parseExpression_quoted.2.2 " " (.blank rfl .nil)).1 ["\"]//\\", "é\n"] (by simp)
  · exact (parseExpression_quoted.2.2 "" .nil).2 ['\'', '"'] (by simp)

end Parsing

end CheckedScript
