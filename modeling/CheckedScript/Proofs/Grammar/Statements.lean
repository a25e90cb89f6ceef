import CheckedScript.Ast.Name
import CheckedScript.Proofs.Grammar.Operands

/-!
# Statements in a given text

A statement is what the first of its rules finds that is not refused. Most of them begin with a word of
their own, and a longer word that begins alike is another word (`misses_worded`). What stands behind a
name or a type tells the others apart.
-/

namespace CheckedScript.Grammar.Pattern

open Cursor

variable {c middle stop : Cursor} {nodes more : List Node} {first second item : Pattern} {name : Rule}
  {s t u rest : List Char}

/-- A single space between two parts. -/
theorem Finds.spaced (before : first.Finds c nodes middle) (gap : middle.rest = ' ' :: rest)
    (settled : pastGap rest = rest) (after : second.Finds (middle.skip [' ']) more stop) :
    (first ++ second).Finds c (nodes ++ more) stop :=
  before.seq ((skipGap_space gap settled).symm ▸ after)

theorem Misses.absent (refused : item.Misses c) : (absent item).Finds c [] c := ⟨[], .absent refused⟩

theorem finds_mark {d : Char} (whole : c.rest = d :: rest) : (text [d]).Finds c [] (c.skip [d]) :=
  finds_text ⟨_, whole.symm⟩

/-! ## The rules of statements -/

/-- The rules of statements in the order in which they are tried. -/
def statementRules : List Rule :=
  [.functionDeclaration, .recordTypeDeclaration, .ifStatement, .whileStatement, .tryStatement, .block,
    .breakStatement, .continueStatement, .returnStatement, .printStatement, .variableDeclaration,
    .fieldAssignment, .assignment, .recordInstanceDeclaration, .expressionStatement]

theorem statement_alternatives : statement.alternatives = statementRules.map rule := rfl

/-- The word that a statement of the rule opens with. -/
def openingWord : Rule → Option Keyword
  | .functionDeclaration => some .func
  | .recordTypeDeclaration => some .type
  | .ifStatement => some .if
  | .whileStatement => some .while
  | .tryStatement => some .try
  | .breakStatement => some .break
  | .continueStatement => some .continue
  | .returnStatement => some .return
  | .printStatement => some .print
  | _ => none

/-- The rules before those that open with a type, a name or an expression. -/
def wordedRules : List Rule := statementRules.take 10

theorem finds_keyword {word : Keyword} (whole : c.rest = word.text.toList ++ rest)
    (ended : rest.head?.all (!isWordChar ·) = true) :
    (rule (.keyword word)).Finds c [.mk (.keyword word) c (c.skip word.text.toList) []]
      (c.skip word.text.toList) := by
  refine finds_sealed rfl ?_
  rw [whole]
  exact wordAmong_append (List.mem_singleton_self _) (by cases word <;> decide) ended

theorem misses_keyword {word : Keyword} (other : wordOf c.rest ≠ word.text.toList) :
    (rule (.keyword word)).Misses c :=
  misses_sealed rfl (if_neg fun listed => other (List.mem_singleton.mp listed))

/-- A statement that opens with a word of its own is refused in front of every other word. -/
theorem misses_worded (listed : name ∈ wordedRules) (brace : c.rest.head? ≠ some '\x7b')
    (other : ∀ word, openingWord name = some word → wordOf c.rest ≠ word.text.toList) :
    (rule name).Misses c := by
  cases name with
  | functionDeclaration =>
    exact .rule (.seq (.seq (.seq (.seq (.seq (.seq (misses_keyword (other _ rfl)))))))) rfl
  | recordTypeDeclaration | ifStatement =>
    exact .rule (.seq (.seq (.seq (.seq (misses_keyword (other _ rfl)))))) rfl
  | tryStatement => exact .rule (.seq (.seq (.seq (misses_keyword (other _ rfl))))) rfl
  | whileStatement | returnStatement | printStatement =>
    exact .rule (.seq (.seq (misses_keyword (other _ rfl)))) rfl
  | breakStatement | continueStatement => exact .rule (.seq (misses_keyword (other _ rfl))) rfl
  | block => exact .rule (.seq (.seq (misses_text_singleton brace))) rfl
  | _ => simp [wordedRules, statementRules] at listed

theorem misses_typed (untyped : typeOf c.rest = none) : (rule .variableDeclaration).Misses c :=
  .rule (.seq (.seq (.seq (misses_sealed rfl untyped)))) rfl

/-- What is left between the statements of a text and its end, or that of a block. -/
def ClosesStatements (rest : List Char) : Prop := rest.head?.all (· == '\x7d') = true

/-- No statement begins where a block or the text ends. -/
theorem misses_statement (closes : ClosesStatements c.rest) : statement.Misses c := by
  have ends : c.rest = [] ∨ ∃ rest, c.rest = '\x7d' :: rest := by
    cases known : c.rest with
    | nil => exact .inl rfl
    | cons d rest => simpa [ClosesStatements, known] using closes
  have wordless : wordOf c.rest = [] := by rcases ends with same | ⟨rest, same⟩ <;> rw [same] <;> rfl
  have untyped : typeOf c.rest = none := by rcases ends with same | ⟨rest, same⟩ <;> rw [same] <;> rfl
  have shut : c.rest.head?.any isWordStart = false := by
    rcases ends with same | ⟨rest, same⟩ <;> rw [same] <;> rfl
  have brace : c.rest.head? ≠ some '\x7b' := by
    rcases ends with same | ⟨rest, same⟩ <;> simp [same]
  have unread : (rule .identifier).Misses c := misses_sealed rfl (nameOf_eq_none shut)
  have expressionless : (rule .expression).Misses c := by
    have none : ∀ r ∈ primaryRules, opener r '\x7d' = false := by decide
    rcases ends with same | ⟨rest, same⟩
    · exact misses_expression (by rw [same, pastGap_nil]) (by simp [same]) shut (by simp [same])
    · exact misses_expression (by rw [same, pastGap_of_head rfl]) (by simp [same]) shut
        (by simpa [same] using none)
  refine misses_of_rules statement_alternatives fun r member => ?_
  by_cases worded : r ∈ wordedRules
  · refine misses_worded worded brace fun word opens => ?_
    rw [wordless]
    cases word <;> nofun
  · have others : ∀ r ∈ statementRules, r ∉ wordedRules →
        r ∈ [Rule.variableDeclaration, .fieldAssignment, .assignment, .recordInstanceDeclaration,
          .expressionStatement] := by decide
    have left := others r member worded
    simp only [List.mem_cons, List.not_mem_nil, or_false] at left
    rcases left with rfl | rfl | rfl | rfl | rfl
    · exact misses_typed untyped
    · exact .rule (.seq (.seq (.seq (.seq (.seq unread))))) rfl
    · exact .rule (.seq (.seq (.seq unread))) rfl
    · exact .rule (.seq (.seq unread)) rfl
    · exact .rule (.seq expressionless) rfl

/-- A statement is what the first rule finds that is not refused. -/
theorem finds_statement (before after : List Rule) (listed : statementRules = before ++ name :: after)
    (refused : ∀ r ∈ before, (rule r).Misses c) (found : (rule name).Finds c nodes stop) :
    statement.Finds c nodes stop :=
  finds_of_rules before after (congrArg (List.map rule) listed) refused found

/-- In front of a word, the rules that open with other words are refused. -/
theorem misses_before_word {rules : List Rule} (within : ∀ r ∈ rules, r ∈ wordedRules)
    (opens : c.rest.head?.any isWordStart = true) (isWord : wordOf c.rest = u)
    (other : ∀ r ∈ rules, ∀ word, openingWord r = some word → u ≠ word.text.toList) :
    ∀ r ∈ rules, (rule r).Misses c := by
  intro r member
  refine misses_worded (within r member) ?_ (isWord.symm ▸ other r member)
  intro brace
  rw [brace] at opens
  exact absurd opens (by decide)

/-! ## Statements that begin with a type -/

/-- A type is spelled by a word, which brackets may follow. -/
theorem toList_typeText (type : TypeName) :
    type.text.toList = type.primitive.keyword.toList ++ if type.isArray then ['[', ']'] else [] := by
  obtain ⟨primitive, isArray, span⟩ := type
  cases isArray with
  | false => exact (List.append_nil _).symm
  | true => simp [TypeName.text]

theorem exists_brackets (type : TypeName) (rest : List Char) :
    ∃ brackets, type.text.toList = type.primitive.keyword.toList ++ brackets ∧
      (brackets ++ ' ' :: rest).head?.all (!isWordChar ·) = true ∧
        bracketsOf (brackets ++ ' ' :: rest) = brackets := by
  refine ⟨_, toList_typeText type, ?_, ?_⟩ <;> cases type.isArray
  · rfl
  · rfl
  · rfl
  · simp [bracketsOf]

theorem keyword_mem_typeWords (primitive : Primitive) :
    primitive.keyword ∈ typeWords ∧ primitive.keyword.toList.all isWordChar = true := by
  cases primitive <;> decide

theorem typeOf_append (type : TypeName) (rest : List Char) :
    typeOf (type.text.toList ++ ' ' :: rest) = some type.text.toList := by
  obtain ⟨brackets, spelled, ended, same⟩ := exists_brackets type rest
  obtain ⟨listed, all⟩ := keyword_mem_typeWords type.primitive
  rw [spelled, List.append_assoc, typeOf, wordAmong_append listed all ended, Option.map_some,
    dropWhile_append_ended all ended, same]

theorem wordOf_type (type : TypeName) (rest : List Char) :
    wordOf (type.text.toList ++ ' ' :: rest) = type.primitive.keyword.toList := by
  obtain ⟨brackets, spelled, ended, -⟩ := exists_brackets type rest
  rw [spelled, List.append_assoc]
  exact takeWhile_append_ended (keyword_mem_typeWords _).2 ended

theorem misses_before_type (type : TypeName) (whole : c.rest = type.text.toList ++ ' ' :: rest) :
    ∀ r ∈ wordedRules, (rule r).Misses c := by
  have isWord : wordOf c.rest = type.primitive.keyword.toList := whole ▸ wordOf_type type rest
  have reserved : ∀ primitive : Primitive, primitive.keyword ∈ reservedWords := by
    intro primitive
    cases primitive <;> decide
  have opens : c.rest.head?.any isWordStart = true := by
    refine Lexical.opens_of_reserved ?_
    rw [isWord]
    exact List.mem_map_of_mem (reserved _)
  refine misses_before_word (fun _ => id) opens isWord ?_
  cases type.primitive <;> decide

/-- The text is read as an expression wherever something closes it. -/
def FindsValue (e : List Char) (leaves : Node → Prop) : Prop :=
  ∀ (c : Cursor) (rest : List Char), c.rest = e ++ rest → ClosesExpression rest →
    ∃ n, (rule .expression).Finds c [n] (c.skip e) ∧ leaves n

section

variable {e : List Char} {leaves : Node → Prop} {type : TypeName}

theorem finds_typed (named : nameOf s = some s) (ended : rest.head?.all (!isWordChar ·) = true)
    (whole : c.rest = type.text.toList ++ ' ' :: (s ++ rest)) :
    (rule .typeName ++ rule .identifier).Finds c
      [.mk .typeName c (c.skip type.text.toList) [],
        .mk .identifier ((c.skip type.text.toList).skip [' '])
          (((c.skip type.text.toList).skip [' ']).skip s) []]
      (((c.skip type.text.toList).skip [' ']).skip s) := by
  have typed : (rule .typeName).Finds c _ (c.skip type.text.toList) :=
    finds_sealed rfl (whole ▸ typeOf_append type _)
  have gap : (c.skip type.text.toList).rest = ' ' :: (s ++ rest) := rest_skip_of_append whole
  have read : nameOf (s ++ rest) = some s := nameOf_append named ended
  have front : ((c.skip type.text.toList).skip [' ']).rest = s ++ rest := rest_skip_of_cons gap
  exact typed.spaced gap (pastGap_of_opens (opens_of_nameOf read)) (finds_sealed rfl (front ▸ read))

/-- A variable without an initial value. -/
theorem finds_declaration (named : nameOf s = some s)
    (whole : c.rest = type.text.toList ++ ' ' :: (s ++ ';' :: rest)) :
    ∃ stop, stop.rest = rest ∧ statement.Finds c
      [.mk .variableDeclaration c stop [.mk .typeName c (c.skip type.text.toList) [],
        .mk .identifier ((c.skip type.text.toList).skip [' '])
          (((c.skip type.text.toList).skip [' ']).skip s) []]] stop := by
  have front := finds_typed named rfl whole
  generalize ends : ((c.skip type.text.toList).skip [' ']).skip s = middle at *
  have back : middle.rest = ';' :: rest := by
    rw [← ends]
    exact rest_skip_of_append (rest_skip_of_cons (rest_skip_of_append whole))
  have settled : pastGap middle.rest = middle.rest := by
    rw [back]
    exact pastGap_of_head rfl
  have none : (word "=" ++ rule .expression).Misses middle :=
    .seq (misses_text_singleton (d := '=') (by simp [back]))
  have found := (front.next settled none.optional).next settled (finds_mark back)
  exact ⟨_, rest_skip_of_cons back, finds_statement wordedRules _ rfl (misses_before_type type whole)
    (.rule found rfl)⟩

/-- A variable with an initial value. -/
theorem finds_initialization (named : nameOf s = some s) (value : FindsValue e leaves)
    (settled : ∀ rest, pastGap (e ++ rest) = e ++ rest)
    (whole : c.rest = type.text.toList ++ ' ' :: (s ++ ' ' :: '=' :: ' ' :: (e ++ ';' :: rest))) :
    ∃ n stop, leaves n ∧ stop.rest = rest ∧ statement.Finds c
      [.mk .variableDeclaration c stop [.mk .typeName c (c.skip type.text.toList) [],
        .mk .identifier ((c.skip type.text.toList).skip [' '])
          (((c.skip type.text.toList).skip [' ']).skip s) [], n]] stop := by
  have front := finds_typed named rfl whole
  generalize ends : ((c.skip type.text.toList).skip [' ']).skip s = middle at *
  have back : middle.rest = ' ' :: '=' :: ' ' :: (e ++ ';' :: rest) := by
    rw [← ends]
    exact rest_skip_of_append (rest_skip_of_cons (rest_skip_of_append whole))
  have sign : (middle.skip [' ']).rest = '=' :: ' ' :: (e ++ ';' :: rest) := rest_skip_of_cons back
  have gap : ((middle.skip [' ']).skip ['=']).rest = ' ' :: (e ++ ';' :: rest) := rest_skip_of_cons sign
  have behind := rest_skip_of_cons gap
  obtain ⟨n, found, left⟩ := value _ _ behind rfl
  have ended := rest_skip_of_append behind
  have initial : (word "=" ++ rule .expression).Finds (middle.skip [' ']) ([] ++ [n]) _ :=
    (finds_mark sign).spaced gap (settled _) found
  have both := (front.spaced back (pastGap_of_head rfl) initial.optional).next
    (by rw [ended]; exact pastGap_of_head rfl) (finds_mark ended)
  exact ⟨n, _, left, rest_skip_of_cons ended, finds_statement wordedRules _ rfl
    (misses_before_type type whole) (.rule both rfl)⟩

end

/-! ## Statements that begin with a name -/

section

variable {e : List Char} {leaves : Node → Prop}

theorem misses_before_name (named : nameOf c.rest = some s) :
    ∀ r ∈ statementRules.take 11, (rule r).Misses c := by
  obtain ⟨⟨opens, unreserved⟩, same⟩ := Option.ite_none_right_eq_some.mp named
  have untyped : typeOf c.rest = none := by
    rw [typeOf, wordAmong_of_nameOf (by decide) named]
    rfl
  have worded : ∀ r ∈ wordedRules, (rule r).Misses c := by
    refine misses_before_word (fun _ => id) opens rfl fun r _ word _ same => unreserved ?_
    have reserved : ∀ word : Keyword, word.text ∈ reservedWords := by
      intro word
      cases word <;> decide
    rw [same]
    exact List.mem_map_of_mem (reserved word)
  rw [show statementRules.take 11 = wordedRules ++ [.variableDeclaration] from rfl,
    List.forall_mem_append, List.forall_mem_singleton]
  exact ⟨worded, misses_typed untyped⟩

theorem finds_assignment (named : nameOf s = some s) (value : FindsValue e leaves)
    (settled : ∀ rest, pastGap (e ++ rest) = e ++ rest) (unequal : e.head? ≠ some '=')
    (nonempty : e ≠ []) (whole : c.rest = s ++ ' ' :: '=' :: ' ' :: (e ++ ';' :: rest)) :
    ∃ n stop, leaves n ∧ stop.rest = rest ∧ statement.Finds c
      [.mk .assignment c stop [.mk .identifier c (c.skip s) [], n]] stop := by
  have read : nameOf c.rest = some s := whole ▸ nameOf_append named rfl
  have name : (rule .identifier).Finds c _ (c.skip s) := finds_sealed rfl read
  have back : (c.skip s).rest = ' ' :: '=' :: ' ' :: (e ++ ';' :: rest) := rest_skip_of_append whole
  have sign : ((c.skip s).skip [' ']).rest = '=' :: ' ' :: (e ++ ';' :: rest) := rest_skip_of_cons back
  have gap : (((c.skip s).skip [' ']).skip ['=']).rest = ' ' :: (e ++ ';' :: rest) :=
    rest_skip_of_cons sign
  have behind := rest_skip_of_cons gap
  obtain ⟨n, found, left⟩ := value _ _ behind rfl
  have ended := rest_skip_of_append behind
  have single : (word "=").Misses ((((c.skip s).skip [' ']).skip ['=']).skip [' ']) := by
    refine misses_text_singleton (d := '=') ?_
    rw [behind]
    cases e with
    | nil => exact absurd rfl nonempty
    | cons d e => exact unequal
  have equals : assignmentSign.Finds ((c.skip s).skip [' ']) ([] ++ []) _ :=
    (finds_mark sign).spaced gap (settled _) single.absent
  have both := ((name.spaced back (pastGap_of_head rfl) equals).next
    (by rw [behind, settled]) found).next (by rw [ended]; exact pastGap_of_head rfl) (finds_mark ended)
  have fieldless : (rule .fieldAssignment).Misses c := by
    refine .rule (.seq (.seq (.seq (.seq (misses_behindName (d := '.') read ?_))))) rfl
    rw [whole, List.drop_left, pastGap_blank rfl, pastGap_of_head rfl]
    simp
  refine ⟨n, _, left, rest_skip_of_cons ended, finds_statement
    (statementRules.take 11 ++ [.fieldAssignment]) _ rfl
    (List.forall_mem_append.mpr ⟨misses_before_name read, ?_⟩) (.rule both rfl)⟩
  exact List.forall_mem_singleton.mpr fieldless

/-- A name behind the name of a record type. -/
theorem finds_recordInstance (named : nameOf s = some s) (named' : nameOf t = some t)
    (whole : c.rest = s ++ ' ' :: (t ++ ';' :: rest)) :
    ∃ stop, stop.rest = rest ∧ statement.Finds c
      [.mk .recordInstanceDeclaration c stop [.mk .identifier c (c.skip s) [],
        .mk .identifier ((c.skip s).skip [' ']) (((c.skip s).skip [' ']).skip t) []]] stop := by
  have read : nameOf c.rest = some s := whole ▸ nameOf_append named rfl
  have name : (rule .identifier).Finds c _ (c.skip s) := finds_sealed rfl read
  have gap : (c.skip s).rest = ' ' :: (t ++ ';' :: rest) := rest_skip_of_append whole
  have front := rest_skip_of_cons gap
  have read' : nameOf (t ++ ';' :: rest) = some t := nameOf_append named' rfl
  have opens := opens_of_nameOf read'
  have name' : (rule .identifier).Finds ((c.skip s).skip [' ']) _ _ := finds_sealed rfl (front ▸ read')
  have back := rest_skip_of_append front
  have found := (name.spaced gap (pastGap_of_opens opens) name').next
    (by rw [back]; exact pastGap_of_head rfl) (finds_mark back)
  have other {d : Char} (shut : isWordStart d = false) :
      (pastGap (c.rest.drop s.length)).head? ≠ some d := by
    rw [whole, List.drop_left, pastGap_blank rfl, pastGap_of_opens opens]
    intro same
    rw [same] at opens
    exact Bool.false_ne_true (shut.symm.trans opens)
  have fieldless : (rule .fieldAssignment).Misses c :=
    .rule (.seq (.seq (.seq (.seq (misses_behindName read (other rfl)))))) rfl
  have signless : assignmentSign.Misses (c.skip s).skipGap := by
    refine .seq (misses_text_singleton (d := '=') ?_)
    rw [rest_skipGap, rest_skip]
    exact other rfl
  refine ⟨_, rest_skip_of_cons back, finds_statement
    (statementRules.take 11 ++ [.fieldAssignment, .assignment]) _ rfl
    (List.forall_mem_append.mpr ⟨misses_before_name read, ?_⟩) (.rule found rfl)⟩
  simp only [List.forall_mem_cons, List.not_mem_nil, false_implies, implies_true, and_true]
  exact ⟨fieldless, .rule (.seq (.seq (name.seq_misses signless))) rfl⟩

end

/-! ## Statements that begin with a word of their own -/

section

variable {e : List Char} {leaves : Node → Prop}

/-- A statement with a word of its own is found if no rule before it opens with that word. -/
theorem finds_behind_keyword (word : Keyword) (before after : List Rule)
    (listed : statementRules = before ++ name :: after) (within : ∀ r ∈ before, r ∈ wordedRules)
    (other : ∀ r ∈ before, ∀ word', openingWord r = some word' → word.text.toList ≠ word'.text.toList)
    (whole : c.rest = word.text.toList ++ ' ' :: rest) (found : (rule name).Finds c nodes stop) :
    statement.Finds c nodes stop := by
  have shape : word.text.toList.all isWordChar = true ∧ word.text.toList.head?.any isWordStart = true := by
    cases word <;> decide
  have isWord : wordOf c.rest = word.text.toList := by
    rw [whole]
    exact takeWhile_append_ended shape.1 rfl
  have opens : c.rest.head?.any isWordStart = true := by
    rw [whole, List.head?_append]
    cases word <;> rfl
  exact finds_statement before after listed (misses_before_word within opens isWord other) found

theorem finds_print (value : FindsValue e leaves) (settled : ∀ rest, pastGap (e ++ rest) = e ++ rest)
    (whole : c.rest = Keyword.print.text.toList ++ ' ' :: (e ++ ';' :: rest)) :
    ∃ head n stop, leaves n ∧ stop.rest = rest ∧ statement.Finds c
      [.mk .printStatement c stop [head, n]] stop := by
  have opens : (rule (.keyword .print)).Finds c _ (c.skip Keyword.print.text.toList) :=
    finds_keyword whole rfl
  have gap : (c.skip Keyword.print.text.toList).rest = ' ' :: (e ++ ';' :: rest) :=
    rest_skip_of_append whole
  have behind := rest_skip_of_cons gap
  obtain ⟨n, found, left⟩ := value _ _ behind rfl
  have ended := rest_skip_of_append behind
  have both := (opens.spaced gap (settled _) found).next (by rw [ended]; exact pastGap_of_head rfl)
    (finds_mark ended)
  exact ⟨_, n, _, left, rest_skip_of_cons ended, finds_behind_keyword .print (statementRules.take 9) _ rfl
    (by decide) (by decide) whole (.rule both rfl)⟩

/-- A name behind the word of a declaration. -/
theorem finds_named (word : Keyword) (named : nameOf s = some s)
    (ended : rest.head?.all (!isWordChar ·) = true)
    (whole : c.rest = word.text.toList ++ ' ' :: (s ++ rest)) :
    ∃ head, (rule (.keyword word) ++ rule .identifier).Finds c
      [head, .mk .identifier ((c.skip word.text.toList).skip [' '])
        (((c.skip word.text.toList).skip [' ']).skip s) []]
      (((c.skip word.text.toList).skip [' ']).skip s) := by
  have gap : (c.skip word.text.toList).rest = ' ' :: (s ++ rest) := rest_skip_of_append whole
  have front := rest_skip_of_cons gap
  have read : nameOf (s ++ rest) = some s := nameOf_append named ended
  exact ⟨_, (finds_keyword whole rfl).spaced gap (pastGap_of_opens (opens_of_nameOf read))
    (finds_sealed rfl (front ▸ read))⟩

end

/-! ## What stands between brackets -/

/-- The text is read where it stands in front of the mark that closes it. -/
def FindsInside (p : Pattern) (inside : List Char) (close : Char) (leaves : List Node → Prop) : Prop :=
  ∀ (c : Cursor) (rest : List Char), c.rest = inside ++ close :: rest →
    pastGap c.rest = c.rest ∧ ∃ nodes stop, p.Finds c nodes stop ∧ stop.rest = close :: rest ∧ leaves nodes

theorem FindsInside.mono {p : Pattern} {inside : List Char} {close : Char}
    {leaves leaves' : List Node → Prop} (finds : FindsInside p inside close leaves)
    (allowed : ∀ nodes, leaves nodes → leaves' nodes) : FindsInside p inside close leaves' := by
  intro c rest whole
  obtain ⟨settled, nodes, stop, found, closing, left⟩ := finds c rest whole
  exact ⟨settled, nodes, stop, found, closing, allowed nodes left⟩

/-- The node of the rule declares a name of a type. -/
def Declares (rule : Rule) (type : TypeName) (s : List Char) (n : Node) : Prop :=
  ∃ c stop rest, c.rest = type.text.toList ++ ' ' :: (s ++ rest) ∧
    n = .mk rule c stop [.mk .typeName c (c.skip type.text.toList) [],
      .mk .identifier ((c.skip type.text.toList).skip [' '])
        (((c.skip type.text.toList).skip [' ']).skip s) []]

section

variable {type : TypeName}

theorem pastGap_type (type : TypeName) (rest : List Char) :
    pastGap (type.text.toList ++ rest) = type.text.toList ++ rest := by
  refine pastGap_of_head ?_
  rw [toList_typeText]
  cases type.primitive <;> rfl

theorem misses_fieldDeclaration (whole : c.rest = '\x7d' :: rest) : (rule .fieldDeclaration).Misses c := by
  refine .rule (.seq (.seq (misses_sealed rfl ?_))) rfl
  rw [whole]
  rfl

theorem findsInside_noFields : FindsInside (many (rule .fieldDeclaration)) [] '\x7d' (· = []) :=
  fun c _ whole => ⟨by rw [whole]; exact pastGap_of_head rfl, [], c,
    (misses_fieldDeclaration whole).many, whole, rfl⟩

theorem findsInside_field (named : nameOf s = some s) :
    FindsInside (many (rule .fieldDeclaration)) (type.text.toList ++ ' ' :: (s ++ [';'])) '\x7d'
      fun nodes => ∃ n, Declares .fieldDeclaration type s n ∧ nodes = [n] := by
  intro c rest whole
  rw [List.append_assoc, List.cons_append, List.append_assoc, List.singleton_append] at whole
  have back := rest_skip_of_append (rest_skip_of_cons (rest_skip_of_append whole))
  have behind := rest_skip_of_cons back
  have all := (finds_typed named rfl whole).next (by rw [back]; exact pastGap_of_head rfl) (finds_mark back)
  have here : (rule .fieldDeclaration).Finds c _ _ := .rule all rfl
  have ended : ((((c.skip type.text.toList).skip [' ']).skip s).skip [';']).skipGap.rest =
      '\x7d' :: rest := by
    rw [rest_skipGap, behind, pastGap_of_head rfl]
  have found := here.many (misses_fieldDeclaration ended).done
  exact ⟨by rw [whole, pastGap_type], _, _, found, behind, _, ⟨c, _, _, whole, rfl⟩, rfl⟩

theorem findsInside_noParameters : FindsInside (optional (rule .parameterList)) [] ')' (· = []) := by
  intro c rest whole
  refine ⟨by rw [whole]; exact pastGap_of_head rfl, [], c, Misses.optional ?_, whole, rfl⟩
  refine .rule (.seq (.rule (.seq (misses_sealed rfl ?_)) rfl)) rfl
  rw [whole]
  rfl

theorem findsInside_parameter (named : nameOf s = some s) :
    FindsInside (optional (rule .parameterList)) (type.text.toList ++ ' ' :: s) ')'
      fun nodes => ∃ start stop n, Declares .parameter type s n ∧
        nodes = [.mk .parameterList start stop [n]] := by
  intro c rest whole
  rw [List.append_assoc, List.cons_append] at whole
  have back := rest_skip_of_append (rest_skip_of_cons (rest_skip_of_append whole))
  have here : (rule .parameter).Finds c _ _ := .rule (finds_typed named rfl whole) rfl
  have list := finds_single here (by rw [back]; exact pastGap_of_head rfl) (by rw [back]; simp)
  have found : (rule .parameterList).Finds c _ _ := .rule list rfl
  exact ⟨by rw [whole, pastGap_type], _, _, found.optional, back, _, _, _, ⟨c, _, _, whole, rfl⟩, rfl⟩

end

/-! ## Declarations with brackets -/

section

variable {inside : List Char} {leaves : List Node → Prop}

/-- A record type with the fields between its braces. -/
theorem finds_recordType (named : nameOf s = some s)
    (fields : FindsInside (many (rule .fieldDeclaration)) inside '\x7d' leaves)
    (whole : c.rest =
      Keyword.type.text.toList ++ ' ' :: (s ++ ' ' :: '\x7b' :: (inside ++ '\x7d' :: rest))) :
    ∃ head nodes stop, leaves nodes ∧ stop.rest = rest ∧ statement.Finds c
      [.mk .recordTypeDeclaration c stop
        ([head, .mk .identifier ((c.skip Keyword.type.text.toList).skip [' '])
          (((c.skip Keyword.type.text.toList).skip [' ']).skip s) []] ++ nodes)] stop := by
  obtain ⟨head, front⟩ := finds_named .type named rfl whole
  have back : (((c.skip Keyword.type.text.toList).skip [' ']).skip s).rest =
      ' ' :: '\x7b' :: (inside ++ '\x7d' :: rest) :=
    rest_skip_of_append (rest_skip_of_cons (rest_skip_of_append whole))
  have opening := rest_skip_of_cons back
  obtain ⟨settled, nodes, stop, found, closing, left⟩ := fields _ rest (rest_skip_of_cons opening)
  have all := ((front.spaced back (pastGap_of_head rfl) (finds_mark opening)).next settled found).next
    (by rw [closing]; exact pastGap_of_head rfl) (finds_mark closing)
  rw [List.append_nil, List.append_nil] at all
  exact ⟨head, nodes, _, left, rest_skip_of_cons closing, finds_behind_keyword .type
    (statementRules.take 1) _ rfl (by decide) (by decide) whole (.rule all rfl)⟩

/-- A block without statements. -/
theorem finds_emptyBlock (whole : c.rest = '\x7b' :: '\x7d' :: rest) :
    ∃ stop, stop.rest = rest ∧ (rule .block).Finds c [.mk .block c stop []] stop := by
  have closing := rest_skip_of_cons whole
  have settled : pastGap (c.skip ['\x7b']).rest = (c.skip ['\x7b']).rest := by
    rw [closing]
    exact pastGap_of_head rfl
  have closes : ClosesStatements (c.skip ['\x7b']).rest := by rw [closing]; rfl
  have found := ((finds_mark whole).next settled (misses_statement closes).many).next settled
    (finds_mark closing)
  exact ⟨_, rest_skip_of_cons closing, .rule found rfl⟩

/-- A function with the parameters between its parentheses, and neither result nor statements. -/
theorem finds_function (named : nameOf s = some s)
    (parameters : FindsInside (optional (rule .parameterList)) inside ')' leaves)
    (whole : c.rest = Keyword.func.text.toList ++
      ' ' :: (s ++ '(' :: (inside ++ ')' :: ' ' :: '\x7b' :: '\x7d' :: rest))) :
    ∃ head nodes start stop' stop, leaves nodes ∧ stop.rest = rest ∧ statement.Finds c
      [.mk .functionDeclaration c stop
        ([head, .mk .identifier ((c.skip Keyword.func.text.toList).skip [' '])
          (((c.skip Keyword.func.text.toList).skip [' ']).skip s) []] ++ nodes ++
            [.mk .block start stop' []])] stop := by
  obtain ⟨head, front⟩ := finds_named .func named rfl whole
  generalize ends : ((c.skip Keyword.func.text.toList).skip [' ']).skip s = middle at *
  have opening : middle.rest = '(' :: (inside ++ ')' :: ' ' :: '\x7b' :: '\x7d' :: rest) := by
    rw [← ends]
    exact rest_skip_of_append (rest_skip_of_cons (rest_skip_of_append whole))
  obtain ⟨settled, nodes, stop', found, closing, left⟩ := parameters _ _ (rest_skip_of_cons opening)
  have gap := rest_skip_of_cons closing
  have braces := rest_skip_of_cons gap
  have untyped : (rule .voidType <|> rule .typeName).Misses ((stop'.skip [')']).skip [' ']) :=
    .alt (misses_sealed rfl (by rw [braces]; rfl)) (misses_sealed rfl (by rw [braces]; rfl))
  obtain ⟨stop, ended, block⟩ := finds_emptyBlock braces
  have signature := ((front.next (by rw [opening]; exact pastGap_of_head rfl) (finds_mark opening)).next
    settled found).next (by rw [closing]; exact pastGap_of_head rfl) (finds_mark closing)
  have all := (signature.spaced gap (pastGap_of_head rfl) untyped.optional).next
    (by rw [braces]; exact pastGap_of_head rfl) block
  simp only [List.append_nil] at all
  exact ⟨head, nodes, _, _, stop, left, ended, finds_behind_keyword .func [] _ rfl (by decide) (by decide)
    whole (.rule all rfl)⟩

end

end CheckedScript.Grammar.Pattern
