import CheckedScript.Proofs.Grammar.Statements
import CheckedScript.Proofs.Parsing.Quoting
import CheckedScript.Proofs.Parsing.Shapes

/-!
# Reserved words and names

A word is reserved as a whole or not at all: one that only begins like a reserved word is a name. As an
expression a word is parsed to itself, to a truth value or not at all (`parseExpression_word`), and a name
stands wherever one is declared, assigned or printed, however it begins.
-/

namespace CheckedScript.Parsing

open Grammar Pattern

/-! ## Texts of one statement -/

section

variable {source : String} {n : Node} {stop : Cursor}

/-- A text in which one statement is found is parsed to what is read of it. -/
theorem parseProgram_of_finds (settled : Cursor.pastGap source.toList = source.toList)
    (found : statement.Finds (.ofText source.toList) [n] stop) (ended : stop.rest = [])
    (kept : n.rule ≠ .endOfInput) :
    parseProgram source =
      (readStatement n).map fun s => ⟨[s], .between .origin stop.position⟩ := by
  have still : stop.skipGap = stop :=
    Cursor.skipGap_of_settled (by rw [ended, Cursor.pastGap_nil])
  have done : statement.Repeats stop [] stop := by
    refine Misses.done (misses_statement ?_)
    rw [still, ended]
    rfl
  rw [parseProgram, readText_of_finds rfl rfl settled (found.many done) ended]
  have filtered : [n, Node.mk .endOfInput stop stop []].filter (·.rule ≠ Rule.endOfInput) = [n] := by
    rw [List.filter_cons_of_pos (by simpa using kept), List.filter_cons_of_neg (by simp [Node.rule]),
      List.filter_nil]
  dsimp only [bind, Except.bind, Node.children, List.append_nil, List.cons_append, List.nil_append]
  rw [filtered, readStatements, readStatements]
  cases readStatement n <;> rfl

/-- The text is parsed to one statement, which is this one but for parentheses and places. -/
def ParsesTo (source : String) (statement : Statement) : Prop :=
  ∃ program, parseProgram source = .ok program ∧ program.unwrapped.bare.statements = [statement.bare]

theorem parsesTo_of_finds {statement : Statement}
    (settled : Cursor.pastGap source.toList = source.toList)
    (found : Grammar.statement.Finds (.ofText source.toList) [n] stop) (ended : stop.rest = [])
    (kept : n.rule ≠ .endOfInput)
    (read : ∃ parsed, readStatement n = .ok parsed ∧ parsed.unwrapped.bare = statement.bare) :
    ParsesTo source statement := by
  obtain ⟨parsed, read, same⟩ := read
  refine ⟨_, by rw [parseProgram_of_finds settled found ended kept, read]; rfl, ?_⟩
  exact congrArg ([·]) same

end

/-! ## Names in statements -/

section

variable {source w : String} {e : Expression} {c : Cursor}

theorem readTypeName_skip {type : TypeName} (within : type.text.toList <+: c.rest) :
    readTypeName (.mk .typeName c (c.skip type.text.toList) []) =
      .ok ⟨type.primitive, type.isArray, .between c.position (c.skip type.text.toList).position⟩ := by
  have covers : (Node.mk .typeName c (c.skip type.text.toList) []).characters = _ :=
    (characters_skip within).trans (toList_typeText type)
  rw [readTypeName, covers]
  cases type.primitive <;> cases type.isArray <;> rfl

theorem readDeclarator_of_declares {rule : Rule} {type : TypeName} {n : Node}
    (declares : Declares rule type w.toList n) :
    ∃ declarator, readDeclarator n = .ok declarator ∧
      declarator.bare = Declarator.bare ⟨type, ⟨w, default⟩⟩ := by
  obtain ⟨c, stop, rest, whole, rfl⟩ := declares
  have behind := Cursor.rest_skip_of_cons (Cursor.rest_skip_of_append whole)
  rw [readDeclarator]
  dsimp only [Node.children]
  rw [readTypeName_skip ⟨_, whole.symm⟩, readIdentifier_skip ⟨_, behind.symm⟩]
  exact ⟨_, rfl, rfl⟩

/-- The nodes are read as these declarators, but for places. -/
def ReadsDeclarators (declarators : List Declarator) (nodes : List Node) : Prop :=
  ∃ read, nodes.mapM readDeclarator = .ok read ∧
    read.map Declarator.bare = declarators.map Declarator.bare

theorem readsDeclarators_single {rule : Rule} {type : TypeName} {n : Node}
    (declares : Declares rule type w.toList n) : ReadsDeclarators [⟨type, ⟨w, default⟩⟩] [n] := by
  obtain ⟨declarator, read, same⟩ := readDeclarator_of_declares declares
  refine ⟨[declarator], ?_, by rw [List.map_singleton, same]; rfl⟩
  rw [List.mapM_cons, read]
  rfl

/-- The nodes in front of a body are the list of these parameters, or there are none. -/
def ReadsParameters (declarators : List Declarator) (nodes : List Node) : Prop :=
  nodes = [] ∧ declarators = [] ∨
    ∃ start stop below, nodes = [.mk .parameterList start stop below] ∧ ReadsDeclarators declarators below

theorem findsValue_shape (basic : e.IsBasic) :
    FindsValue e.shape.toList fun n => ∃ parsed, readExpression n = .ok parsed ∧ parsed.Resembles e := by
  intro c rest whole closes
  obtain ⟨n, here⟩ := isFound_of_isBasic basic c rest whole closes.endsOperand
  exact ⟨_, here.expression basic whole closes, here.readExpression _ _⟩

/-- No shape begins like a comparison. -/
theorem exists_cons_shape (basic : e.IsBasic) : ∃ d more, e.shape.toList = d :: more ∧ d ≠ '=' := by
  have ofName {s : String} (named : IsName s) : ∃ d more, s.toList = d :: more ∧ d ≠ '=' := by
    obtain ⟨d, more, whole, start⟩ := Lexical.exists_cons named.1
    refine ⟨d, more, whole, ?_⟩
    rintro rfl
    exact absurd start (by decide)
  cases basic with
  | integer _ positive =>
    obtain ⟨nonempty, all, -⟩ := toString_of_nonneg positive
    obtain ⟨d, more, whole⟩ := List.exists_cons_of_ne_nil nonempty
    refine ⟨d, more, whole, ?_⟩
    rintro rfl
    rw [whole, List.all_cons] at all
    exact absurd (Bool.and_eq_true_iff.mp all).1 (by decide)
  | boolean b =>
    rw [Expression.shape]
    cases b
    · exact ⟨'f', _, rfl, by decide⟩
    · exact ⟨'t', _, rfl, by decide⟩
  | identifier _ named => exact ofName named
  | fieldAccess _ named | index _ named | call _ named =>
    obtain ⟨d, more, whole, other⟩ := ofName named
    simp only [Expression.shape, String.toList_append, whole]
    exact ⟨d, _, rfl, other⟩
  | unary | binary =>
    simp only [Expression.shape, String.toList_append]
    exact ⟨'(', _, rfl, by decide⟩

/-- The text declares, assigns or prints the name, by this statement. -/
inductive Mentions (w : String) : String → Statement → Prop
  | declaration (type : TypeName) :
      Mentions w (type.text ++ " " ++ w ++ ";") (.variable type ⟨w, default⟩ none default)
  | initialization (type : TypeName) {e : Expression} (basic : e.IsBasic) :
      Mentions w (type.text ++ " " ++ w ++ " = " ++ e.shape ++ ";")
        (.variable type ⟨w, default⟩ (some e) default)
  | recordType : Mentions w ("type " ++ w ++ " \x7b\x7d") (.recordType ⟨w, default⟩ [] default)
  | field {owner : String} (named : IsName owner) (type : TypeName) :
      Mentions w ("type " ++ owner ++ " \x7b" ++ type.text ++ " " ++ w ++ ";\x7d")
        (.recordType ⟨owner, default⟩ [⟨type, ⟨w, default⟩⟩] default)
  | recordInstance {type : String} (named : IsName type) :
      Mentions w (type ++ " " ++ w ++ ";") (.recordInstance ⟨type, default⟩ ⟨w, default⟩ default)
  | function : Mentions w ("func " ++ w ++ "() \x7b\x7d")
      (.function ⟨w, default⟩ [] none (.mk [] default) default)
  | parameter {owner : String} (named : IsName owner) (type : TypeName) :
      Mentions w ("func " ++ owner ++ "(" ++ type.text ++ " " ++ w ++ ") \x7b\x7d")
        (.function ⟨owner, default⟩ [⟨type, ⟨w, default⟩⟩] none (.mk [] default) default)
  | assignment {e : Expression} (basic : e.IsBasic) :
      Mentions w (w ++ " = " ++ e.shape ++ ";") (.assignment ⟨w, default⟩ e default)
  | print : Mentions w ("print " ++ w ++ ";") (.print (.identifier ⟨w, default⟩ default) default)

theorem parsesTo_declaration (named : IsName w) (type : TypeName)
    (shape : source.toList = type.text.toList ++ ' ' :: (w.toList ++ [';'])) :
    ParsesTo source (.variable type ⟨w, default⟩ none default) := by
  have whole : (Cursor.ofText source.toList).rest = _ := shape
  obtain ⟨stop, ended, found⟩ := finds_declaration named.nameOf whole
  have behind := Cursor.rest_skip_of_cons (Cursor.rest_skip_of_append whole)
  refine parsesTo_of_finds (by rw [shape, pastGap_type]) found ended nofun ?_
  rw [readStatement, readTypeName_skip ⟨_, whole.symm⟩, readIdentifier_skip ⟨_, behind.symm⟩]
  exact ⟨_, rfl, rfl⟩

theorem parsesTo_initialization (named : IsName w) (type : TypeName) (basic : e.IsBasic)
    (shape : source.toList = type.text.toList ++
      ' ' :: (w.toList ++ ' ' :: '=' :: ' ' :: (e.shape.toList ++ [';']))) :
    ParsesTo source (.variable type ⟨w, default⟩ (some e) default) := by
  have whole : (Cursor.ofText source.toList).rest = _ := shape
  obtain ⟨n, stop, ⟨parsed, read, resembles⟩, ended, found⟩ :=
    finds_initialization named.nameOf (findsValue_shape basic) (pastGap_shape basic) whole
  have behind := Cursor.rest_skip_of_cons (Cursor.rest_skip_of_append whole)
  refine parsesTo_of_finds (by rw [shape, pastGap_type]) found ended nofun ?_
  rw [readStatement, readTypeName_skip ⟨_, whole.symm⟩, readIdentifier_skip ⟨_, behind.symm⟩, read]
  refine ⟨_, rfl, ?_⟩
  rw [Expression.Resembles] at resembles
  simp only [Statement.unwrapped, Statement.bare, Option.map_some, resembles]
  rfl

theorem parsesTo_assignment (named : IsName w) (basic : e.IsBasic)
    (shape : source.toList = w.toList ++ ' ' :: '=' :: ' ' :: (e.shape.toList ++ [';'])) :
    ParsesTo source (.assignment ⟨w, default⟩ e default) := by
  have whole : (Cursor.ofText source.toList).rest = _ := shape
  obtain ⟨d, more, first, other⟩ := exists_cons_shape basic
  obtain ⟨n, stop, ⟨parsed, read, resembles⟩, ended, found⟩ :=
    finds_assignment named.nameOf (findsValue_shape basic) (pastGap_shape basic)
      (by simpa [first] using other) (by simp [first]) whole
  refine parsesTo_of_finds (by rw [shape, named.pastGap]) found ended nofun ?_
  rw [readStatement, readIdentifier_skip ⟨_, whole.symm⟩, read]
  refine ⟨_, rfl, ?_⟩
  rw [Expression.Resembles] at resembles
  simp only [Statement.unwrapped, Statement.bare, resembles]
  rfl

theorem parsesTo_print (basic : e.IsBasic)
    (shape : source.toList = Keyword.print.text.toList ++ ' ' :: (e.shape.toList ++ [';'])) :
    ParsesTo source (.print e default) := by
  have whole : (Cursor.ofText source.toList).rest = _ := shape
  obtain ⟨head, n, stop, ⟨parsed, read, resembles⟩, ended, found⟩ :=
    finds_print (findsValue_shape basic) (pastGap_shape basic) whole
  refine parsesTo_of_finds (by rw [shape]; exact Cursor.pastGap_of_head rfl) found ended nofun ?_
  rw [readStatement, read]
  refine ⟨_, rfl, ?_⟩
  rw [Expression.Resembles] at resembles
  simp only [Statement.unwrapped, Statement.bare, resembles]

theorem parsesTo_recordInstance {type : String} (named : IsName type) (named' : IsName w)
    (shape : source.toList = type.toList ++ ' ' :: (w.toList ++ [';'])) :
    ParsesTo source (.recordInstance ⟨type, default⟩ ⟨w, default⟩ default) := by
  have whole : (Cursor.ofText source.toList).rest = _ := shape
  obtain ⟨stop, ended, found⟩ := finds_recordInstance named.nameOf named'.nameOf whole
  have behind := Cursor.rest_skip_of_cons (Cursor.rest_skip_of_append whole)
  refine parsesTo_of_finds (by rw [shape, named.pastGap]) found ended nofun ?_
  rw [readStatement, readIdentifier_skip ⟨_, whole.symm⟩, readIdentifier_skip ⟨_, behind.symm⟩]
  exact ⟨_, rfl, rfl⟩

theorem parsesTo_recordType {inside : List Char} {declarators : List Declarator} (named : IsName w)
    (fields : FindsInside (many (rule .fieldDeclaration)) inside '\x7d' (ReadsDeclarators declarators))
    (shape : source.toList =
      Keyword.type.text.toList ++ ' ' :: (w.toList ++ ' ' :: '\x7b' :: (inside ++ ['\x7d']))) :
    ParsesTo source (.recordType ⟨w, default⟩ declarators default) := by
  have whole : (Cursor.ofText source.toList).rest = _ := shape
  obtain ⟨head, nodes, stop, ⟨read, known, same⟩, ended, found⟩ :=
    finds_recordType named.nameOf fields whole
  have behind := Cursor.rest_skip_of_cons (Cursor.rest_skip_of_append whole)
  refine parsesTo_of_finds (by rw [shape]; exact Cursor.pastGap_of_head rfl) found ended nofun ?_
  rw [List.cons_append, List.singleton_append, readStatement, readIdentifier_skip ⟨_, behind.symm⟩, known]
  refine ⟨_, rfl, ?_⟩
  simp only [Statement.unwrapped, Statement.bare, same]
  rfl

theorem parsesTo_function {inside : List Char} {declarators : List Declarator} (named : IsName w)
    (parameters : FindsInside (optional (rule .parameterList)) inside ')' (ReadsParameters declarators))
    (shape : source.toList = Keyword.func.text.toList ++
      ' ' :: (w.toList ++ '(' :: (inside ++ ')' :: ' ' :: '\x7b' :: '\x7d' :: []))) :
    ParsesTo source (.function ⟨w, default⟩ declarators none (.mk [] default) default) := by
  have whole : (Cursor.ofText source.toList).rest = _ := shape
  obtain ⟨head, nodes, start, stop', stop, read, ended, found⟩ :=
    finds_function named.nameOf parameters whole
  have behind := Cursor.rest_skip_of_cons (Cursor.rest_skip_of_append whole)
  refine parsesTo_of_finds (by rw [shape]; exact Cursor.pastGap_of_head rfl) found ended nofun ?_
  rcases read with ⟨rfl, rfl⟩ | ⟨first, last, below, rfl, read, known, same⟩
  · dsimp only [List.cons_append, List.nil_append]
    rw [readStatement, readIdentifier_skip ⟨_, behind.symm⟩]
    exact ⟨_, rfl, rfl⟩
  · dsimp only [List.cons_append, List.nil_append]
    rw [readStatement, readIdentifier_skip ⟨_, behind.symm⟩, readParameters, known]
    refine ⟨_, rfl, ?_⟩
    simp only [Statement.unwrapped, Statement.bare, same]
    rfl

/-- A name is read as this name wherever it is declared, assigned or printed. -/
theorem parsesTo_of_mentions (named : IsName w) {statement : Statement}
    (mentions : Mentions w source statement) : ParsesTo source statement := by
  cases mentions with
  | declaration type => exact parsesTo_declaration named type (by simp)
  | initialization type basic => exact parsesTo_initialization named type basic (by simp)
  | recordType =>
    exact parsesTo_recordType named (findsInside_noFields.mono fun _ none => ⟨[], by rw [none]; rfl, rfl⟩)
      (by simp [Keyword.text])
  | field named' type =>
    have inside : FindsInside _ (type.text.toList ++ _) _ _ := findsInside_field named.nameOf
    refine parsesTo_recordType named' (inside.mono ?_) (by simp [Keyword.text])
    rintro _ ⟨n, declares, rfl⟩
    exact readsDeclarators_single declares
  | recordInstance named' => exact parsesTo_recordInstance named' named (by simp)
  | function =>
    exact parsesTo_function named (findsInside_noParameters.mono fun _ none => .inl ⟨none, rfl⟩)
      (by simp [Keyword.text])
  | parameter named' type =>
    have inside : FindsInside _ (type.text.toList ++ _) _ _ := findsInside_parameter named.nameOf
    refine parsesTo_function named' (inside.mono ?_) (by simp [Keyword.text])
    rintro _ ⟨start, stop, n, declares, rfl⟩
    exact .inr ⟨start, stop, [n], rfl, readsDeclarators_single declares⟩
  | assignment basic => exact parsesTo_assignment named basic (by simp)
  | print =>
    exact parsesTo_print (.identifier default named) (by simp [Keyword.text, Expression.shape])

end

/-! ## Words as expressions -/

section

variable {w : String}

/-- A name is parsed to itself. -/
theorem parseExpression_name (named : IsName w) :
    parseExpression w = .ok (.identifier ⟨w, .whole w⟩ (.whole w)) := by
  have whole : (Cursor.ofText w.toList).rest = w.toList ++ [] := (List.append_nil _).symm
  have ended := Cursor.rest_skip_of_append whole
  have settled : Cursor.pastGap w.toList = w.toList := by simpa using named.pastGap []
  have unsigned := misses_prefixSign_of_name (named.nameOf_append whole rfl)
  have found := finds_expression
    (finds_operand unsigned settled (finds_identifier named.nameOf whole ⟨rfl, rfl⟩)) (by rw [ended]; rfl)
  rw [parseExpression_of_finds settled found ended, readExpression_operand rfl, readPrimary,
    readIdentifier_skip ⟨_, whole.symm⟩, Span.between_ofText]
  rfl

/-- The text is not an expression of the grammar. -/
def isMismatch : Except ParseError Expression → Bool
  | .error (.mismatch ..) => true
  | _ => false

theorem exists_of_isMismatch {result : Except ParseError Expression} (refused : isMismatch result = true) :
    ∃ place expected, result = .error (.mismatch place expected) := by
  match result with
  | .error (.mismatch place expected) => exact ⟨place, expected, rfl⟩

/-- Of the reserved words only the truth values are expressions. -/
theorem parseExpression_reserved : ∀ w ∈ reservedWords,
    w ∈ [Value.boolText true, Value.boolText false] ∨ isMismatch (parseExpression w) = true := by
  decide +kernel

theorem parseExpression_boolText (b : Bool) :
    parseExpression (Value.boolText b) = .ok (.boolean b (.whole (Value.boolText b))) := by
  cases b <;> rfl

/-- A reserved word is a truth value or no expression, and any other word is a name: it is parsed to
itself, and stands wherever a name is declared, assigned or printed. -/
theorem parseExpression_word (w : String) (opens : w.toList.head?.any isWordStart = true)
    (all : w.toList.all isWordChar = true) :
    (parseExpression w = .ok (.identifier ⟨w, .whole w⟩ (.whole w)) ↔ w ∉ reservedWords) ∧
      (∀ b, w = Value.boolText b → parseExpression w = .ok (.boolean b (.whole w))) ∧
      (w ∈ reservedWords → (∀ b, w ≠ Value.boolText b) →
        ∃ place expected, parseExpression w = .error (.mismatch place expected)) ∧
      (w ∉ reservedWords → ∀ source statement, Mentions w source statement →
        ParsesTo source statement) := by
  have truth (b : Bool) (same : w = Value.boolText b) :
      parseExpression w = .ok (.boolean b (.whole w)) :=
    same ▸ parseExpression_boolText b
  have refused (reserved : w ∈ reservedWords) (other : ∀ b, w ≠ Value.boolText b) :
      ∃ place expected, parseExpression w = .error (.mismatch place expected) := by
    rcases parseExpression_reserved w reserved with listed | refused
    · exact absurd listed (by simp [other])
    · exact exists_of_isMismatch refused
  have named (unreserved : w ∉ reservedWords) : IsName w := ⟨opens, all, unreserved⟩
  refine ⟨⟨fun parsed reserved => ?_, fun unreserved => parseExpression_name (named unreserved)⟩, truth,
    refused, fun unreserved _ _ => parsesTo_of_mentions (named unreserved)⟩
  by_cases isTruth : ∃ b, w = Value.boolText b
  · obtain ⟨b, same⟩ := isTruth
    rw [truth b same] at parsed
    nomatch parsed
  · obtain ⟨place, expected, failed⟩ := refused reserved fun b same => isTruth ⟨b, same⟩
    rw [failed] at parsed
    nomatch parsed

/-- `iffy` begins like a reserved word, and is a name. -/
theorem parseExpression_word_iffy :
    parseExpression "iffy" = .ok (.identifier ⟨"iffy", .whole "iffy"⟩ (.whole "iffy")) ∧
      ParsesTo "int[] iffy;" (.variable ⟨.int, true, default⟩ ⟨"iffy", default⟩ none default) ∧
      ParsesTo "iffy = order;"
        (.assignment ⟨"iffy", default⟩ (.identifier ⟨"order", default⟩ default) default) ∧
      ParsesTo "print iffy;" (.print (.identifier ⟨"iffy", default⟩ default) default) := by
  obtain ⟨alone, -, -, mentioned⟩ := parseExpression_word "iffy" (by decide) (by decide)
  have named : "iffy" ∉ reservedWords := by decide
  have order : (Expression.identifier ⟨"order", default⟩ default).IsBasic := .identifier _ (by decide)
  exact ⟨alone.mpr named, mentioned named _ _ (.declaration ⟨.int, true, default⟩),
    mentioned named _ _ (.assignment order), mentioned named _ _ .print⟩

end

end CheckedScript.Parsing
