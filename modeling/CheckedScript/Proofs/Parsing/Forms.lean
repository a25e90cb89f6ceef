import CheckedScript.Parsing.Program

/-!
# What is read of what

Where reading succeeds, the rule of a node and the nodes inside it decide of what the tree is put
together: `PrimaryForm`, `StatementForm` and `ClausesForm` have one constructor for each way. What is
known of all that was read is proved by these cases rather than along the reading functions.
-/

namespace CheckedScript.Parsing

open Grammar

theorem bind_eq_ok_iff {ε α β : Type} {x : Except ε α} {f : α → Except ε β} {b : β} :
    (x >>= f) = .ok b ↔ ∃ a, x = .ok a ∧ f a = .ok b := by
  cases x with
  | error e => exact ⟨nofun, nofun⟩
  | ok a => simp [bind, Except.bind]

theorem pure_eq_ok_iff {ε α : Type} {a b : α} : (pure a : Except ε α) = .ok b ↔ a = b :=
  ⟨fun same => Except.ok.inj same, fun same => congrArg Except.ok same⟩

/-- Results one behind the other. -/
theorem bind_cons_eq_ok_iff {ε α : Type} {x : Except ε α} {later : Except ε (List α)} {all : List α} :
    (do let a ← x; return a :: (← later)) = .ok all ↔
      ∃ a more, x = .ok a ∧ later = .ok more ∧ all = a :: more := by
  simp only [bind_eq_ok_iff, pure_eq_ok_iff]
  constructor
  · rintro ⟨a, first, more, last, rfl⟩
    exact ⟨a, more, first, last, rfl⟩
  · rintro ⟨a, more, first, last, rfl⟩
    exact ⟨a, first, more, last, rfl⟩

theorem mapM_cons_eq_ok_iff {ε α β : Type} {f : α → Except ε β} {a : α} {rest : List α}
    {all : List β} :
    (a :: rest).mapM f = .ok all ↔
      ∃ b more, f a = .ok b ∧ rest.mapM f = .ok more ∧ all = b :: more := by
  rw [List.mapM_cons]
  exact bind_cons_eq_ok_iff

variable {start stop : Cursor} {rule : Rule} {n : Node} {children rest : List Node}

/-! ## Names -/

theorem readIdentifier_eq_ok_iff {name : Identifier} :
    readIdentifier n = .ok name ↔ n.rule = .identifier ∧ name = ⟨n.text, n.span⟩ := by
  constructor
  · intro read
    unfold readIdentifier at read
    split at read
    · cases read
      exact ⟨rfl, rfl⟩
    · cases read
  · rintro ⟨named, rfl⟩
    cases n
    cases named
    rfl

theorem readDeclarator_eq_ok_iff {d : Declarator} :
    readDeclarator n = .ok d ↔ ∃ type name, n.children = [type, name] ∧
      readTypeName type = .ok d.type ∧ readIdentifier name = .ok d.name := by
  constructor
  · intro read
    unfold readDeclarator at read
    split at read
    · next type name listed =>
      simp only [bind_eq_ok_iff, pure_eq_ok_iff] at read
      obtain ⟨typed, readType, named, readName, rfl⟩ := read
      exact ⟨type, name, listed, readType, readName⟩
    · cases read
  · rintro ⟨type, name, listed, readType, readName⟩
    rw [readDeclarator, listed]
    simp only [bind_eq_ok_iff, pure_eq_ok_iff]
    exact ⟨_, readType, _, readName, rfl⟩

/-! ## Expressions -/

theorem readExpression_eq_ok_iff {e : Expression} :
    readExpression (.mk rule start stop children) = .ok e ↔
      rule = .expression ∧ ∃ parts, readParts children = .ok parts ∧
        ExpressionPart.group parts = some e := by
  constructor
  · intro read
    unfold readExpression at read
    split at read
    · next same =>
      cases same
      obtain ⟨parts, readAll, grouped⟩ := bind_eq_ok_iff.mp read
      split at grouped
      · next value whole =>
        cases grouped
        exact ⟨rfl, parts, readAll, whole⟩
      · cases grouped
    · cases read
  · rintro ⟨rfl, parts, readAll, grouped⟩
    rw [readExpression]
    refine bind_eq_ok_iff.mpr ⟨parts, readAll, ?_⟩
    rw [grouped]

/-- One part of a flat expression. -/
def readPart : Node → Except ParseError ExpressionPart
  | .mk (.unaryOperator operator) start stop _ =>
    .ok (.unary operator (.between start.position stop.position))
  | .mk (.binaryOperator operator) _ _ _ => .ok (.binary operator)
  | n => (readPrimary n).map .operand

theorem readParts_eq_mapM (nodes : List Node) : readParts nodes = nodes.mapM readPart := by
  induction nodes with
  | nil => rfl
  | cons n rest ih =>
    rw [List.mapM_cons, ← ih]
    unfold readPart
    split
    · rw [readParts]
      rfl
    · rw [readParts]
      rfl
    · next noUnary noBinary =>
      rw [readParts.eq_4 n rest noUnary noBinary]
      cases readPrimary n <;> rfl

theorem readParts_cons_eq_ok_iff {parts : List ExpressionPart} :
    readParts (n :: rest) = .ok parts ↔
      ∃ part more, readPart n = .ok part ∧ readParts rest = .ok more ∧ parts = part :: more := by
  rw [readParts_eq_mapM, readParts_eq_mapM]
  exact mapM_cons_eq_ok_iff

/-- A part is a sign, or an operand. -/
theorem readPart_cases {part : ExpressionPart}
    (read : readPart (.mk rule start stop children) = .ok part) :
    (∃ operator, rule = .unaryOperator operator ∧
      part = .unary operator (.between start.position stop.position)) ∨
    (∃ operator, rule = .binaryOperator operator ∧ part = .binary operator) ∨
    ∃ value, readPrimary (.mk rule start stop children) = .ok value ∧ part = .operand value := by
  unfold readPart at read
  split at read
  · next same =>
    cases same
    cases read
    exact .inl ⟨_, rfl, rfl⟩
  · next same =>
    cases same
    cases read
    exact .inr (.inl ⟨_, rfl, rfl⟩)
  · cases known : readPrimary (.mk rule start stop children) with
    | error e =>
      rw [known] at read
      cases read
    | ok value =>
      rw [known] at read
      cases read
      exact .inr (.inr ⟨value, rfl, rfl⟩)

theorem readArguments_cons_eq_ok_iff {arguments : List Expression} :
    readArguments (n :: rest) = .ok arguments ↔
      ∃ value more, readExpression n = .ok value ∧ readArguments rest = .ok more ∧
        arguments = value :: more := by
  rw [readArguments]
  exact bind_cons_eq_ok_iff

/-- What an operand is put together of. -/
inductive PrimaryForm (start stop : Cursor) : Rule → List Node → Expression → Prop
  | integer {children : List Node} {value : Int64}
      (readValue : readInteger (.mk .integer start stop children) = .ok value) :
      PrimaryForm start stop .integer children
        (.integer value (.between start.position stop.position))
  | float {children : List Node} {value : Float}
      (readValue : readFloat (.mk .float start stop children) = .ok value) :
      PrimaryForm start stop .float children (.float value (.between start.position stop.position))
  | str {children : List Node} {value : String}
      (readValue : readString (.mk .string start stop children) = .ok value) :
      PrimaryForm start stop .string children (.str value (.between start.position stop.position))
  | char {children : List Node} {value : Char}
      (readValue : readChar (.mk .charLiteral start stop children) = .ok value) :
      PrimaryForm start stop .charLiteral children
        (.char value (.between start.position stop.position))
  | boolean {children : List Node} :
      PrimaryForm start stop .boolean children
        (.boolean ((Node.mk .boolean start stop children).text == "true")
          (.between start.position stop.position))
  | numberArray {nodes : List Node} {elements : List NumberLiteral}
      (readAll : nodes.mapM readNumberElement = .ok elements) :
      PrimaryForm start stop .numberArray nodes
        (.numberArray elements (.between start.position stop.position))
  | charArray {nodes : List Node} {elements : List Char}
      (readAll : nodes.mapM readChar = .ok elements) :
      PrimaryForm start stop .charArray nodes
        (.charArray elements (.between start.position stop.position))
  | strArray {nodes : List Node} {elements : List String}
      (readAll : nodes.mapM readString = .ok elements) :
      PrimaryForm start stop .strArray nodes
        (.strArray elements (.between start.position stop.position))
  | identifier {children : List Node} {name : Identifier}
      (readName : readIdentifier (.mk .identifier start stop children) = .ok name) :
      PrimaryForm start stop .identifier children
        (.identifier name (.between start.position stop.position))
  | plainCall {called : Node} {name : Identifier} (readName : readIdentifier called = .ok name) :
      PrimaryForm start stop .functionCall [called]
        (.call name [] (.between start.position stop.position))
  | call {called : Node} {list : Rule} {first last : Cursor} {given : List Node} {name : Identifier}
      {arguments : List Expression} (readName : readIdentifier called = .ok name)
      (readAll : readArguments given = .ok arguments) :
      PrimaryForm start stop .functionCall [called, .mk list first last given]
        (.call name arguments (.between start.position stop.position))
  | index {array position : Node} {name : Identifier} {index : Expression}
      (readName : readIdentifier array = .ok name) (readIndex : readExpression position = .ok index) :
      PrimaryForm start stop .indexAccess [array, position]
        (.index name index (.between start.position stop.position))
  | fieldAccess {record field : Node} {name part : Identifier}
      (readName : readIdentifier record = .ok name) (readField : readIdentifier field = .ok part) :
      PrimaryForm start stop .fieldAccess [record, field]
        (.fieldAccess name part (.between start.position stop.position))
  | parenthesized {inner : Node} {value : Expression} (readInner : readExpression inner = .ok value) :
      PrimaryForm start stop .parenthesized [inner]
        (.parenthesized value (.between start.position stop.position))

theorem readPrimary_form {e : Expression}
    (read : readPrimary (.mk rule start stop children) = .ok e) :
    PrimaryForm start stop rule children e := by
  unfold readPrimary at read
  dsimp only at read
  -- The cases are the rules of operands, in the order in which they are told apart.
  split at read <;>
    simp only [bind_eq_ok_iff, pure_eq_ok_iff, Except.ok.injEq, reduceCtorEq] at read
  case h_1 =>
    obtain ⟨value, readValue, rfl⟩ := read
    exact .integer readValue
  case h_2 =>
    obtain ⟨value, readValue, rfl⟩ := read
    exact .float readValue
  case h_3 =>
    obtain ⟨value, readValue, rfl⟩ := read
    exact .str readValue
  case h_4 =>
    obtain ⟨value, readValue, rfl⟩ := read
    exact .char readValue
  case h_5 =>
    obtain rfl := read
    exact .boolean
  case h_6 =>
    obtain ⟨elements, readAll, rfl⟩ := read
    exact .numberArray readAll
  case h_7 =>
    obtain ⟨elements, readAll, rfl⟩ := read
    exact .charArray readAll
  case h_8 =>
    obtain ⟨elements, readAll, rfl⟩ := read
    exact .strArray readAll
  case h_9 =>
    obtain ⟨name, readName, rfl⟩ := read
    exact .identifier readName
  case h_10 =>
    obtain ⟨name, readName, rfl⟩ := read
    exact .plainCall readName
  case h_11 =>
    obtain ⟨name, readName, arguments, readAll, rfl⟩ := read
    exact .call readName readAll
  case h_12 =>
    obtain ⟨name, readName, index, readIndex, rfl⟩ := read
    exact .index readName readIndex
  case h_13 =>
    obtain ⟨name, readName, part, readField, rfl⟩ := read
    exact .fieldAccess readName readField
  case h_14 =>
    obtain ⟨value, readInner, rfl⟩ := read
    exact .parenthesized readInner

/-! ## Statements -/

theorem readStatements_cons_eq_ok_iff {statements : List Statement} :
    readStatements (n :: rest) = .ok statements ↔
      ∃ statement more, readStatement n = .ok statement ∧ readStatements rest = .ok more ∧
        statements = statement :: more := by
  rw [readStatements]
  exact bind_cons_eq_ok_iff

theorem readBlock_eq_ok_iff {body : Block} :
    readBlock (.mk rule start stop children) = .ok body ↔
      rule = .block ∧ ∃ statements, readStatements children = .ok statements ∧
        body = .mk statements (.between start.position stop.position) := by
  constructor
  · intro read
    unfold readBlock at read
    split at read
    · next same =>
      cases same
      obtain ⟨statements, readAll, done⟩ := bind_eq_ok_iff.mp read
      cases done
      exact ⟨rfl, statements, readAll, rfl⟩
    · cases read
  · rintro ⟨rfl, statements, readAll, rfl⟩
    rw [readBlock]
    exact bind_eq_ok_iff.mpr ⟨statements, readAll, rfl⟩

theorem readLastBlock_cons (more : rest ≠ []) : readLastBlock (n :: rest) = readLastBlock rest := by
  rw [readLastBlock]
  exact more

/-- What a statement is put together of. -/
inductive StatementForm (start stop : Cursor) : Rule → List Node → Statement → Prop
  | declaration {type name : Node} {typed : TypeName} {named : Identifier}
      (readType : readTypeName type = .ok typed) (readName : readIdentifier name = .ok named) :
      StatementForm start stop .variableDeclaration [type, name]
        (.variable typed named none (.between start.position stop.position))
  | initialization {type name value : Node} {typed : TypeName} {named : Identifier}
      {initial : Expression} (readType : readTypeName type = .ok typed)
      (readName : readIdentifier name = .ok named) (readValue : readExpression value = .ok initial) :
      StatementForm start stop .variableDeclaration [type, name, value]
        (.variable typed named (some initial) (.between start.position stop.position))
  | assignment {name value : Node} {named : Identifier} {assigned : Expression}
      (readName : readIdentifier name = .ok named) (readValue : readExpression value = .ok assigned) :
      StatementForm start stop .assignment [name, value]
        (.assignment named assigned (.between start.position stop.position))
  | fieldAssignment {record field value : Node} {named part : Identifier} {assigned : Expression}
      (readName : readIdentifier record = .ok named) (readField : readIdentifier field = .ok part)
      (readValue : readExpression value = .ok assigned) :
      StatementForm start stop .fieldAssignment [record, field, value]
        (.fieldAssignment named part assigned (.between start.position stop.position))
  /-- The nodes behind the name are read several times: for the parameters, for the return type and
  for the body. -/
  | function {keyword name : Node} {signature : List Node} {named : Identifier}
      {parameters : List Declarator} {returnType : Option TypeName} {body : Block}
      (readName : readIdentifier name = .ok named)
      (readParameters : readParameters signature = .ok parameters)
      (readType : readReturnType signature = .ok returnType)
      (readBody : readLastBlock signature = .ok body) :
      StatementForm start stop .functionDeclaration (keyword :: name :: signature)
        (.function named parameters returnType body (.between start.position stop.position))
  | block {nodes : List Node} {statements : List Statement}
      (readAll : readStatements nodes = .ok statements) :
      StatementForm start stop .block nodes
        (.block (.mk statements (.between start.position stop.position))
          (.between start.position stop.position))
  | conditional {keyword condition body : Node} {clauses : List Node} {tested : Expression}
      {guarded : Block} {branches : List Branch} {otherwise : Option Block}
      (readTest : readExpression condition = .ok tested) (readBody : readBlock body = .ok guarded)
      (readMore : readClauses clauses = .ok (branches, otherwise)) :
      StatementForm start stop .ifStatement (keyword :: condition :: body :: clauses)
        (.conditional (.mk tested guarded (.between start.position stop.position) :: branches) otherwise
          (.between start.position stop.position))
  | while {keyword condition body : Node} {tested : Expression} {repeated : Block}
      (readTest : readExpression condition = .ok tested) (readBody : readBlock body = .ok repeated) :
      StatementForm start stop .whileStatement [keyword, condition, body]
        (.while tested repeated (.between start.position stop.position))
  | attempt {keyword first keyword' second : Node} {guarded recovery : Block}
      (readFirst : readBlock first = .ok guarded) (readSecond : readBlock second = .ok recovery) :
      StatementForm start stop .tryStatement [keyword, first, keyword', second]
        (.attempt guarded recovery (.between start.position stop.position))
  | break {children : List Node} :
      StatementForm start stop .breakStatement children
        (.break (.between start.position stop.position))
  | continue {children : List Node} :
      StatementForm start stop .continueStatement children
        (.continue (.between start.position stop.position))
  | plainReturn {keyword : Node} :
      StatementForm start stop .returnStatement [keyword]
        (.return none (.between start.position stop.position))
  | return {keyword value : Node} {returned : Expression}
      (readValue : readExpression value = .ok returned) :
      StatementForm start stop .returnStatement [keyword, value]
        (.return (some returned) (.between start.position stop.position))
  | print {keyword value : Node} {printed : Expression}
      (readValue : readExpression value = .ok printed) :
      StatementForm start stop .printStatement [keyword, value]
        (.print printed (.between start.position stop.position))
  | recordType {keyword name : Node} {declared : List Node} {named : Identifier}
      {fields : List Declarator} (readName : readIdentifier name = .ok named)
      (readAll : declared.mapM readDeclarator = .ok fields) :
      StatementForm start stop .recordTypeDeclaration (keyword :: name :: declared)
        (.recordType named fields (.between start.position stop.position))
  | recordInstance {type name : Node} {recordType named : Identifier}
      (readType : readIdentifier type = .ok recordType) (readName : readIdentifier name = .ok named) :
      StatementForm start stop .recordInstanceDeclaration [type, name]
        (.recordInstance recordType named (.between start.position stop.position))
  | expression {value : Node} {e : Expression} (readValue : readExpression value = .ok e) :
      StatementForm start stop .expressionStatement [value]
        (.expression e (.between start.position stop.position))

theorem readStatement_form {statement : Statement}
    (read : readStatement (.mk rule start stop children) = .ok statement) :
    StatementForm start stop rule children statement := by
  unfold readStatement at read
  dsimp only at read
  -- The cases are the kinds of statements, in the order in which they are told apart.
  split at read <;>
    simp only [bind_eq_ok_iff, pure_eq_ok_iff, Except.ok.injEq, reduceCtorEq] at read
  case h_1 =>
    obtain ⟨type, readType, name, readName, rfl⟩ := read
    exact .declaration readType readName
  case h_2 =>
    obtain ⟨type, readType, name, readName, value, readValue, rfl⟩ := read
    exact .initialization readType readName readValue
  case h_3 =>
    obtain ⟨name, readName, value, readValue, rfl⟩ := read
    exact .assignment readName readValue
  case h_4 =>
    obtain ⟨record, readName, field, readField, value, readValue, rfl⟩ := read
    exact .fieldAssignment readName readField readValue
  case h_5 =>
    obtain ⟨name, readName, parameters, declared, returnType, readType, body, readBody, rfl⟩ := read
    exact .function readName declared readType readBody
  case h_6 =>
    obtain ⟨statements, readAll, rfl⟩ := read
    exact .block readAll
  case h_7 =>
    obtain ⟨condition, readTest, body, readBody, ⟨branches, otherwise⟩, readMore, rfl⟩ := read
    exact .conditional readTest readBody readMore
  case h_8 =>
    obtain ⟨condition, readTest, body, readBody, rfl⟩ := read
    exact .while readTest readBody
  case h_9 =>
    obtain ⟨guarded, readFirst, recovery, readSecond, rfl⟩ := read
    exact .attempt readFirst readSecond
  case h_10 =>
    obtain rfl := read
    exact .break
  case h_11 =>
    obtain rfl := read
    exact .continue
  case h_12 =>
    obtain rfl := read
    exact .plainReturn
  case h_13 =>
    obtain ⟨value, readValue, rfl⟩ := read
    exact .return readValue
  case h_14 =>
    obtain ⟨value, readValue, rfl⟩ := read
    exact .print readValue
  case h_15 =>
    obtain ⟨name, readName, fields, readAll, rfl⟩ := read
    exact .recordType readName readAll
  case h_16 =>
    obtain ⟨type, readType, name, readName, rfl⟩ := read
    exact .recordInstance readType readName
  case h_17 =>
    obtain ⟨value, readValue, rfl⟩ := read
    exact .expression readValue

/-- What the further branches of an `if` are put together of. -/
inductive ClausesForm : List Node → List Branch × Option Block → Prop
  | none : ClausesForm [] ([], .none)
  | last {start stop : Cursor} {keyword body : Node} {rest : List Node} {otherwise : Block}
      (readBody : readBlock body = .ok otherwise) :
      ClausesForm (.mk .elseClause start stop [keyword, body] :: rest) ([], some otherwise)
  | further {start stop : Cursor} {keyword keyword' condition body : Node} {rest : List Node}
      {tested : Expression} {guarded : Block} {branches : List Branch} {otherwise : Option Block}
      (readTest : readExpression condition = .ok tested) (readBody : readBlock body = .ok guarded)
      (readMore : readClauses rest = .ok (branches, otherwise)) :
      ClausesForm (.mk .elseIfClause start stop [keyword, keyword', condition, body] :: rest)
        (.mk tested guarded (.between start.position stop.position) :: branches, otherwise)

theorem readClauses_form {clauses : List Branch × Option Block}
    (read : readClauses children = .ok clauses) : ClausesForm children clauses := by
  unfold readClauses at read
  split at read
  · cases read
    exact .none
  · simp only [bind_eq_ok_iff, pure_eq_ok_iff] at read
    obtain ⟨body, readBody, rfl⟩ := read
    exact .last readBody
  · simp only [bind_eq_ok_iff, pure_eq_ok_iff] at read
    obtain ⟨condition, readTest, body, readBody, ⟨branches, otherwise⟩, readMore, rfl⟩ := read
    exact .further readTest readBody readMore
  · cases read

end CheckedScript.Parsing
