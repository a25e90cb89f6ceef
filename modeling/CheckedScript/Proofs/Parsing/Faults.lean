import CheckedScript.Parsing.Program
import CheckedScript.Proofs.Parsing.Literals
import CheckedScript.Proofs.Parsing.Operators

/-!
# What reading a tree comes to

Readers meet no tree of another shape than the grammar gives it, and look at the literals in it from
left to right. So reading a node comes to the error of the first literal in it that has one, and to a
value if none has (`settles_readStatement`, `settles_readExpression`).
-/

namespace CheckedScript

namespace Grammar

/-- The rules of literals and array elements whose text may have no value. -/
def Rule.isLiteral : Rule → Bool
  | integer | numberElement | string | charLiteral => true
  | _ => false

mutual

/-- The literals and array elements in a node, as they stand from left to right. -/
def Node.literals : Node → List Node
  | .mk rule start stop children =>
    if rule.isLiteral then [.mk rule start stop children] else Node.listLiterals children

def Node.listLiterals : List Node → List Node
  | [] => []
  | n :: rest => n.literals ++ Node.listLiterals rest

end

/-- The rules of statements. -/
def Rule.isStatement : Rule → Bool
  | functionDeclaration | recordTypeDeclaration | ifStatement | whileStatement | tryStatement | block
  | breakStatement | continueStatement | returnStatement | printStatement | variableDeclaration
  | fieldAssignment | assignment | recordInstanceDeclaration | expressionStatement => true
  | _ => false

theorem leaves_statement {nodes : List Node} (leaves : statement.Leaves nodes) :
    ∃ n : Node, nodes = [n] ∧ n.rule.isStatement = true ∧ n.IsMatch := by
  simp only [statement, Pattern.leaves_orElse, Pattern.leaves_rule] at leaves
  rcases leaves with h | h | h | h | h | h | h | h | h | h | h | h | h | h | h <;>
  · obtain ⟨n, listed, named, isMatch⟩ := h
    exact ⟨n, listed, by rw [named]; rfl, isMatch⟩

theorem leaves_statements {nodes : List Node} (leaves : (Pattern.many statement).Leaves nodes) :
    ∀ n ∈ nodes, n.rule.isStatement = true ∧ n.IsMatch := by
  intro n listed
  obtain ⟨_, same, here⟩ := leaves_statement (Pattern.leaves_many_of_single
    (fun nodes here => (leaves_statement here).imp fun _ => And.left) leaves n listed)
  cases same
  exact here

end Grammar

namespace Parsing

open Grammar

/-- The error of the first literal among the nodes that has one. -/
def listFault (nodes : List Node) : Option ParseError :=
  (Node.listLiterals nodes).findSome? literalFault

/-- The error of the first literal in the node that has one. -/
def nodeFault (n : Node) : Option ParseError := n.literals.findSome? literalFault

theorem listFault_cons (n : Node) (rest : List Node) :
    listFault (n :: rest) = (nodeFault n).or (listFault rest) := by
  rw [listFault, Node.listLiterals, List.findSome?_append]
  rfl

theorem listFault_append (front back : List Node) :
    listFault (front ++ back) = (listFault front).or (listFault back) := by
  induction front with
  | nil => rfl
  | cons n front ih => rw [List.cons_append, listFault_cons, listFault_cons, ih, Option.or_assoc]

theorem nodeFault_of_isLiteral {n : Node} (isLiteral : n.rule.isLiteral = true) :
    nodeFault n = literalFault n := by
  cases n
  rw [nodeFault, Node.literals, if_pos (by exact isLiteral), List.findSome?_singleton]

theorem nodeFault_of_not {rule : Rule} {start stop : Cursor} {children : List Node}
    (isLiteral : rule.isLiteral = false) :
    nodeFault (.mk rule start stop children) = listFault children := by
  rw [nodeFault, Node.literals, if_neg (by rw [isLiteral]; nofun)]
  rfl

/-! ## Reading one node after the other -/

section

variable {α β : Type} {fault : Option ParseError} {n : Node} {rest : List Node}
  {read : Except ParseError α} {next : α → Except ParseError β}

theorem Settles.bind {fault' : Option ParseError} (first : Settles fault read)
    (second : ∀ a, read = .ok a → Settles fault' (next a)) :
    Settles (fault.or fault') (read >>= next) := by
  cases fault with
  | some e =>
    cases (first : read = .error e)
    exact rfl
  | none =>
    obtain ⟨a, rfl⟩ := first
    exact second a rfl

theorem Settles.bind_pure (first : Settles fault read) (f : α → β) :
    Settles fault (read >>= fun a => pure (f a)) := by
  have both : Settles (fault.or none) (read >>= fun a => pure (f a)) :=
    first.bind fun a _ => ⟨f a, rfl⟩
  rwa [Option.or_none] at both

/-- What is read of the first node is used where the others are read. -/
theorem Settles.step (first : Settles (nodeFault n) read)
    (second : ∀ a, Settles (listFault rest) (next a)) :
    Settles (listFault (n :: rest)) (read >>= next) := by
  rw [listFault_cons]
  exact first.bind fun a _ => second a

/-- A node without literals is passed over. -/
theorem Settles.pass (none : nodeFault n = none) (others : Settles (listFault rest) read) :
    Settles (listFault (n :: rest)) read := by
  rwa [listFault_cons, none, Option.none_or]

theorem Settles.done (a : α) : Settles (listFault []) (pure a : Except ParseError α) := ⟨a, rfl⟩

theorem Settles.single (settles : Settles (nodeFault n) read) : Settles (listFault [n]) read := by
  rwa [listFault_cons, listFault, Node.listLiterals, List.findSome?_nil, Option.or_none]

theorem settles_mapM {read : Node → Except ParseError α} {nodes : List Node}
    (all : ∀ n ∈ nodes, Settles (nodeFault n) (read n)) :
    Settles (listFault nodes) (nodes.mapM read) := by
  induction nodes with
  | nil => exact .done []
  | cons n rest ih =>
    rw [List.forall_mem_cons] at all
    rw [List.mapM_cons]
    exact all.1.step fun a => (ih all.2).bind_pure _

end

/-! ## Names -/

section

variable {n : Node}

/-- Sealed rules hold no literals. -/
theorem nodeFault_of_sealed (isMatch : n.IsMatch) (closed : n.rule.spacing = .sealed)
    (isLiteral : n.rule.isLiteral = false) : nodeFault n = none := by
  obtain ⟨rule, start, stop, children⟩ := n
  obtain ⟨-, -, -, none, -⟩ := isMatch.of_sealed closed
  rw [nodeFault_of_not (show rule.isLiteral = false from isLiteral), none]
  rfl

theorem nodeFault_keyword {word : Keyword} (named : n.rule = .keyword word) (isMatch : n.IsMatch) :
    nodeFault n = none :=
  nodeFault_of_sealed isMatch (by rw [named]; rfl) (by rw [named]; rfl)

theorem settles_readIdentifier (named : n.rule = .identifier) (isMatch : n.IsMatch) :
    Settles (nodeFault n) (readIdentifier n) := by
  rw [nodeFault_of_sealed isMatch (by rw [named]; rfl) (by rw [named]; rfl)]
  obtain ⟨rule, start, stop, children⟩ := n
  obtain rfl : rule = .identifier := named
  exact ⟨_, rfl⟩

end

/-! ## The elements of arrays -/

section

variable {n : Node} {rule : Rule}

theorem settles_numberElement (element : n.rule = .numberElement ∧ n.IsMatch) :
    Settles (nodeFault n) (readNumberElement n) := by
  obtain ⟨named, isMatch⟩ := element
  rw [nodeFault_of_isLiteral (by rw [named]; rfl)]
  cases n
  cases named
  exact settles_readNumberElement isMatch

theorem settles_char (element : n.rule = .charLiteral ∧ n.IsMatch) :
    Settles (nodeFault n) (readChar n) := by
  obtain ⟨named, isMatch⟩ := element
  rw [nodeFault_of_isLiteral (by rw [named]; rfl)]
  cases n
  cases named
  exact settles_readChar isMatch

theorem settles_string (element : n.rule = .string ∧ n.IsMatch) :
    Settles (nodeFault n) (readString n) := by
  obtain ⟨named, isMatch⟩ := element
  rw [nodeFault_of_isLiteral (by rw [named]; rfl)]
  cases n
  cases named
  exact settles_readString isMatch

end

/-! ## Expressions -/

section

variable {start stop : Cursor} {children : List Node}

theorem nodeFault_unaryOperator {operator : UnaryOperator}
    (isMatch : (Node.mk (.unaryOperator operator) start stop children).IsMatch) :
    nodeFault (.mk (.unaryOperator operator) start stop children) = none := by
  cases operator with
  | negate =>
    have bare : children = [] := isMatch.leaves nofun
    rw [bare]
    rfl
  | not => exact nodeFault_of_sealed isMatch rfl rfl

theorem nodeFault_binaryOperator {operator : BinaryOperator}
    (isMatch : (Node.mk (.binaryOperator operator) start stop children).IsMatch) :
    nodeFault (.mk (.binaryOperator operator) start stop children) = none := by
  cases operator with
  | or | and => exact nodeFault_of_sealed isMatch rfl rfl
  | _ =>
    have bare : children = [] := isMatch.leaves nofun
    rw [bare]
    rfl

/-- Every child of an expression is an operator or an operand. -/
theorem isPart_of_isMatch (isMatch : (Node.mk .expression start stop children).IsMatch) :
    ∀ n ∈ children, n.IsMatch ∧ (n.rule.isPrimary = true ∨
      (∃ operator, n.rule = .unaryOperator operator) ∨
        ∃ operator, n.rule = .binaryOperator operator) := by
  have leaves := isMatch.leaves nofun
  have all := leaves.isMatch
  obtain ⟨front, _, rfl, first, groups, rfl, groups'⟩ := leaves
  have operands {nodes : List Node} (leaves : Grammar.operand.Leaves nodes) : ∀ n ∈ nodes,
      n.rule.isPrimary = true ∨ (∃ operator, n.rule = .unaryOperator operator) ∨
        ∃ operator, n.rule = .binaryOperator operator := by
    obtain ⟨signs, value, rfl, signs', primary, -⟩ := leaves_operand leaves
    rw [List.forall_mem_append, List.forall_mem_singleton]
    refine ⟨fun n listed => .inr (.inl ?_), .inl primary⟩
    obtain ⟨operator, _, _, _, same⟩ := leaves_prefixSign (signs' n listed)
    cases same
    exact ⟨operator, rfl⟩
  intro n listed
  refine ⟨all n listed, ?_⟩
  rcases List.mem_append.mp listed with here | there
  · exact operands first n here
  · obtain ⟨g, member, inside⟩ := List.mem_flatten.mp there
    obtain ⟨_, second, rfl, sign, next⟩ := groups' g member
    obtain ⟨operator, _, _, _, rfl⟩ := leaves_infixSign sign
    rcases List.mem_cons.mp inside with rfl | later
    · exact .inr (.inr ⟨operator, rfl⟩)
    · exact operands next n later

theorem leaves_functionCall (isMatch : (Node.mk .functionCall start stop children).IsMatch) :
    ∃ name : Node, name.rule = .identifier ∧ name.IsMatch ∧ (children = [name] ∨
      ∃ start' stop' arguments, children = [name, .mk .argumentList start' stop' arguments] ∧
        ∀ n ∈ arguments, n.rule = .expression ∧ n.IsMatch) := by
  obtain ⟨_, _, rfl, ⟨_, _, rfl, ⟨_, _, rfl, ⟨name, rfl, named, isMatch'⟩, rfl⟩, listed⟩, rfl⟩ :=
    isMatch.leaves nofun
  refine ⟨name, named, isMatch', ?_⟩
  rcases listed with rfl | ⟨⟨rule, start', stop', arguments⟩, rfl, rfl, isMatch''⟩
  · exact .inl rfl
  · exact .inr ⟨start', stop', arguments, rfl, Pattern.leaves_commaSeparated (isMatch''.leaves nofun)⟩

/-- Array literals hold their elements. -/
theorem leaves_array {name : Rule}
    (leaves : (Pattern.word "[" ++ Pattern.commaSeparated (.rule name) ++ Pattern.word "]").Leaves
      children) : ∀ n ∈ children, n.rule = name ∧ n.IsMatch := by
  obtain ⟨_, _, rfl, ⟨_, _, rfl, rfl, listed⟩, rfl⟩ := leaves
  rw [List.nil_append, List.append_nil]
  exact Pattern.leaves_commaSeparated listed

end

mutual

theorem settles_readExpression : (n : Node) → n.rule = .expression → n.IsMatch →
    Settles (nodeFault n) (readExpression n)
  | .mk rule start stop children => by
    intro named isMatch
    obtain rfl : rule = .expression := named
    rw [nodeFault_of_not rfl, ← Option.or_none (o := listFault children), readExpression]
    refine (settles_readParts children (isPart_of_isMatch isMatch)).bind fun parts read => ?_
    obtain ⟨tree, grouped, -⟩ := ExpressionPart.group_of_isFlat (isFlat_of_isMatch isMatch read)
    rw [grouped]
    exact ⟨tree, rfl⟩

theorem settles_readParts : (nodes : List Node) → (∀ n ∈ nodes, n.IsMatch ∧
      (n.rule.isPrimary = true ∨ (∃ operator, n.rule = .unaryOperator operator) ∨
        ∃ operator, n.rule = .binaryOperator operator)) →
    Settles (listFault nodes) (readParts nodes)
  | [] => fun _ => .done []
  | n :: rest => by
    intro all
    rw [List.forall_mem_cons] at all
    obtain ⟨⟨isMatch, kind⟩, others⟩ := all
    rw [readParts_eq_mapM, List.mapM_cons, ← readParts_eq_mapM]
    refine Settles.step ?_ fun part => (settles_readParts rest others).bind_pure _
    unfold readPart
    split
    · rw [nodeFault_unaryOperator isMatch]
      exact ⟨_, rfl⟩
    · rw [nodeFault_binaryOperator isMatch]
      exact ⟨_, rfl⟩
    · next noUnary noBinary =>
      obtain ⟨rule, start, stop, children⟩ := n
      rcases kind with isPrimary | ⟨operator, rfl⟩ | ⟨operator, rfl⟩
      · exact (settles_readPrimary _ isPrimary isMatch).map _
      · exact (noUnary _ _ _ _ rfl).elim
      · exact (noBinary _ _ _ _ rfl).elim

theorem settles_readPrimary : (n : Node) → n.rule.isPrimary = true → n.IsMatch →
    Settles (nodeFault n) (readPrimary n)
  | .mk rule start stop children => by
    intro isPrimary isMatch
    unfold readPrimary
    -- The rules that are not named are no primary expressions.
    cases rule with
    | integer =>
      rw [nodeFault_of_isLiteral rfl]
      exact (settles_readInteger _).bind_pure _
    | string =>
      rw [nodeFault_of_isLiteral rfl]
      exact (settles_readString isMatch).bind_pure _
    | charLiteral =>
      rw [nodeFault_of_isLiteral rfl]
      exact (settles_readChar isMatch).bind_pure _
    | float =>
      rw [nodeFault_of_sealed isMatch rfl rfl]
      exact (settles_float isMatch).bind_pure _
    | boolean =>
      rw [nodeFault_of_sealed isMatch rfl rfl]
      exact ⟨_, rfl⟩
    | identifier =>
      rw [nodeFault_of_sealed isMatch rfl rfl]
      exact ⟨_, rfl⟩
    | numberArray =>
      rw [nodeFault_of_not rfl]
      exact (settles_mapM fun n listed => settles_numberElement
        (leaves_array (isMatch.leaves nofun) n listed)).bind_pure _
    | charArray =>
      rw [nodeFault_of_not rfl]
      exact (settles_mapM fun n listed => settles_char
        (leaves_array (isMatch.leaves nofun) n listed)).bind_pure _
    | strArray =>
      rw [nodeFault_of_not rfl]
      exact (settles_mapM fun n listed => settles_string
        (leaves_array (isMatch.leaves nofun) n listed)).bind_pure _
    | functionCall =>
      rw [nodeFault_of_not rfl]
      obtain ⟨name, named, isName, rfl | ⟨start', stop', arguments, rfl, all⟩⟩ :=
        leaves_functionCall isMatch
      · exact (settles_readIdentifier named isName).single.bind_pure _
      · refine (settles_readIdentifier named isName).step fun name => Settles.single ?_
        rw [nodeFault_of_not rfl]
        exact (settles_readArguments arguments all).bind_pure _
    | indexAccess =>
      obtain ⟨_, _, rfl, ⟨_, _, rfl, ⟨_, _, rfl, ⟨array, rfl, named, isName⟩, rfl⟩,
        ⟨index, rfl, indexed, isIndex⟩⟩, rfl⟩ := isMatch.leaves nofun
      rw [nodeFault_of_not rfl]
      exact (settles_readIdentifier named isName).step fun name =>
        ((settles_readExpression index indexed isIndex).bind_pure _).single
    | fieldAccess =>
      obtain ⟨_, _, rfl, ⟨_, _, rfl, ⟨record, rfl, named, isName⟩, rfl⟩, ⟨field, rfl, named', isName'⟩⟩ :=
        isMatch.leaves nofun
      rw [nodeFault_of_not rfl]
      exact (settles_readIdentifier named isName).step fun name =>
        ((settles_readIdentifier named' isName').bind_pure _).single
    | parenthesized =>
      obtain ⟨_, _, rfl, ⟨_, _, rfl, rfl, ⟨inner, rfl, named, isInner⟩⟩, rfl⟩ := isMatch.leaves nofun
      rw [nodeFault_of_not rfl]
      exact (settles_readExpression inner named isInner).single.bind_pure _
    | _ => cases isPrimary

theorem settles_readArguments : (nodes : List Node) →
    (∀ n ∈ nodes, n.rule = .expression ∧ n.IsMatch) →
    Settles (listFault nodes) (readArguments nodes)
  | [] => fun _ => .done []
  | n :: rest => by
    intro all
    rw [List.forall_mem_cons] at all
    rw [readArguments]
    exact (settles_readExpression n all.1.1 all.1.2).step fun a =>
      (settles_readArguments rest all.2).bind_pure _

end

/-! ## Types and declarators -/

theorem typeOf_cases {text read : List Char} (found : typeOf text = some read) :
    ∃ (primitive : Primitive) (isArray : Bool),
      read = primitive.keyword.toList ++ if isArray then ['[', ']'] else [] := by
  obtain ⟨word, known, rfl⟩ := Option.map_eq_some_iff.mp found
  rw [wordAmong, Option.ite_none_right_eq_some] at known
  obtain ⟨listed, ⟨⟩⟩ := known
  obtain ⟨w, member, same⟩ := List.mem_map.mp listed
  have named : ∃ primitive : Primitive, primitive.keyword = w := by
    simp only [typeWords, List.mem_cons, List.not_mem_nil, or_false] at member
    rcases member with rfl | rfl | rfl | rfl | rfl
    · exact ⟨.int, rfl⟩
    · exact ⟨.float, rfl⟩
    · exact ⟨.str, rfl⟩
    · exact ⟨.char, rfl⟩
    · exact ⟨.bool, rfl⟩
  obtain ⟨primitive, rfl⟩ := named
  rw [← same, bracketsOf]
  split
  · exact ⟨primitive, true, rfl⟩
  · exact ⟨primitive, false, rfl⟩

/-- The node of a type covers the spelling of the type that is read of it. -/
theorem readTypeName_eq {n : Node} (named : n.rule = .typeName) (isMatch : n.IsMatch) :
    ∃ type, readTypeName n = .ok type ∧ type.span = n.span ∧ n.characters = type.text.toList := by
  obtain ⟨rule, start, stop, children⟩ := n
  obtain rfl : rule = .typeName := named
  obtain ⟨read, scanned, -, -, covers⟩ := isMatch.of_sealed rfl
  obtain ⟨primitive, isArray, rfl⟩ := typeOf_cases scanned
  refine ⟨⟨primitive, isArray, (Node.mk .typeName start stop children).span⟩, ?_, rfl, ?_⟩
  · rw [readTypeName, covers]
    cases primitive <;> cases isArray <;> rfl
  · rw [covers, TypeName.text]
    cases isArray with
    | false => exact List.append_nil _
    | true => simp

theorem settles_readTypeName {n : Node} (named : n.rule = .typeName) (isMatch : n.IsMatch) :
    Settles (nodeFault n) (readTypeName n) := by
  rw [nodeFault_of_sealed isMatch (by rw [named]; rfl) (by rw [named]; rfl)]
  obtain ⟨type, read, -⟩ := readTypeName_eq named isMatch
  exact ⟨type, read⟩

/-- The nodes of parameters and fields. -/
def IsDeclarator (n : Node) : Prop :=
  (n.rule = .parameter ∨ n.rule = .fieldDeclaration) ∧ n.IsMatch

theorem IsDeclarator.children {n : Node} (declarator : IsDeclarator n) :
    ∃ type name : Node, n.children = [type, name] ∧ (type.rule = .typeName ∧ type.IsMatch) ∧
      name.rule = .identifier ∧ name.IsMatch := by
  obtain ⟨rule, start, stop, children⟩ := n
  obtain ⟨⟨⟨⟩⟩ | ⟨⟨⟩⟩, isMatch⟩ := declarator
  · obtain ⟨_, _, rfl, ⟨type, rfl, isType⟩, ⟨name, rfl, isName⟩⟩ := isMatch.leaves nofun
    exact ⟨type, name, rfl, isType, isName⟩
  · obtain ⟨_, _, rfl, ⟨_, _, rfl, ⟨type, rfl, isType⟩, ⟨name, rfl, isName⟩⟩, rfl⟩ :=
      isMatch.leaves nofun
    exact ⟨type, name, rfl, isType, isName⟩

theorem nodeFault_declarator {n : Node} (declarator : IsDeclarator n) : nodeFault n = none := by
  obtain ⟨type, name, listed, isType, isName⟩ := declarator.children
  obtain ⟨rule, start, stop, children⟩ := n
  obtain rfl : children = [type, name] := listed
  rw [nodeFault_of_not (by rcases declarator.1 with ⟨⟨⟩⟩ | ⟨⟨⟩⟩ <;> rfl), listFault_cons, listFault_cons,
    nodeFault_of_sealed isType.2 (by rw [isType.1]; rfl) (by rw [isType.1]; rfl),
    nodeFault_of_sealed isName.2 (by rw [isName.1]; rfl) (by rw [isName.1]; rfl)]
  rfl

theorem settles_readDeclarator {n : Node} (declarator : IsDeclarator n) :
    Settles none (readDeclarator n) := by
  obtain ⟨type, name, listed, isType, isName⟩ := declarator.children
  obtain ⟨type', typed, -⟩ := readTypeName_eq isType.1 isType.2
  rw [readDeclarator, listed]
  dsimp only
  obtain ⟨rule, start, stop, children⟩ := name
  obtain ⟨⟨⟩, -⟩ := isName
  rw [typed]
  exact ⟨_, rfl⟩

theorem settles_declarators {nodes : List Node} (all : ∀ n ∈ nodes, IsDeclarator n) :
    listFault nodes = none ∧ Settles none (nodes.mapM readDeclarator) := by
  have solid : listFault nodes = none := by
    induction nodes with
    | nil => rfl
    | cons n rest ih =>
      rw [List.forall_mem_cons] at all
      rw [listFault_cons, nodeFault_declarator all.1, ih all.2]
      rfl
  refine ⟨solid, ?_⟩
  rw [← solid]
  refine settles_mapM fun n listed => ?_
  rw [nodeFault_declarator (all n listed)]
  exact settles_readDeclarator (all n listed)

theorem isDeclarator_of_parameterList {start stop : Cursor} {declared : List Node}
    (isMatch : (Node.mk .parameterList start stop declared).IsMatch) :
    ∀ n ∈ declared, IsDeclarator n := fun n listed =>
  (Pattern.leaves_commaSeparated (isMatch.leaves nofun) n listed).imp_left .inl

theorem typeName_of_variable {type : Node} {start stop : Cursor} {rest : List Node}
    (isMatch : (Node.mk .variableDeclaration start stop (type :: rest)).IsMatch) :
    type.rule = .typeName := by
  obtain ⟨_, _, listed, ⟨_, _, rfl, ⟨_, _, rfl, ⟨type', rfl, named, -⟩, -⟩, -⟩, -⟩ :=
    isMatch.leaves nofun
  rw [(List.cons.inj listed).1]
  exact named

theorem isDeclarator_of_recordType {keyword name : Node} {start stop : Cursor} {fields : List Node}
    (isMatch : (Node.mk .recordTypeDeclaration start stop (keyword :: name :: fields)).IsMatch) :
    ∀ n ∈ fields, IsDeclarator n := by
  obtain ⟨_, _, listed, ⟨_, declared, rfl, ⟨_, _, rfl, ⟨_, _, rfl, ⟨_, rfl, -⟩, ⟨_, rfl, -⟩⟩, rfl⟩,
    leaves⟩, rfl⟩ := isMatch.leaves nofun
  rw [List.append_nil] at listed
  rw [(List.cons.inj (List.cons.inj listed).2).2]
  exact fun n inside => (Pattern.leaves_many_rule leaves n inside).imp_left .inr

theorem settles_readParameters {signature : List Node} (all : ∀ n ∈ signature, n.IsMatch) :
    Settles none (readParameters signature) := by
  unfold readParameters
  split
  · exact (settles_declarators (isDeclarator_of_parameterList (all _ (List.mem_cons_self ..)))).2
  · exact ⟨_, rfl⟩

theorem readReturnType_cons {n : Node} (other : n.rule ≠ .typeName) (rest : List Node) :
    readReturnType (n :: rest) = readReturnType rest := by
  rw [readReturnType]
  rintro start stop children rfl
  exact other rfl

theorem settles_readReturnType {signature : List Node} (all : ∀ n ∈ signature, n.IsMatch) :
    Settles none (readReturnType signature) := by
  induction signature with
  | nil => exact ⟨_, rfl⟩
  | cons n rest ih =>
    rw [List.forall_mem_cons] at all
    unfold readReturnType
    split
    · exact ⟨_, rfl⟩
    · next listed =>
      obtain ⟨rfl, -⟩ := List.cons.inj listed
      obtain ⟨type, read, -⟩ := readTypeName_eq rfl all.1
      rw [read]
      exact ⟨_, rfl⟩
    · next listed =>
      obtain ⟨-, rfl⟩ := List.cons.inj listed
      exact ih all.2

/-! ## Statements -/

theorem leaves_block {start stop : Cursor} {children : List Node}
    (isMatch : (Node.mk .block start stop children).IsMatch) :
    ∀ n ∈ children, n.rule.isStatement = true ∧ n.IsMatch := by
  obtain ⟨_, _, rfl, ⟨_, _, rfl, rfl, listed⟩, rfl⟩ := isMatch.leaves nofun
  rw [List.nil_append, List.append_nil]
  exact leaves_statements listed

/-- The nodes of a function: behind its name stand the parameters, a return type and the body. -/
theorem leaves_function {start stop : Cursor} {children : List Node}
    (isMatch : (Node.mk .functionDeclaration start stop children).IsMatch) :
    ∃ keyword name parameters types body,
      children = keyword :: name :: (parameters ++ (types ++ [body])) ∧
        (keyword.rule = .keyword .func ∧ keyword.IsMatch) ∧
        (name.rule = .identifier ∧ name.IsMatch) ∧
        (Pattern.optional (.rule .parameterList)).Leaves parameters ∧
        (Pattern.optional (.rule .voidType <|> .rule .typeName)).Leaves types ∧
        body.rule = .block ∧ body.IsMatch := by
  obtain ⟨_, _, rfl, ⟨_, types, rfl, ⟨_, _, rfl, ⟨_, parameters, rfl, ⟨_, _, rfl, ⟨_, _, rfl,
    ⟨keyword, rfl, isKeyword⟩, ⟨name, rfl, isName⟩⟩, rfl⟩, listed⟩, rfl⟩, typed⟩,
    ⟨body, rfl, isBody⟩⟩ := isMatch.leaves nofun
  exact ⟨keyword, name, parameters, types, body, by simp, isKeyword, isName, listed, typed, isBody⟩

theorem listFault_parameters {nodes : List Node}
    (leaves : (Pattern.optional (.rule .parameterList)).Leaves nodes) : listFault nodes = none := by
  rcases leaves with rfl | ⟨⟨rule, start, stop, declared⟩, rfl, rfl, isList⟩
  · rfl
  · rw [listFault_cons, nodeFault_of_not rfl,
      (settles_declarators (isDeclarator_of_parameterList isList)).1]
    rfl

theorem listFault_types {nodes : List Node}
    (leaves : (Pattern.optional (.rule .voidType <|> .rule .typeName)).Leaves nodes) :
    listFault nodes = none := by
  rcases leaves with rfl | ⟨type, rfl, named, isType⟩ | ⟨type, rfl, named, isType⟩
  · rfl
  · rw [listFault_cons, nodeFault_of_sealed isType (by rw [named]; rfl) (by rw [named]; rfl)]
    rfl
  · rw [listFault_cons, nodeFault_of_sealed isType (by rw [named]; rfl) (by rw [named]; rfl)]
    rfl

mutual

theorem settles_readStatement : (n : Node) → n.rule.isStatement = true → n.IsMatch →
    Settles (nodeFault n) (readStatement n)
  | .mk rule start stop children => by
    intro isStatement isMatch
    unfold readStatement
    cases rule with
    | variableDeclaration =>
      obtain ⟨_, _, rfl, ⟨_, _, rfl, ⟨_, _, rfl, ⟨type, rfl, isType⟩, ⟨name, rfl, isName⟩⟩, valued⟩,
        rfl⟩ := isMatch.leaves nofun
      rw [nodeFault_of_not rfl]
      rcases valued with rfl | ⟨_, _, rfl, rfl, ⟨value, rfl, isValue⟩⟩
      · exact (settles_readTypeName isType.1 isType.2).step fun type =>
          ((settles_readIdentifier isName.1 isName.2).bind_pure _).single
      · exact (settles_readTypeName isType.1 isType.2).step fun type =>
          (settles_readIdentifier isName.1 isName.2).step fun name =>
            ((settles_readExpression value isValue.1 isValue.2).bind_pure _).single
    | assignment =>
      obtain ⟨_, _, rfl, ⟨_, _, rfl, ⟨_, _, rfl, ⟨name, rfl, isName⟩, ⟨_, _, rfl, rfl, rfl⟩⟩,
        ⟨value, rfl, isValue⟩⟩, rfl⟩ := isMatch.leaves nofun
      rw [nodeFault_of_not rfl]
      exact (settles_readIdentifier isName.1 isName.2).step fun name =>
        ((settles_readExpression value isValue.1 isValue.2).bind_pure _).single
    | fieldAssignment =>
      obtain ⟨_, _, rfl, ⟨_, _, rfl, ⟨_, _, rfl, ⟨_, _, rfl, ⟨_, _, rfl, ⟨record, rfl, isRecord⟩, rfl⟩,
        ⟨field, rfl, isField⟩⟩, ⟨_, _, rfl, rfl, rfl⟩⟩, ⟨value, rfl, isValue⟩⟩, rfl⟩ :=
        isMatch.leaves nofun
      rw [nodeFault_of_not rfl]
      exact (settles_readIdentifier isRecord.1 isRecord.2).step fun record =>
        (settles_readIdentifier isField.1 isField.2).step fun field =>
          ((settles_readExpression value isValue.1 isValue.2).bind_pure _).single
    | functionDeclaration =>
      obtain ⟨keyword, name, parameters, types, body, rfl, isKeyword, isName, listed, typed, isBody⟩ :=
        leaves_function isMatch
      have all : ∀ n ∈ parameters ++ (types ++ [body]), n.IsMatch := by
        simp only [List.forall_mem_append, List.forall_mem_singleton]
        exact ⟨listed.isMatch, typed.isMatch, isBody.2⟩
      have solid : listFault (parameters ++ types) = none := by
        rw [listFault_append, listFault_parameters listed, listFault_types typed]
        rfl
      rw [nodeFault_of_not rfl]
      refine .pass (nodeFault_keyword isKeyword.1 isKeyword.2)
        ((settles_readIdentifier isName.1 isName.2).step fun name => ?_)
      exact (settles_readParameters all).bind fun _ _ => (settles_readReturnType all).bind fun _ _ =>
        (settles_readLastBlock (parameters ++ (types ++ [body]))
          ⟨parameters ++ types, body, (List.append_assoc ..).symm, solid, isBody⟩).bind_pure _
    | block =>
      rw [nodeFault_of_not rfl]
      exact (settles_readStatements children (leaves_block isMatch)).bind_pure _
    | ifStatement =>
      obtain ⟨_, _, rfl, ⟨_, _, rfl, ⟨_, _, rfl, ⟨_, _, rfl, ⟨keyword, rfl, isKeyword⟩,
        ⟨condition, rfl, isCondition⟩⟩, ⟨body, rfl, isBody⟩⟩, others⟩, last⟩ := isMatch.leaves nofun
      rw [nodeFault_of_not rfl]
      simp only [List.append_assoc, List.singleton_append]
      refine .pass (nodeFault_keyword isKeyword.1 isKeyword.2)
        ((settles_readExpression condition isCondition.1 isCondition.2).step fun condition =>
          (settles_readBlock body isBody.1 isBody.2).step fun body =>
            (settles_readClauses _ ⟨_, _, rfl, Pattern.leaves_many_rule others, last⟩).bind_pure _)
    | whileStatement =>
      obtain ⟨_, _, rfl, ⟨_, _, rfl, ⟨keyword, rfl, isKeyword⟩, ⟨condition, rfl, isCondition⟩⟩,
        ⟨body, rfl, isBody⟩⟩ := isMatch.leaves nofun
      rw [nodeFault_of_not rfl]
      exact .pass (nodeFault_keyword isKeyword.1 isKeyword.2)
        ((settles_readExpression condition isCondition.1 isCondition.2).step fun condition =>
          ((settles_readBlock body isBody.1 isBody.2).bind_pure _).single)
    | tryStatement =>
      obtain ⟨_, _, rfl, ⟨_, _, rfl, ⟨_, _, rfl, ⟨keyword, rfl, isKeyword⟩, ⟨guarded, rfl, isGuarded⟩⟩,
        ⟨keyword', rfl, isKeyword'⟩⟩, ⟨recovery, rfl, isRecovery⟩⟩ := isMatch.leaves nofun
      rw [nodeFault_of_not rfl]
      exact .pass (nodeFault_keyword isKeyword.1 isKeyword.2)
        ((settles_readBlock guarded isGuarded.1 isGuarded.2).step fun guarded =>
          .pass (nodeFault_keyword isKeyword'.1 isKeyword'.2)
            ((settles_readBlock recovery isRecovery.1 isRecovery.2).bind_pure _).single)
    | breakStatement | continueStatement =>
      obtain ⟨_, _, rfl, ⟨keyword, rfl, isKeyword⟩, rfl⟩ := isMatch.leaves nofun
      rw [nodeFault_of_not rfl]
      exact .pass (nodeFault_keyword isKeyword.1 isKeyword.2) ⟨_, rfl⟩
    | returnStatement =>
      obtain ⟨_, _, rfl, ⟨_, _, rfl, ⟨keyword, rfl, isKeyword⟩, valued⟩, rfl⟩ := isMatch.leaves nofun
      rw [nodeFault_of_not rfl]
      rcases valued with rfl | ⟨value, rfl, isValue⟩
      · exact .pass (nodeFault_keyword isKeyword.1 isKeyword.2) ⟨_, rfl⟩
      · exact .pass (nodeFault_keyword isKeyword.1 isKeyword.2)
          ((settles_readExpression value isValue.1 isValue.2).bind_pure _).single
    | printStatement =>
      obtain ⟨_, _, rfl, ⟨_, _, rfl, ⟨keyword, rfl, isKeyword⟩, ⟨value, rfl, isValue⟩⟩, rfl⟩ :=
        isMatch.leaves nofun
      rw [nodeFault_of_not rfl]
      exact .pass (nodeFault_keyword isKeyword.1 isKeyword.2)
        ((settles_readExpression value isValue.1 isValue.2).bind_pure _).single
    | recordTypeDeclaration =>
      obtain ⟨_, _, rfl, ⟨_, _, rfl, ⟨_, _, rfl, ⟨_, _, rfl, ⟨keyword, rfl, isKeyword⟩,
        ⟨name, rfl, isName⟩⟩, rfl⟩, fields⟩, rfl⟩ := isMatch.leaves nofun
      have declarators := settles_declarators fun n listed =>
        (Pattern.leaves_many_rule fields n listed).imp_left .inr
      have declared : Settles (listFault _) _ := declarators.1.symm ▸ declarators.2
      rw [nodeFault_of_not rfl]
      simp only [List.singleton_append, List.append_nil]
      refine .pass (nodeFault_keyword isKeyword.1 isKeyword.2)
        ((settles_readIdentifier isName.1 isName.2).step fun name =>
          declared.bind_pure _)
    | recordInstanceDeclaration =>
      obtain ⟨_, _, rfl, ⟨_, _, rfl, ⟨type, rfl, isType⟩, ⟨name, rfl, isName⟩⟩, rfl⟩ :=
        isMatch.leaves nofun
      rw [nodeFault_of_not rfl]
      exact (settles_readIdentifier isType.1 isType.2).step fun type =>
        ((settles_readIdentifier isName.1 isName.2).bind_pure _).single
    | expressionStatement =>
      obtain ⟨_, _, rfl, ⟨value, rfl, isValue⟩, rfl⟩ := isMatch.leaves nofun
      rw [nodeFault_of_not rfl]
      exact ((settles_readExpression value isValue.1 isValue.2).bind_pure _).single
    | _ => cases isStatement

theorem settles_readStatements : (nodes : List Node) →
    (∀ n ∈ nodes, n.rule.isStatement = true ∧ n.IsMatch) →
    Settles (listFault nodes) (readStatements nodes)
  | [] => fun _ => .done []
  | n :: rest => by
    intro all
    rw [List.forall_mem_cons] at all
    rw [readStatements]
    exact (settles_readStatement n all.1.1 all.1.2).step fun a =>
      (settles_readStatements rest all.2).bind_pure _

theorem settles_readBlock : (n : Node) → n.rule = .block → n.IsMatch →
    Settles (nodeFault n) (readBlock n)
  | .mk rule start stop children => by
    intro named isMatch
    obtain rfl : rule = .block := named
    rw [nodeFault_of_not rfl, readBlock]
    exact (settles_readStatements children (leaves_block isMatch)).bind_pure _

theorem settles_readLastBlock : (nodes : List Node) →
    (∃ front body, nodes = front ++ [body] ∧ listFault front = none ∧
      body.rule = .block ∧ body.IsMatch) →
    Settles (listFault nodes) (readLastBlock nodes)
  | [] => fun ⟨front, body, listed, _⟩ => absurd listed.symm (by simp)
  | n :: rest => by
    rintro ⟨_ | ⟨first, front⟩, body, listed, solid, isBody⟩
    · obtain ⟨rfl, rfl⟩ := List.cons.inj listed
      exact (settles_readBlock n isBody.1 isBody.2).single
    · obtain ⟨rfl, rfl⟩ := List.cons.inj listed
      rw [listFault_cons, Option.or_eq_none_iff] at solid
      rw [readLastBlock_cons (by simp)]
      exact .pass solid.1 (settles_readLastBlock (front ++ [body]) ⟨front, body, rfl, solid.2, isBody⟩)

theorem settles_readClauses : (nodes : List Node) →
    (∃ others last, nodes = others ++ last ∧
      (∀ n ∈ others, n.rule = .elseIfClause ∧ n.IsMatch) ∧
        (Pattern.optional (.rule .elseClause)).Leaves last) →
    Settles (listFault nodes) (readClauses nodes)
  | [] => fun _ => .done ([], none)
  | .mk rule start stop children :: rest => by
    rintro ⟨_ | ⟨n, others⟩, last, listed, isElseIf, isElse⟩
    · rcases isElse with rfl | ⟨n, rfl, named, isMatch⟩
      · cases listed
      · obtain ⟨rfl, rfl⟩ := List.cons.inj listed
        obtain rfl : rule = .elseClause := named
        obtain ⟨_, _, rfl, ⟨keyword, rfl, isKeyword⟩, ⟨body, rfl, isBody⟩⟩ := isMatch.leaves nofun
        refine Settles.single ?_
        rw [nodeFault_of_not rfl]
        exact .pass (nodeFault_keyword isKeyword.1 isKeyword.2)
          ((settles_readBlock body isBody.1 isBody.2).bind_pure fun body => ([], some body)).single
    · obtain ⟨rfl, rfl⟩ := List.cons.inj listed
      rw [List.forall_mem_cons] at isElseIf
      obtain ⟨⟨named, isMatch⟩, isElseIf⟩ := isElseIf
      obtain rfl : rule = .elseIfClause := named
      obtain ⟨_, _, rfl, ⟨_, _, rfl, ⟨_, _, rfl, ⟨keyword, rfl, isKeyword⟩,
        ⟨keyword', rfl, isKeyword'⟩⟩, ⟨condition, rfl, isCondition⟩⟩, ⟨body, rfl, isBody⟩⟩ :=
        isMatch.leaves nofun
      have later := settles_readClauses (others ++ last) ⟨others, last, rfl, isElseIf, isElse⟩
      have faults : nodeFault (.mk .elseIfClause start stop [keyword, keyword', condition, body]) =
          (nodeFault condition).or (nodeFault body) := by
        rw [nodeFault_of_not rfl, listFault_cons, listFault_cons, listFault_cons, listFault_cons,
          nodeFault_keyword isKeyword.1 isKeyword.2, nodeFault_keyword isKeyword'.1 isKeyword'.2,
          Option.none_or, Option.none_or]
        exact congrArg _ (Option.or_none)
      rw [listFault_cons]
      change Settles ((nodeFault (.mk .elseIfClause start stop [keyword, keyword', condition, body])).or _) _
      rw [faults, Option.or_assoc]
      exact (settles_readExpression condition isCondition.1 isCondition.2).bind fun condition _ =>
        (settles_readBlock body isBody.1 isBody.2).bind fun body _ =>
          later.bind_pure fun clauses => (Branch.mk condition body _ :: clauses.1, clauses.2)

end

end Parsing

end CheckedScript
