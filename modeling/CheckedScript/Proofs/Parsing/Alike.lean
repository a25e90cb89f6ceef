import CheckedScript.Proofs.Ast.Bare
import CheckedScript.Proofs.Grammar.Filler
import CheckedScript.Proofs.Parsing.Verdict

/-!
# Blanks and comments do not matter

What is read of a concrete tree does not depend on the places of its nodes, but for the spans. So
blanks and comments that are filled in between the tokens of a program leave its syntax tree as it is
(`parseProgram_insert`).
-/

namespace CheckedScript

namespace Parsing

open Grammar

/-- Where the first reader finds something the second one finds the same, up to what `bare` leaves out. -/
def Echoes {α β : Type} (bare : α → β) (read read' : Except ParseError α) : Prop :=
  ∀ a, read = .ok a → ∃ a', read' = .ok a' ∧ bare a' = bare a

section

variable {α β γ δ : Type} {bare : α → β} {bare' : γ → δ} {read read' : Except ParseError α}

theorem Echoes.pure {a a' : α} (same : bare a' = bare a) :
    Echoes bare (pure a : Except ParseError α) (pure a') := by
  rintro _ ⟨⟩
  exact ⟨a', rfl, same⟩

theorem Echoes.bind {next next' : α → Except ParseError γ} (first : Echoes bare read read')
    (later : ∀ a a', bare a' = bare a → Echoes bare' (next a) (next' a')) :
    Echoes bare' (read >>= next) (read' >>= next') := by
  intro c found
  obtain ⟨a, here, there⟩ := bind_eq_ok_iff.mp found
  obtain ⟨a', here', same⟩ := first a here
  obtain ⟨c', there', same'⟩ := later a a' same c there
  exact ⟨c', bind_eq_ok_iff.mpr ⟨a', here', there'⟩, same'⟩

theorem Echoes.map {f : α → γ} (echoes : Echoes bare read read')
    (kept : ∀ a a', bare a' = bare a → bare' (f a') = bare' (f a)) :
    Echoes bare' (read.map f) (read'.map f) := by
  cases read with
  | error e => nofun
  | ok a =>
    obtain ⟨a', rfl, same⟩ := echoes a rfl
    rintro _ ⟨⟩
    exact ⟨f a', rfl, kept a a' same⟩

theorem Echoes.refused {e : ParseError} : Echoes bare (.error e) read' := nofun

theorem echoes_mapM {read : Node → Except ParseError α} {nodes nodes' : List Node}
    (alike : Node.AllAlike nodes nodes')
    (each : ∀ n ∈ nodes, ∀ n', Node.Alike n n' → Echoes bare (read n) (read n')) :
    Echoes (List.map bare) (nodes.mapM read) (nodes'.mapM read) := by
  induction nodes generalizing nodes' with
  | nil =>
    cases alike
    exact .pure rfl
  | cons n rest ih =>
    cases alike with
    | @cons _ n' _ rest' here others =>
    rw [List.forall_mem_cons] at each
    rw [List.mapM_cons, List.mapM_cons]
    exact (each.1 n' here).bind fun a a' same => (ih others each.2).bind fun as as' sames =>
      .pure (by rw [List.map_cons, List.map_cons, same, sames])

end

/-! ## Literals, names and types -/

section

variable {n n' : Node}

theorem echoes_readIdentifier (alike : n.Alike n') :
    Echoes Identifier.bare (readIdentifier n) (readIdentifier n') := by
  unfold readIdentifier
  split
  · have same := alike.characters_eq nofun
    cases alike
    refine .pure ?_
    rw [Identifier.bare, Identifier.bare, Node.text, Node.text, same]
  · exact .refused

theorem echoes_readInteger (alike : n.Alike n') (closed : n.rule.spacing ≠ .free) :
    Echoes id (readInteger n) (readInteger n') := by
  unfold readInteger
  rw [alike.characters_eq closed]
  split
  · exact .pure rfl
  · exact .refused

theorem echoes_readFloat (alike : n.Alike n') (closed : n.rule.spacing ≠ .free) :
    Echoes id (readFloat n) (readFloat n') := by
  unfold readFloat
  rw [alike.characters_eq closed]
  split
  · exact .pure rfl
  · exact .refused

theorem echoes_readNumberElement (alike : n.Alike n') (closed : n.rule.spacing ≠ .free) :
    Echoes id (readNumberElement n) (readNumberElement n') := by
  unfold readNumberElement
  rw [alike.characters_eq closed]
  split
  · exact (echoes_readFloat alike closed).map fun _ _ => congrArg NumberLiteral.float
  · exact (echoes_readInteger alike closed).map fun _ _ => congrArg NumberLiteral.int

/-- The content between quotes is a match without blanks. -/
theorem closed_of_quoted (isMatch : n.IsMatch) (quoted : n.rule = .string ∨ n.rule = .charLiteral) :
    ∀ content ∈ n.children, content.rule.spacing ≠ .free := by
  obtain ⟨rule, start, stop, children⟩ := n
  obtain rfl | rfl : rule = .string ∨ rule = .charLiteral := quoted
  · obtain ⟨_, _, rfl, ⟨_, _, rfl, rfl, ⟨content, rfl, named, -⟩⟩, rfl⟩ := isMatch.leaves nofun
    exact List.forall_mem_singleton.mpr (by rw [named]; nofun)
  · obtain ⟨_, _, rfl, ⟨_, _, rfl, rfl, ⟨content, rfl, named, -⟩⟩, rfl⟩ := isMatch.leaves nofun
    exact List.forall_mem_singleton.mpr (by rw [named]; nofun)

theorem echoes_readQuoted (isMatch : n.IsMatch) (quoted : n.rule = .string ∨ n.rule = .charLiteral)
    (alike : n.Alike n') : Echoes id (readQuoted n) (readQuoted n') := by
  have closed := closed_of_quoted isMatch quoted
  have children := alike.children
  unfold readQuoted
  split
  · next content rest listed =>
    rw [listed] at closed children
    obtain ⟨content', rest', listed', same, -⟩ := Node.allAlike_cons_iff.mp children
    rw [listed']
    dsimp only
    rw [same.characters_eq (closed content (List.mem_cons_self ..))]
    intro a found
    cases known : unescape content.characters with
    | error e =>
      rw [known] at found
      cases found
    | ok read =>
      rw [known] at found
      cases found
      exact ⟨_, rfl, rfl⟩
  · exact .refused

theorem echoes_readString (isMatch : n.IsMatch) (named : n.rule = .string) (alike : n.Alike n') :
    Echoes id (readString n) (readString n') := by
  exact (echoes_readQuoted isMatch (.inl named) alike).map fun _ _ =>
    congrArg String.ofList

theorem echoes_readChar (isMatch : n.IsMatch) (named : n.rule = .charLiteral) (alike : n.Alike n') :
    Echoes id (readChar n) (readChar n') := by
  rw [readChar]
  refine (echoes_readQuoted isMatch (.inr named) alike).bind fun a a' same => ?_
  obtain rfl : a' = a := same
  split
  · exact .pure rfl
  · exact .refused

theorem echoes_readTypeName (alike : n.Alike n') (closed : n.rule.spacing ≠ .free) :
    Echoes TypeName.bare (readTypeName n) (readTypeName n') := by
  unfold readTypeName
  rw [alike.characters_eq closed]
  split
  · exact .pure rfl
  · exact .refused

theorem echoes_readDeclarator (declarator : IsDeclarator n) (alike : n.Alike n') :
    Echoes Declarator.bare (readDeclarator n) (readDeclarator n') := by
  obtain ⟨type, name, listed, isType, -⟩ := declarator.children
  have children := alike.children
  rw [listed] at children
  obtain ⟨type', _, listed', types, others⟩ := Node.allAlike_cons_iff.mp children
  obtain ⟨name', _, rfl, names, none⟩ := Node.allAlike_cons_iff.mp others
  obtain rfl := Node.allAlike_nil_iff.mp none
  rw [readDeclarator, readDeclarator, listed, listed']
  exact (echoes_readTypeName types (by rw [isType.1]; decide)).bind fun type type' same =>
    (echoes_readIdentifier names).bind fun name name' same' =>
      .pure (by rw [Declarator.bare, Declarator.bare, same, same'])

end

/-! ## Expressions -/

theorem echoes_readPart {n n' : Node} (alike : n.Alike n')
    (primary : Echoes Expression.bare (readPrimary n) (readPrimary n')) :
    Echoes ExpressionPart.bare (readPart n) (readPart n') := by
  unfold readPart
  split
  · cases alike
    exact .pure rfl
  · cases alike
    exact .pure rfl
  · next noUnary noBinary =>
    cases alike
    split
    · next same =>
      cases same
      exact (noUnary _ _ _ _ rfl).elim
    · next same =>
      cases same
      exact (noBinary _ _ _ _ rfl).elim
    · exact primary.map fun _ _ => congrArg ExpressionPart.operand

/-- Literals keep their values. -/
theorem echoes_literal {α : Type} {read read' : Except ParseError α} {literal literal' : α → Expression}
    (echoes : Echoes id read read') (same : ∀ x, (literal' x).bare = (literal x).bare) :
    Echoes Expression.bare (read >>= fun x => pure (literal x)) (read' >>= fun x => pure (literal' x)) :=
  echoes.bind fun a a' known => .pure (by rw [show a' = a from known, same])

theorem echoes_elements {α : Type} {read : Node → Except ParseError α} {name : Rule}
    {children children' : List Node} {literal literal' : List α → Expression}
    (leaves : (Pattern.word "[" ++ Pattern.commaSeparated (.rule name) ++ .word "]").Leaves children)
    (alike : Node.AllAlike children children')
    (each : ∀ n n' : Node, n.rule = name → n.IsMatch → n.Alike n' → Echoes id (read n) (read n'))
    (same : ∀ x, (literal' x).bare = (literal x).bare) :
    Echoes Expression.bare (children.mapM read >>= fun x => pure (literal x))
      (children'.mapM read >>= fun x => pure (literal' x)) := by
  have elements := echoes_mapM alike fun n listed n' here =>
    each n n' (leaves_array leaves n listed).1 (leaves_array leaves n listed).2 here
  refine elements.bind fun xs xs' known => .pure ?_
  rw [List.map_id, List.map_id] at known
  rw [known, same]

mutual

theorem echoes_readExpression : (n : Node) → n.IsMatch → ∀ {n' : Node}, n.Alike n' →
    Echoes Expression.bare (readExpression n) (readExpression n')
  | .mk rule start stop children => by
    intro isMatch n' alike
    obtain ⟨_, _, children', rfl, below⟩ := alike.exists_mk
    have inside := echoes_readParts children isMatch.of_child below
    unfold readExpression
    split
    · next same =>
      cases same
      refine inside.bind fun parts parts' same => ?_
      have grouped := ExpressionPart.group_bare parts'
      rw [same, ExpressionPart.group_bare] at grouped
      intro value found
      split at found
      · next known =>
        cases found
        rw [known] at grouped
        obtain ⟨value', known', bare⟩ := Option.map_eq_some_iff.mp grouped.symm
        rw [known']
        exact ⟨value', rfl, bare⟩
      · cases found
    · exact .refused

theorem echoes_readParts : (nodes : List Node) → (∀ n ∈ nodes, n.IsMatch) →
    ∀ {nodes' : List Node}, Node.AllAlike nodes nodes' →
    Echoes (List.map ExpressionPart.bare) (readParts nodes) (readParts nodes')
  | [] => by
    intro _ nodes' alike
    obtain rfl := Node.allAlike_nil_iff.mp alike
    exact .pure rfl
  | n :: rest => by
    intro all nodes' alike
    rw [List.forall_mem_cons] at all
    obtain ⟨n', rest', rfl, here, others⟩ := Node.allAlike_cons_iff.mp alike
    rw [readParts_eq_mapM, readParts_eq_mapM, List.mapM_cons, List.mapM_cons, ← readParts_eq_mapM,
      ← readParts_eq_mapM]
    exact (echoes_readPart here (echoes_readPrimary n all.1 here)).bind fun part part' same =>
      (echoes_readParts rest all.2 others).bind fun more more' sames =>
        .pure (by rw [List.map_cons, List.map_cons, same, sames])

theorem echoes_readPrimary : (n : Node) → n.IsMatch → ∀ {n' : Node}, n.Alike n' →
    Echoes Expression.bare (readPrimary n) (readPrimary n')
  | .mk rule start stop children => by
    intro isMatch n' alike
    obtain ⟨_, _, children', rfl, below⟩ := alike.exists_mk
    have matched := isMatch.of_child
    unfold readPrimary
    dsimp only
    -- Those that are not named are the literals.
    split
    case h_1 => exact echoes_literal (echoes_readInteger alike nofun) fun _ => rfl
    case h_2 => exact echoes_literal (echoes_readFloat alike nofun) fun _ => rfl
    case h_3 => exact echoes_literal (echoes_readString isMatch rfl alike) fun _ => rfl
    case h_4 => exact echoes_literal (echoes_readChar isMatch rfl alike) fun _ => rfl
    case h_5 =>
      refine .pure ?_
      rw [Node.text, Node.text, alike.characters_eq nofun]
      rfl
    case h_6 =>
      exact echoes_elements (isMatch.leaves nofun) below (fun n n' named _ alike =>
        echoes_readNumberElement alike (by rw [named]; nofun)) fun _ => rfl
    case h_7 =>
      exact echoes_elements (isMatch.leaves nofun) below (fun n n' named isMatch alike =>
        echoes_readChar isMatch named alike) fun _ => rfl
    case h_8 =>
      exact echoes_elements (isMatch.leaves nofun) below (fun n n' named isMatch alike =>
        echoes_readString isMatch named alike) fun _ => rfl
    case h_15 => exact .refused
    case h_9 =>
      exact (echoes_readIdentifier alike).bind fun name name' same => .pure (by
        rw [Expression.bare, Expression.bare, same])
    all_goals simp only [Node.allAlike_cons_iff, Node.allAlike_nil_iff] at below
    case h_10 =>
      obtain ⟨name', _, rfl, names, rfl⟩ := below
      exact (echoes_readIdentifier names).bind fun name name' same => .pure (by
        rw [Expression.bare, Expression.bare, same])
    case h_11 name rule' start' stop' arguments =>
      obtain ⟨name', _, rfl, names, _, _, rfl, lists, rfl⟩ := below
      obtain ⟨_, _, arguments', rfl, below⟩ := lists.exists_mk
      have inner := (matched (.mk rule' start' stop' arguments) (by simp)).of_child
      exact (echoes_readIdentifier names).bind fun name name' same =>
        (echoes_readArguments arguments inner below).bind fun values values' sames => .pure (by
          rw [Expression.bare, Expression.bare, same, sames])
    case h_12 array index =>
      obtain ⟨array', _, rfl, arrays, index', _, rfl, indexes, rfl⟩ := below
      exact (echoes_readIdentifier arrays).bind fun array array' same =>
        (echoes_readExpression index (matched index (by simp)) indexes).bind fun value value' same' =>
          .pure (by rw [Expression.bare, Expression.bare, same, same'])
    case h_13 =>
      obtain ⟨record', _, rfl, records, field', _, rfl, fields, rfl⟩ := below
      exact (echoes_readIdentifier records).bind fun record record' same =>
        (echoes_readIdentifier fields).bind fun field field' same' =>
          .pure (by rw [Expression.bare, Expression.bare, same, same'])
    case h_14 inner =>
      obtain ⟨inner', _, rfl, inners, rfl⟩ := below
      exact (echoes_readExpression inner (matched inner (by simp)) inners).bind
        fun value value' same => .pure (by rw [Expression.bare, Expression.bare, same])

theorem echoes_readArguments : (nodes : List Node) → (∀ n ∈ nodes, n.IsMatch) →
    ∀ {nodes' : List Node}, Node.AllAlike nodes nodes' →
    Echoes Expression.listBare (readArguments nodes) (readArguments nodes')
  | [] => by
    intro _ nodes' alike
    obtain rfl := Node.allAlike_nil_iff.mp alike
    exact .pure rfl
  | n :: rest => by
    intro all nodes' alike
    rw [List.forall_mem_cons] at all
    obtain ⟨n', rest', rfl, here, others⟩ := Node.allAlike_cons_iff.mp alike
    rw [readArguments, readArguments]
    exact (echoes_readExpression n all.1 here).bind fun value value' same =>
      (echoes_readArguments rest all.2 others).bind fun more more' sames =>
        .pure (by rw [Expression.listBare, Expression.listBare, same, sames])

end

/-! ## Statements -/

theorem echoes_readParameters {signature signature' : List Node} (all : ∀ n ∈ signature, n.IsMatch)
    (alike : Node.AllAlike signature signature') :
    Echoes (List.map Declarator.bare) (readParameters signature) (readParameters signature') := by
  cases signature with
  | nil =>
    obtain rfl := Node.allAlike_nil_iff.mp alike
    exact .pure rfl
  | cons n rest =>
    obtain ⟨n', rest', rfl, here, -⟩ := Node.allAlike_cons_iff.mp alike
    obtain ⟨rule, start, stop, children⟩ := n
    obtain ⟨_, _, children', rfl, below⟩ := here.exists_mk
    by_cases named : rule = .parameterList
    · subst named
      exact echoes_mapM below fun n listed n' => echoes_readDeclarator
        (isDeclarator_of_parameterList (all _ (List.mem_cons_self ..)) n listed)
    · have none (start stop : Cursor) (children rest : List Node) :
          readParameters (.mk rule start stop children :: rest) = .ok [] := by
        unfold readParameters
        split
        · next listed =>
          cases listed
          exact absurd rfl named
        · rfl
      rw [none, none]
      exact .pure rfl

theorem echoes_readReturnType {signature signature' : List Node}
    (alike : Node.AllAlike signature signature') :
    Echoes (Option.map TypeName.bare) (readReturnType signature) (readReturnType signature') := by
  induction signature generalizing signature' with
  | nil =>
    obtain rfl := Node.allAlike_nil_iff.mp alike
    exact .pure rfl
  | cons n rest ih =>
    obtain ⟨n', rest', rfl, here, others⟩ := Node.allAlike_cons_iff.mp alike
    by_cases named : n.rule = .typeName
    · have closed : n.rule.spacing ≠ .free := by rw [named]; nofun
      have read := echoes_readTypeName here closed
      obtain ⟨rule, start, stop, children⟩ := n
      obtain rfl : rule = .typeName := named
      obtain ⟨_, _, children', rfl, -⟩ := here.exists_mk
      exact read.bind fun type type' same => .pure (congrArg some same)
    · rw [readReturnType_cons named, readReturnType_cons (by rwa [here.rule_eq])]
      exact ih others

mutual

theorem echoes_readStatement : (n : Node) → n.IsMatch → ∀ {n' : Node}, n.Alike n' →
    Echoes Statement.bare (readStatement n) (readStatement n')
  | .mk rule start stop children => by
    intro isMatch n' alike
    obtain ⟨_, _, children', rfl, below⟩ := alike.exists_mk
    have matched := isMatch.of_child
    unfold readStatement
    dsimp only
    -- The cases are the kinds of statements, in the order in which they are told apart.
    split
    case h_6 =>
      exact (echoes_readStatements children matched below).bind fun statements statements' same =>
        .pure (by rw [Statement.bare, Statement.bare, Block.bare, Block.bare, same])
    case h_10 | h_11 => exact .pure rfl
    case h_18 => exact .refused
    all_goals simp only [Node.allAlike_cons_iff, Node.allAlike_nil_iff] at below
    case h_1 type name =>
      obtain ⟨type', _, rfl, types, name', _, rfl, names, rfl⟩ := below
      exact (echoes_readTypeName types (by rw [typeName_of_variable isMatch]; nofun)).bind
        fun type type' typed => (echoes_readIdentifier names).bind fun name name' named =>
          .pure (by rw [Statement.bare, Statement.bare, typed, named])
    case h_2 type name value =>
      obtain ⟨type', _, rfl, types, name', _, rfl, names, value', _, rfl, values, rfl⟩ := below
      exact (echoes_readTypeName types (by rw [typeName_of_variable isMatch]; nofun)).bind
        fun type type' typed => (echoes_readIdentifier names).bind fun name name' named =>
          (echoes_readExpression value (matched value (by simp)) values).bind fun value value' valued =>
            .pure (by
              rw [Statement.bare, Statement.bare, typed, named]
              exact congrArg (Statement.variable _ _ · _) (congrArg some valued))
    case h_3 name value =>
      obtain ⟨name', _, rfl, names, value', _, rfl, values, rfl⟩ := below
      exact (echoes_readIdentifier names).bind fun name name' named =>
        (echoes_readExpression value (matched value (by simp)) values).bind fun value value' valued =>
          .pure (by rw [Statement.bare, Statement.bare, named, valued])
    case h_4 record field value =>
      obtain ⟨record', _, rfl, records, field', _, rfl, fields, value', _, rfl, values, rfl⟩ := below
      exact (echoes_readIdentifier records).bind fun record record' named =>
        (echoes_readIdentifier fields).bind fun field field' named' =>
          (echoes_readExpression value (matched value (by simp)) values).bind fun value value' valued =>
            .pure (by rw [Statement.bare, Statement.bare, named, named', valued])
    case h_5 keyword name signature =>
      obtain ⟨_, _, rfl, -, name', signature', rfl, names, below⟩ := below
      have inner : ∀ n ∈ signature, n.IsMatch := fun n listed => matched n (by simp [listed])
      exact (echoes_readIdentifier names).bind fun name name' named =>
        (echoes_readParameters inner below).bind fun parameters parameters' declared =>
          (echoes_readReturnType below).bind fun type type' typed =>
            (echoes_readLastBlock signature inner below).bind fun body body' same =>
              .pure (by rw [Statement.bare, Statement.bare, named, declared, typed, same])
    case h_7 keyword condition body clauses =>
      obtain ⟨_, _, rfl, -, condition', _, rfl, conditions, body', clauses', rfl, bodies, below⟩ := below
      have inner : ∀ n ∈ clauses, n.IsMatch := fun n listed => matched n (by simp [listed])
      exact (echoes_readExpression condition (matched condition (by simp)) conditions).bind
        fun condition condition' tested =>
          (echoes_readBlock body (matched body (by simp)) bodies).bind fun body body' same =>
            (echoes_readClauses clauses inner below).bind fun read read' sames => .pure (by
              obtain ⟨branches, otherwise⟩ := Prod.mk.inj sames
              rw [Statement.bare_conditional, Statement.bare_conditional, Branch.listBare,
                Branch.listBare, tested, same, branches, otherwise])
    case h_8 keyword condition body =>
      obtain ⟨_, _, rfl, -, condition', _, rfl, conditions, body', _, rfl, bodies, rfl⟩ := below
      exact (echoes_readExpression condition (matched condition (by simp)) conditions).bind
        fun condition condition' tested =>
          (echoes_readBlock body (matched body (by simp)) bodies).bind fun body body' same =>
            .pure (by rw [Statement.bare, Statement.bare, tested, same])
    case h_9 keyword guarded keyword' recovery =>
      obtain ⟨_, _, rfl, -, guarded', _, rfl, first, _, _, rfl, -, recovery', _, rfl, second, rfl⟩ := below
      exact (echoes_readBlock guarded (matched guarded (by simp)) first).bind
        fun guarded guarded' same =>
          (echoes_readBlock recovery (matched recovery (by simp)) second).bind
            fun recovery recovery' same' => .pure (by rw [Statement.bare, Statement.bare, same, same'])
    case h_12 =>
      obtain ⟨_, _, rfl, -, rfl⟩ := below
      exact .pure rfl
    case h_13 keyword value =>
      obtain ⟨_, _, rfl, -, value', _, rfl, values, rfl⟩ := below
      exact (echoes_readExpression value (matched value (by simp)) values).bind
        fun value value' valued => .pure
          (congrArg (Statement.return · default) (congrArg some valued))
    case h_14 keyword value =>
      obtain ⟨_, _, rfl, -, value', _, rfl, values, rfl⟩ := below
      exact (echoes_readExpression value (matched value (by simp)) values).bind
        fun value value' valued => .pure (by rw [Statement.bare, Statement.bare, valued])
    case h_15 keyword name fields =>
      obtain ⟨_, _, rfl, -, name', fields', rfl, names, below⟩ := below
      have declarators := isDeclarator_of_recordType isMatch
      exact (echoes_readIdentifier names).bind fun name name' named =>
        (echoes_mapM below fun n listed n' => echoes_readDeclarator (declarators n listed)).bind
          fun fields fields' declared => .pure (by
            rw [Statement.bare, Statement.bare, named, declared])
    case h_16 =>
      obtain ⟨type', _, rfl, types, name', _, rfl, names, rfl⟩ := below
      exact (echoes_readIdentifier types).bind fun type type' named =>
        (echoes_readIdentifier names).bind fun name name' named' =>
          .pure (by rw [Statement.bare, Statement.bare, named, named'])
    case h_17 value =>
      obtain ⟨value', _, rfl, values, rfl⟩ := below
      exact (echoes_readExpression value (matched value (by simp)) values).bind
        fun value value' valued => .pure (by rw [Statement.bare, Statement.bare, valued])

theorem echoes_readStatements : (nodes : List Node) → (∀ n ∈ nodes, n.IsMatch) →
    ∀ {nodes' : List Node}, Node.AllAlike nodes nodes' →
    Echoes Statement.listBare (readStatements nodes) (readStatements nodes')
  | [] => by
    intro _ nodes' alike
    obtain rfl := Node.allAlike_nil_iff.mp alike
    exact .pure rfl
  | n :: rest => by
    intro all nodes' alike
    rw [List.forall_mem_cons] at all
    obtain ⟨n', rest', rfl, here, others⟩ := Node.allAlike_cons_iff.mp alike
    rw [readStatements, readStatements]
    exact (echoes_readStatement n all.1 here).bind fun statement statement' same =>
      (echoes_readStatements rest all.2 others).bind fun more more' sames =>
        .pure (by rw [Statement.listBare, Statement.listBare, same, sames])

theorem echoes_readBlock : (n : Node) → n.IsMatch → ∀ {n' : Node}, n.Alike n' →
    Echoes Block.bare (readBlock n) (readBlock n')
  | .mk rule start stop children => by
    intro isMatch n' alike
    obtain ⟨_, _, children', rfl, below⟩ := alike.exists_mk
    have inside := echoes_readStatements children isMatch.of_child below
    unfold readBlock
    split
    · next same =>
      cases same
      exact inside.bind fun statements statements' same => .pure (by
        rw [Block.bare, Block.bare, same])
    · exact .refused

theorem echoes_readLastBlock : (nodes : List Node) → (∀ n ∈ nodes, n.IsMatch) →
    ∀ {nodes' : List Node}, Node.AllAlike nodes nodes' →
    Echoes Block.bare (readLastBlock nodes) (readLastBlock nodes')
  | [] => fun _ _ _ => .refused
  | [n] => by
    intro all nodes' alike
    obtain ⟨n', rest', rfl, here, none⟩ := Node.allAlike_cons_iff.mp alike
    obtain rfl := Node.allAlike_nil_iff.mp none
    exact echoes_readBlock n (all n (List.mem_cons_self ..)) here
  | n :: second :: rest => by
    intro all nodes' alike
    rw [List.forall_mem_cons] at all
    obtain ⟨n', others, rfl, -, alike⟩ := Node.allAlike_cons_iff.mp alike
    have later := echoes_readLastBlock (second :: rest) all.2 alike
    obtain ⟨second', rest', rfl, -, -⟩ := Node.allAlike_cons_iff.mp alike
    rwa [readLastBlock_cons (List.cons_ne_nil _ _), readLastBlock_cons (List.cons_ne_nil _ _)]

theorem echoes_readClauses : (nodes : List Node) → (∀ n ∈ nodes, n.IsMatch) →
    ∀ {nodes' : List Node}, Node.AllAlike nodes nodes' →
    Echoes (fun read => (Branch.listBare read.1, read.2.map Block.bare)) (readClauses nodes)
      (readClauses nodes')
  | [] => by
    intro _ nodes' alike
    obtain rfl := Node.allAlike_nil_iff.mp alike
    exact .pure rfl
  | n :: rest => by
    intro all nodes' alike
    rw [List.forall_mem_cons] at all
    obtain ⟨n', rest', rfl, here, others⟩ := Node.allAlike_cons_iff.mp alike
    unfold readClauses
    split
    · next listed => cases listed
    · next listed =>
      cases listed
      have matched := all.1.of_child
      obtain ⟨_, _, children', rfl, below⟩ := here.exists_mk
      simp only [Node.allAlike_cons_iff, Node.allAlike_nil_iff] at below
      obtain ⟨_, _, rfl, -, body', _, rfl, bodies, rfl⟩ := below
      exact (echoes_readBlock _ (matched _ (by simp)) bodies).bind fun body body' same =>
        .pure (by simp [same])
    · next condition body _ listed =>
      cases listed
      have matched := all.1.of_child
      obtain ⟨_, _, children', rfl, below⟩ := here.exists_mk
      simp only [Node.allAlike_cons_iff, Node.allAlike_nil_iff] at below
      obtain ⟨_, _, rfl, -, _, _, rfl, -, condition', _, rfl, conditions, body', _, rfl, bodies, rfl⟩ :=
        below
      exact (echoes_readExpression _ (matched _ (by simp)) conditions).bind
        fun condition condition' tested =>
          (echoes_readBlock _ (matched _ (by simp)) bodies).bind fun body body' same =>
            (echoes_readClauses rest all.2 others).bind fun read read' sames => .pure (by
              obtain ⟨branches, otherwise⟩ := Prod.mk.inj sames
              rw [Branch.listBare, Branch.listBare, tested, same, branches, otherwise])
    · exact .refused

end

/-! ## Programs -/

theorem echoes_program {n n' : Node} (isMatch : n.IsMatch) (named : n.rule = .program) (alike : n.Alike n') :
    Echoes Program.bare
      (readStatements (n.children.filter (·.rule ≠ .endOfInput)) >>= fun statements =>
        pure ⟨statements, n.span⟩)
      (readStatements (n'.children.filter (·.rule ≠ .endOfInput)) >>= fun statements =>
        pure ⟨statements, n'.span⟩) := by
  have below := alike.children.filter (· ≠ .endOfInput)
  obtain ⟨rule, start, stop, children⟩ := n
  obtain rfl : rule = .program := named
  obtain ⟨statements, -, -, kept, all, -⟩ := statements_of_program isMatch
  refine (echoes_readStatements _ (fun n listed => ?_) below).bind fun statements statements' same =>
    .pure (by rw [Program.bare, Program.bare, same])
  dsimp only [Node.children] at listed
  rw [kept] at listed
  exact (all n listed).2

/-- Of a program that is read a reading exists, and only one does (`Derives.unique`). Wherever between
its tokens blanks and comments are filled in, the text parses to the same tree but for the spans. -/
theorem parseProgram_insert {source : String} {program : Program}
    (parsed : parseProgram source = .ok program) :
    ∃ r, Reads .program source.toList r ∧ ∀ front filler back,
      IsBoundary source.toList r.tokens front back → IsFiller filler →
      ∃ program', parseProgram (.ofList (front ++ (filler ++ back))) = .ok program' ∧
        program'.bare = program.bare := by
  rcases readText_cases .program source.toList with
    ⟨n, r, reads, listed, named, isMatch, -, found⟩ | ⟨-, place, expected, found⟩
  · refine ⟨r, reads, fun front filler back boundary isFiller => ?_⟩
    obtain ⟨-, ends, whole⟩ := reads.alike (Alike.refl _ _)
    obtain ⟨⟨r', reads', nodes⟩, -, -⟩ := reads.alike (alike_insert boundary isFiller ends whole)
    rcases readText_cases .program (front ++ (filler ++ back)) with
      ⟨n', r'', reads'', listed', -, -, -, found'⟩ | ⟨none, -⟩
    · obtain rfl : r'' = r' := Option.some.inj (reads''.unique reads')
      rw [listed, listed'] at nodes
      obtain ⟨_, _, same, alike, -⟩ := Node.allAlike_cons_iff.mp nodes
      obtain ⟨rfl, -⟩ := List.cons.inj same
      rw [parseProgram, found] at parsed
      rw [parseProgram, String.toList_ofList, found']
      exact echoes_program isMatch named alike program parsed
    · exact absurd reads' (none r')
  · rw [parseProgram, found] at parsed
    cases parsed

/-- A comment may stand between a name and the sign behind it. -/
theorem parseProgram_insert_comment :
    let source := "x = -a[1]; print x==2;"
    let front := "x = -a[1]; print x".toList
    let filler := " // so far\n".toList
    let back := "==2;".toList
    ∃ program r program', parseProgram source = .ok program ∧ Reads .program source.toList r ∧
      IsBoundary source.toList r.tokens front back ∧ IsFiller filler ∧
      parseProgram (.ofList (front ++ (filler ++ back))) = .ok program' ∧
      program'.bare = program.bare := by
  intro source front filler back
  have parses : (parseProgram source).toOption.isSome = true := by decide +kernel
  have passes : ((readText .program source.toList).toOption.map fun n =>
      n.tokens.any fun t => t.stop.rest == back) = some true := by decide +kernel
  cases parsed : parseProgram source with
  | error =>
    rw [parsed] at parses
    cases parses
  | ok program =>
    obtain ⟨r, reads, insert⟩ := parseProgram_insert parsed
    have boundary : IsBoundary source.toList r.tokens front back := by
      refine ⟨by decide +kernel, .inr ⟨[], .nil, .inr ?_⟩⟩
      rcases readText_cases .program source.toList with
        ⟨n, r', reads', listed, -, -, -, found⟩ | ⟨none, -⟩
      · obtain rfl : r' = r := Option.some.inj (reads'.unique reads)
        rw [found] at passes
        obtain ⟨t, inside, behind⟩ := List.any_eq_true.mp (Option.some.inj passes)
        refine ⟨t, Derives.listTokens_subset reads ?_, beq_iff_eq.mp behind⟩
        rwa [listed, Node.listTokens, Node.listTokens, List.append_nil]
      · exact absurd reads (none r)
    have comment : Cursor.Gap ('/' :: '/' :: (" so far".toList ++ ['\n'])) := .comment (by decide) .nil
    have isFiller : IsFiller filler := ⟨.blank rfl comment, rfl⟩
    obtain ⟨program', parsed', same⟩ := insert front filler back boundary isFiller
    exact ⟨program, r, program', rfl, reads, boundary, isFiller, parsed', same⟩

end Parsing

end CheckedScript
