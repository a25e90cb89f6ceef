import CheckedScript.Proofs.Ast.Layout
import CheckedScript.Proofs.Parsing.Verdict

/-!
# Trees lie in their text as they should

The nodes of a concrete tree stand in the text one behind the other and one within the other. Reading
them keeps this: the tree of a program or an expression is laid out properly in the text that it was
read from (`layout_proper`). Operators bring spans of their own, which reach from the first to the last
part of what they join.
-/

namespace CheckedScript

namespace Grammar

/-- The nodes are matches and stand between two places of the text. -/
structure Placed (text : List Char) (a b : Cursor) (nodes : List Node) : Prop where
  reached : (Cursor.ofText text).LeadsTo a
  stands : Stretches a b nodes
  isMatch : ∀ n ∈ nodes, n.IsMatch

namespace Placed

variable {text : List Char} {a b : Cursor} {n : Node} {rest : List Node}

theorem head (placed : Placed text a b (n :: rest)) :
    a.offset ≤ n.start.offset ∧ (Cursor.ofText text).LeadsTo n.start ∧ n.start.LeadsTo n.stop := by
  obtain ⟨reached, stands, -⟩ := placed
  cases n
  rw [Stretches] at stands
  exact ⟨stands.1.offset_le, reached.trans stands.1, stands.2.1.leadsTo⟩

theorem tail (placed : Placed text a b (n :: rest)) : Placed text n.stop b rest := by
  obtain ⟨before, reached, inside⟩ := placed.head
  obtain ⟨-, stands, isMatch⟩ := placed
  cases n
  rw [Stretches] at stands
  exact ⟨reached.trans inside, stands.2.2, (List.forall_mem_cons.mp isMatch).2⟩

theorem inside (placed : Placed text a b (n :: rest)) : Placed text n.start n.stop n.children := by
  obtain ⟨-, reached, -⟩ := placed.head
  obtain ⟨-, stands, isMatch⟩ := placed
  obtain ⟨rule, start, stop, children⟩ := n
  rw [Stretches] at stands
  exact ⟨reached, stands.2.1, (List.forall_mem_cons.mp isMatch).1.of_child⟩

/-- The first of several nodes stand up to some place on the way. -/
theorem front {front back : List Node} (placed : Placed text a b (front ++ back)) :
    ∃ m, Placed text a m front := by
  induction front generalizing a with
  | nil => exact ⟨a, placed.reached, by rw [Stretches]; exact .refl a, List.forall_mem_nil _⟩
  | cons n rest ih =>
    obtain ⟨m, reached, stands, isMatch⟩ := ih placed.tail
    refine ⟨m, placed.reached, ?_, List.forall_mem_cons.mpr ⟨placed.isMatch n (by simp), isMatch⟩⟩
    have whole := placed.stands
    cases n
    rw [List.cons_append, Stretches] at whole
    rw [Stretches]
    exact ⟨whole.1, whole.2.1, stands⟩

theorem le {nodes : List Node} (placed : Placed text a b nodes) : a.offset ≤ b.offset :=
  placed.stands.leadsTo.offset_le

end Placed

/-- The span of a node covers its characters. -/
theorem Node.covers_span {text : List Char} {n : Node} (reached : (Cursor.ofText text).LeadsTo n.start)
    (isMatch : n.IsMatch) (advances : n.rule.advances = true) :
    n.span.Covers text n.characters ∧ n.characters ≠ [] := by
  obtain ⟨rule, start, stop, children⟩ := n
  obtain ⟨read, within, rfl⟩ := Cursor.leadsTo_iff.mp isMatch.leadsTo
  have covered : (Node.mk rule start (start.skip read) children).characters = read :=
    Cursor.textUpTo_skip within
  rw [covered]
  refine ⟨Span.covers_between reached within, ?_⟩
  rintro rfl
  obtain ⟨spacing, tokens, derived⟩ := isMatch
  exact absurd (derived.size_lt advances _ rfl) (Nat.lt_irrefl _)

end Grammar

namespace Parsing

open Grammar

/-! ## Grouping -/

/-- The layouts that a part of a flat expression brings along. -/
def partLayouts : ExpressionPart → List Layout
  | .operand value => [value.layout]
  | .unary _ span => [.mk span none []]
  | .binary _ => []

def pendingLayouts : ExpressionPart.Pending → List Layout
  | .unary _ span => [.mk span none []]
  | .binary _ left => [left.layout]

/-- The layouts of what waits, the outermost first. -/
def waitingLayouts (pending : List ExpressionPart.Pending) : List Layout :=
  pending.reverse.flatMap pendingLayouts

theorem waitingLayouts_cons (p : ExpressionPart.Pending) (outer : List ExpressionPart.Pending) :
    waitingLayouts (p :: outer) = waitingLayouts outer ++ pendingLayouts p := by
  simp [waitingLayouts]

section

variable {text : List Char} {a b : Nat}

/-- What reaches from one part to a later one is laid around what it joins. -/
theorem Laid.through {s t : Span} {covered more : List Char} {below : List Layout}
    (first : s.Covers text covered) (last : t.Covers text more) (ordered : s.stop ≤ t.start)
    (some : more ≠ []) (joined : Laid text s.start t.stop below) :
    Laid text s.start t.stop [.mk (s.through t) none below] := by
  obtain ⟨whole, covers, ends, some'⟩ := first.through last ordered some
  have laid : Laid text s.start (s.through t).stop [.mk (s.through t) none below] :=
    Laid.around covers some' nofun (by rw [ends]; exact joined)
  rwa [ends] at laid

theorem laid_apply {pending : ExpressionPart.Pending} {value : Expression}
    (laid : Laid text a b (pendingLayouts pending ++ [value.layout])) :
    Laid text a b [(pending.apply value).layout] := by
  cases pending with
  | unary operator span =>
    obtain ⟨before, proper, between, proper', after⟩ := laid
    obtain ⟨covered, covers, -⟩ := proper.covers
    obtain ⟨covered', covers', some'⟩ := proper'.covers
    have wide := proper.start_lt_stop
    have joined : Laid text span.start value.layout.span.stop [value.layout] :=
      ⟨by exact Nat.le_trans (Nat.le_of_lt wide) between, proper', Nat.le_refl _⟩
    rw [Expression.span_layout] at between after covers' joined
    exact (Laid.through covers covers' between some' joined).widen before after
  | binary operator left =>
    obtain ⟨before, proper, between, proper', after⟩ := laid
    obtain ⟨covered, covers, -⟩ := proper.covers
    obtain ⟨covered', covers', some'⟩ := proper'.covers
    have joined : Laid text left.layout.span.start value.layout.span.stop [left.layout, value.layout] :=
      ⟨Nat.le_refl _, proper, between, proper', Nat.le_refl _⟩
    rw [Expression.span_layout] at before covers joined
    rw [Expression.span_layout, Expression.span_layout] at between
    rw [Expression.span_layout] at after covers' joined
    exact (Laid.through covers covers' between some' joined).widen before after

theorem laid_settle (level : Nat) {pending : List ExpressionPart.Pending} {value : Expression}
    (laid : Laid text a b (waitingLayouts pending ++ [value.layout])) :
    Laid text a b (waitingLayouts (ExpressionPart.settle level pending value).1 ++
      [(ExpressionPart.settle level pending value).2.layout]) := by
  induction pending generalizing value with
  | nil => exact laid
  | cons innermost outer ih =>
    rw [ExpressionPart.settle]
    split
    · rw [waitingLayouts_cons, List.append_assoc] at laid
      obtain ⟨m, first, second⟩ := Laid.append_iff.mp laid
      exact ih (first.append (laid_apply second))
    · exact laid

mutual

theorem laid_groupOperand :
    (pending : List ExpressionPart.Pending) → (parts : List ExpressionPart) → {value : Expression} →
    ExpressionPart.groupOperand pending parts = some value →
    Laid text a b (waitingLayouts pending ++ parts.flatMap partLayouts) →
    Laid text a b [value.layout]
  | pending, .unary operator span :: rest, _, grouped, laid => by
    rw [ExpressionPart.groupOperand] at grouped
    refine laid_groupOperand (.unary operator span :: pending) rest grouped ?_
    rwa [waitingLayouts_cons, List.append_assoc]
  | pending, .operand value :: rest, _, grouped, laid => by
    rw [ExpressionPart.groupOperand] at grouped
    exact laid_groupOperator pending value rest grouped laid

theorem laid_groupOperator :
    (pending : List ExpressionPart.Pending) → (left : Expression) →
    (parts : List ExpressionPart) → {value : Expression} →
    ExpressionPart.groupOperator pending left parts = some value →
    Laid text a b (waitingLayouts pending ++ left.layout :: parts.flatMap partLayouts) →
    Laid text a b [value.layout]
  | pending, left, [], _, grouped, laid => by
    rw [ExpressionPart.groupOperator] at grouped
    cases grouped
    obtain ⟨m, first, second⟩ := Laid.append_iff.mp (laid_settle 0 laid)
    exact second.widen first.le (Nat.le_refl _)
  | pending, left, .binary operator :: rest, _, grouped, laid => by
    rw [ExpressionPart.groupOperator] at grouped
    refine laid_groupOperand _ rest grouped ?_
    rw [← List.singleton_append, ← List.append_assoc] at laid
    obtain ⟨m, first, second⟩ := Laid.append_iff.mp laid
    rw [waitingLayouts_cons]
    exact (laid_settle operator.level first).append second

end

theorem laid_group {parts : List ExpressionPart} {value : Expression}
    (grouped : ExpressionPart.group parts = some value)
    (laid : Laid text a b (parts.flatMap partLayouts)) : Laid text a b [value.layout] :=
  laid_groupOperand [] parts grouped laid

end

/-! ## Reading expressions -/

/-- What is read of the first of several nodes is laid out up to its end. -/
def LaysHead {α : Type} (text : List Char) (n : Node) (read : Except ParseError α)
    (found : α → List Layout) : Prop :=
  ∀ a b rest, Placed text a b (n :: rest) → ∀ x, read = .ok x →
    Laid text a.offset n.stop.offset (found x)

/-- What is read of nodes is laid out between the places where they stand. -/
def LaysAll {α : Type} (text : List Char) (nodes : List Node) (read : Except ParseError α)
    (found : α → List Layout) : Prop :=
  ∀ a b, Placed text a b nodes → ∀ x, read = .ok x → Laid text a.offset b.offset (found x)

section

variable {text : List Char}

theorem laid_nil {a b : Cursor} (placed : Placed text a b []) : Laid text a.offset b.offset [] := by
  have stands := placed.stands
  rw [Stretches] at stands
  exact stands.offset_le

/-- A node from which nothing is kept is passed over. -/
theorem laid_pass {a b : Cursor} {n : Node} {rest : List Node} (placed : Placed text a b (n :: rest)) :
    Laid text a.offset n.stop.offset [] := by
  obtain ⟨before, -, inside⟩ := placed.head
  exact Nat.le_trans before inside.offset_le

/-- A node covers what is read of it: a part around those inside. -/
theorem laid_own {a b start stop : Cursor} {rule : Rule} {children rest : List Node}
    {spelling : Option String} {below : List Layout}
    (placed : Placed text a b (.mk rule start stop children :: rest)) (advances : rule.advances = true)
    (spelled : ∀ s ∈ spelling, (Node.mk rule start stop children).characters = s.toList)
    (inside : Laid text start.offset stop.offset below) :
    Laid text start.offset stop.offset
      [.mk (.between start.position stop.position) spelling below] := by
  obtain ⟨-, reached, -⟩ := placed.head
  obtain ⟨covers, some⟩ := Node.covers_span (n := .mk rule start stop children) reached
    (placed.isMatch _ (List.mem_cons_self ..)) advances
  exact Laid.around covers some spelled inside

theorem laid_around {a b start stop : Cursor} {rule : Rule} {children rest : List Node}
    {spelling : Option String} {below : List Layout}
    (placed : Placed text a b (.mk rule start stop children :: rest)) (advances : rule.advances = true)
    (spelled : ∀ s ∈ spelling, (Node.mk rule start stop children).characters = s.toList)
    (inside : Laid text start.offset stop.offset below) :
    Laid text a.offset stop.offset [.mk (.between start.position stop.position) spelling below] :=
  (laid_own placed advances spelled inside).widen placed.head.1 (Nat.le_refl _)

/-- A part below which nothing stands. -/
theorem laid_leaf {a b start stop : Cursor} {rule : Rule} {children rest : List Node}
    (placed : Placed text a b (.mk rule start stop children :: rest)) (advances : rule.advances = true) :
    Laid text a.offset stop.offset [.mk (.between start.position stop.position) none []] :=
  laid_around placed advances (by nofun) (show Laid text _ _ [] from placed.head.2.2.offset_le)

/-- A name covers its spelling. -/
theorem laid_name {a b : Cursor} {n : Node} {rest : List Node} (placed : Placed text a b (n :: rest))
    {name : Identifier} (read : readIdentifier n = .ok name) :
    Laid text n.start.offset n.stop.offset [name.layout] := by
  obtain ⟨named, rfl⟩ := readIdentifier_eq_ok_iff.mp read
  obtain ⟨rule, start, stop, children⟩ := n
  obtain rfl : rule = .identifier := named
  refine laid_own placed rfl ?_ (show Laid text _ _ [] from placed.head.2.2.offset_le)
  rintro _ ⟨⟩
  exact String.toList_ofList.symm

theorem laysHead_readIdentifier (n : Node) :
    LaysHead text n (readIdentifier n) fun name => [name.layout] := by
  intro a b rest placed name read
  exact (laid_name placed read).widen placed.head.1 (Nat.le_refl _)

mutual

theorem laysHead_readExpression : (n : Node) →
    LaysHead text n (readExpression n) fun e => [e.layout]
  | .mk rule start stop children => by
    intro a b rest placed e read
    obtain ⟨-, parts, known, grouped⟩ := readExpression_eq_ok_iff.mp read
    exact (laid_group grouped (laysAll_readParts children _ _ placed.inside _ known)).widen
      placed.head.1 (Nat.le_refl _)

theorem laysAll_readParts : (nodes : List Node) →
    LaysAll text nodes (readParts nodes) fun parts => parts.flatMap partLayouts
  | [] => by
    intro a b placed parts read
    rw [readParts] at read
    cases read
    exact laid_nil placed
  | .mk rule start stop children :: rest => by
    intro a b placed parts read
    obtain ⟨part, more, known, known', rfl⟩ := readParts_cons_eq_ok_iff.mp read
    have later := laysAll_readParts rest _ _ placed.tail _ known'
    rcases readPart_cases known with ⟨_, rfl, rfl⟩ | ⟨_, rfl, rfl⟩ | ⟨value, readValue, rfl⟩
    · exact (laid_leaf placed rfl).append later
    · exact (laid_pass placed).append later
    · exact (laysHead_readPrimary _ _ _ _ placed _ readValue).append later

theorem laysHead_readPrimary : (n : Node) →
    LaysHead text n (readPrimary n) fun e => [e.layout]
  | .mk rule start stop children => by
    intro a b rest placed e read
    have inside := placed.inside
    cases readPrimary_form read with
    | integer | float | str | char | boolean | numberArray | charArray | strArray =>
      exact laid_leaf placed rfl
    | identifier readName => exact laid_around placed rfl nofun (laid_name placed readName)
    | plainCall readName =>
      exact laid_around placed rfl nofun
        ((laysHead_readIdentifier _ _ _ _ inside _ readName).append (laid_nil inside.tail))
    | call readName readAll =>
      have second := inside.tail
      exact laid_around placed rfl nofun
        ((laysHead_readIdentifier _ _ _ _ inside _ readName).append
          ((laysAll_readArguments _ _ _ second.inside _ readAll).widen second.head.1
            (laid_nil second.tail).le))
    | index readName readIndex =>
      exact laid_around placed rfl nofun
        ((laysHead_readIdentifier _ _ _ _ inside _ readName).append
          ((laysHead_readExpression _ _ _ _ inside.tail _ readIndex).append
            (laid_nil inside.tail.tail)))
    | fieldAccess readName readField =>
      exact laid_around placed rfl nofun
        ((laysHead_readIdentifier _ _ _ _ inside _ readName).append
          ((laysHead_readIdentifier _ _ _ _ inside.tail _ readField).append
            (laid_nil inside.tail.tail)))
    | parenthesized readInner =>
      exact laid_around placed rfl nofun
        ((laysHead_readExpression _ _ _ _ inside _ readInner).append (laid_nil inside.tail))

theorem laysAll_readArguments : (nodes : List Node) →
    LaysAll text nodes (readArguments nodes) Expression.listLayouts
  | [] => by
    intro a b placed arguments read
    rw [readArguments] at read
    cases read
    exact laid_nil placed
  | .mk rule start stop children :: rest => by
    intro a b placed arguments read
    obtain ⟨value, more, known, known', rfl⟩ := readArguments_cons_eq_ok_iff.mp read
    exact (laysHead_readExpression _ _ _ _ placed _ known).append
      (laysAll_readArguments rest _ _ placed.tail _ known')

end

/-! ## Reading statements -/

/-- A type name covers its spelling. -/
theorem laid_typeName {a b : Cursor} {n : Node} {rest : List Node} (placed : Placed text a b (n :: rest))
    (named : n.rule = .typeName) {type : TypeName} (read : readTypeName n = .ok type) :
    Laid text a.offset n.stop.offset [type.layout] := by
  have isMatch := placed.isMatch n (List.mem_cons_self ..)
  obtain ⟨type', read', spans, covers⟩ := readTypeName_eq named isMatch
  obtain rfl : type' = type := Except.ok.inj (read'.symm.trans read)
  obtain ⟨rule, start, stop, children⟩ := n
  obtain rfl : rule = .typeName := named
  rw [TypeName.layout, spans]
  exact laid_around placed rfl (by rintro _ ⟨⟩; exact covers)
    (show Laid text _ _ [] from placed.head.2.2.offset_le)

theorem laid_declarator {a b : Cursor} {n : Node} {rest : List Node} (placed : Placed text a b (n :: rest))
    (declarator : IsDeclarator n) {d : Declarator} (read : readDeclarator n = .ok d) :
    Laid text a.offset n.stop.offset d.layouts := by
  obtain ⟨type, name, listed, isType, isName⟩ := declarator.children
  have inside := placed.inside
  rw [readDeclarator, listed] at read
  rw [listed] at inside
  simp only [bind_eq_ok_iff, pure_eq_ok_iff] at read
  obtain ⟨typed, known, named, known', rfl⟩ := read
  exact ((laid_typeName inside isType.1 known).append
    ((laysHead_readIdentifier _ _ _ _ inside.tail _ known').append (laid_nil inside.tail.tail))).widen
      placed.head.1 (Nat.le_refl _)

theorem laid_declarators {a b : Cursor} {nodes : List Node} (placed : Placed text a b nodes)
    (all : ∀ n ∈ nodes, IsDeclarator n) {ds : List Declarator}
    (read : nodes.mapM readDeclarator = .ok ds) :
    Laid text a.offset b.offset (ds.flatMap Declarator.layouts) := by
  induction nodes generalizing a ds with
  | nil =>
    cases read
    exact laid_nil placed
  | cons n rest ih =>
    obtain ⟨d, more, known, known', rfl⟩ := mapM_cons_eq_ok_iff.mp read
    rw [List.forall_mem_cons] at all
    rw [List.flatMap_cons]
    exact (laid_declarator placed all.1 known).append (ih placed.tail all.2 known')

theorem laid_parameters {a b : Cursor} {front back : List Node}
    (placed : Placed text a b (front ++ back))
    (leaves : (Pattern.optional (.rule .parameterList)).Leaves front)
    (others : ∀ n ∈ back.head?, n.rule ≠ .parameterList) {parameters : List Declarator}
    (read : readParameters (front ++ back) = .ok parameters) :
    readReturnType (front ++ back) = readReturnType back ∧
      ∃ m, Laid text a.offset m.offset (parameters.flatMap Declarator.layouts) ∧
        Placed text m b back := by
  rcases leaves with rfl | ⟨⟨rule, start, stop, declared⟩, rfl, named, isList⟩
  · refine ⟨rfl, a, ?_, placed⟩
    unfold readParameters at read
    split at read
    · next listed =>
      rw [List.nil_append] at listed
      exact absurd rfl (others (.mk .parameterList _ _ _) (by rw [listed]; rfl))
    · cases read
      exact Nat.le_refl _
  · obtain rfl : rule = .parameterList := named
    refine ⟨readReturnType_cons (fun same => Rule.noConfusion same) back, stop, ?_, placed.tail⟩
    exact (laid_declarators placed.inside (isDeclarator_of_parameterList isList) read).widen
      placed.head.1 (Nat.le_refl _)

/-- No list of parameters stands behind the place of the list of parameters. -/
theorem others_of_returnType {types : List Node} {body : Node}
    (leaves : (Pattern.optional (.rule .voidType <|> .rule .typeName)).Leaves types)
    (isBlock : body.rule = .block) :
    ∀ n ∈ (types ++ [body]).head?, n.rule ≠ .parameterList := by
  rcases leaves with rfl | ⟨type, rfl, named, -⟩ | ⟨type, rfl, named, -⟩
  · rintro _ ⟨⟩
    rw [isBlock]
    nofun
  all_goals
    rintro _ ⟨⟩
    rw [named]
    nofun

theorem laid_returnType {a b : Cursor} {types : List Node} {body : Node}
    (placed : Placed text a b (types ++ [body]))
    (leaves : (Pattern.optional (.rule .voidType <|> .rule .typeName)).Leaves types)
    (isBlock : body.rule = .block) {returnType : Option TypeName}
    (read : readReturnType (types ++ [body]) = .ok returnType) :
    ∃ m, Laid text a.offset m.offset (TypeName.optionLayouts returnType) ∧ Placed text m b [body] := by
  have none : readReturnType [body] = .ok Option.none :=
    readReturnType_cons (by rw [isBlock]; nofun) []
  rcases leaves with rfl | ⟨type, rfl, named, -⟩ | ⟨type, rfl, named, -⟩
  · cases none.symm.trans read
    exact ⟨a, Nat.le_refl _, placed⟩
  · rw [List.singleton_append, readReturnType_cons (by rw [named]; nofun)] at read
    cases none.symm.trans read
    exact ⟨type.stop, laid_pass placed, placed.tail⟩
  · refine ⟨type.stop, ?_, placed.tail⟩
    obtain ⟨rule, start, stop, children⟩ := type
    obtain rfl : rule = .typeName := named
    obtain ⟨type, typed, done⟩ := bind_eq_ok_iff.mp read
    cases done
    exact laid_typeName placed rfl typed

mutual

theorem laysHead_readStatement : (n : Node) →
    LaysHead text n (readStatement n) fun s => [s.layout]
  | .mk rule start stop children => by
    have expression : ∀ n, LaysHead text n (readExpression n) fun e => [e.layout] :=
      laysHead_readExpression
    have identifier : ∀ n, LaysHead text n (readIdentifier n) fun name => [name.layout] :=
      laysHead_readIdentifier
    intro a b rest placed statement read
    have inside := placed.inside
    cases readStatement_form read with
    | declaration readType readName =>
      have isType := typeName_of_variable (placed.isMatch _ (List.mem_cons_self ..))
      exact laid_around placed rfl nofun ((laid_typeName inside isType readType).append
        ((identifier _ _ _ _ inside.tail _ readName).append (laid_nil inside.tail.tail)))
    | initialization readType readName readValue =>
      have isType := typeName_of_variable (placed.isMatch _ (List.mem_cons_self ..))
      exact laid_around placed rfl nofun ((laid_typeName inside isType readType).append
        ((identifier _ _ _ _ inside.tail _ readName).append
          ((expression _ _ _ _ inside.tail.tail _ readValue).append
            (laid_nil inside.tail.tail.tail))))
    | assignment readName readValue =>
      exact laid_around placed rfl nofun ((identifier _ _ _ _ inside _ readName).append
        ((expression _ _ _ _ inside.tail _ readValue).append (laid_nil inside.tail.tail)))
    | fieldAssignment readName readField readValue =>
      exact laid_around placed rfl nofun ((identifier _ _ _ _ inside _ readName).append
        ((identifier _ _ _ _ inside.tail _ readField).append
          ((expression _ _ _ _ inside.tail.tail _ readValue).append
            (laid_nil inside.tail.tail.tail))))
    | @function _ _ signature _ _ _ _ readName readParameters readType readBody =>
      obtain ⟨_, _, front, types, last, listed, -, -, given, returned, isBlock, -⟩ :=
        leaves_function (placed.isMatch _ (List.mem_cons_self ..))
      -- The signature stays a variable, for the body is read of it by recursion.
      have whole : signature = front ++ (types ++ [last]) := (List.cons.inj (List.cons.inj listed).2).2
      have rest := inside.tail.tail
      rw [whole] at rest readParameters readType
      obtain ⟨same, _, first, rest⟩ := laid_parameters rest given
        (others_of_returnType returned isBlock) readParameters
      obtain ⟨_, second, rest⟩ := laid_returnType rest returned isBlock (same ▸ readType)
      have third := laysHead_readLastBlock signature (front ++ types) last
        (whole.trans (List.append_assoc ..).symm) _ _ _ rest _ readBody
      exact laid_around placed rfl nofun ((laid_pass inside).append
        ((identifier _ _ _ _ inside.tail _ readName).append (first.append (second.append
          (third.append (laid_nil rest.tail))))))
    | block readAll =>
      exact laid_around placed rfl nofun
        (laid_own placed rfl nofun (laysAll_readStatements children _ _ inside _ readAll))
    | conditional readTest readBody readMore =>
      dsimp only
      rw [Statement.layout_conditional]
      exact laid_around placed rfl nofun ((laid_pass inside).append
        ((expression _ _ _ _ inside.tail _ readTest).append
          ((laysHead_readBlock _ _ _ _ inside.tail.tail _ readBody).append
            (laysAll_readClauses _ _ _ inside.tail.tail.tail _ readMore))))
    | «while» readTest readBody =>
      exact laid_around placed rfl nofun ((laid_pass inside).append
        ((expression _ _ _ _ inside.tail _ readTest).append
          ((laysHead_readBlock _ _ _ _ inside.tail.tail _ readBody).append
            (laid_nil inside.tail.tail.tail))))
    | attempt readFirst readSecond =>
      exact laid_around placed rfl nofun ((laid_pass inside).append
        ((laysHead_readBlock _ _ _ _ inside.tail _ readFirst).append
          ((laid_pass inside.tail.tail).append
            ((laysHead_readBlock _ _ _ _ inside.tail.tail.tail _ readSecond).append
              (laid_nil inside.tail.tail.tail.tail)))))
    | «break» | «continue» | plainReturn => exact laid_leaf placed rfl
    | «return» readValue | print readValue =>
      exact laid_around placed rfl nofun ((laid_pass inside).append
        ((expression _ _ _ _ inside.tail _ readValue).append (laid_nil inside.tail.tail)))
    | recordType readName readAll =>
      have declarators := isDeclarator_of_recordType (placed.isMatch _ (List.mem_cons_self ..))
      exact laid_around placed rfl nofun ((laid_pass inside).append
        ((identifier _ _ _ _ inside.tail _ readName).append
          (laid_declarators inside.tail.tail declarators readAll)))
    | recordInstance readType readName =>
      exact laid_around placed rfl nofun ((identifier _ _ _ _ inside _ readType).append
        ((identifier _ _ _ _ inside.tail _ readName).append (laid_nil inside.tail.tail)))
    | expression readValue =>
      exact laid_around placed rfl nofun ((expression _ _ _ _ inside _ readValue).append
        (laid_nil inside.tail))

theorem laysAll_readStatements : (nodes : List Node) →
    LaysAll text nodes (readStatements nodes) Statement.listLayouts
  | [] => by
    intro a b placed statements read
    rw [readStatements] at read
    cases read
    exact laid_nil placed
  | n :: rest => by
    intro a b placed statements read
    obtain ⟨statement, more, known, known', rfl⟩ := readStatements_cons_eq_ok_iff.mp read
    exact (laysHead_readStatement _ _ _ _ placed _ known).append
      (laysAll_readStatements rest _ _ placed.tail _ known')

theorem laysHead_readBlock : (n : Node) →
    LaysHead text n (readBlock n) fun body => [body.layout]
  | .mk rule start stop children => by
    intro a b rest placed body read
    obtain ⟨rfl, statements, known, rfl⟩ := readBlock_eq_ok_iff.mp read
    exact laid_around placed rfl nofun (laysAll_readStatements children _ _ placed.inside _ known)

/-- The last of several nodes is read as a block, whatever stands before it. -/
theorem laysHead_readLastBlock : (nodes : List Node) → ∀ front body, nodes = front ++ [body] →
    LaysHead text body (readLastBlock nodes) fun body => [body.layout]
  | [], _, _, listed => absurd listed.symm (by simp)
  | [n], [], _, listed => by
    cases listed
    exact laysHead_readBlock n
  | [_], _ :: _, _, listed => absurd (List.cons.inj listed).2.symm (by simp)
  | _ :: _ :: _, [], _, listed => by cases listed
  | _ :: n :: rest, _ :: front, body, listed => by
    rw [readLastBlock_cons (List.cons_ne_nil _ _)]
    exact laysHead_readLastBlock (n :: rest) front body (List.cons.inj listed).2

theorem laysAll_readClauses : (nodes : List Node) →
    LaysAll text nodes (readClauses nodes) fun read =>
      Branch.listLayouts read.1 ++ Block.optionLayouts read.2
  | [] => by
    intro a b placed clauses read
    cases readClauses_form read
    exact laid_nil placed
  | n :: rest => by
    intro a b placed clauses read
    have inside := placed.inside
    cases readClauses_form read with
    | last readBody =>
      exact (((laid_pass inside).append ((laysHead_readBlock _ _ _ _ inside.tail _ readBody).append
        (laid_nil inside.tail.tail)))).widen placed.head.1 placed.tail.le
    | further readTest readBody readMore =>
      have branch := ((laid_pass inside).append ((laid_pass inside.tail).append
        ((laysHead_readExpression _ _ _ _ inside.tail.tail _ readTest).append
          ((laysHead_readBlock _ _ _ _ inside.tail.tail.tail _ readBody).append
            (laid_nil inside.tail.tail.tail.tail))))).widen placed.head.1 (Nat.le_refl _)
      exact branch.append (laysAll_readClauses rest _ _ placed.tail _ readMore)

end

/-! ## Whole texts -/

/-- The nodes inside the node of a whole text. -/
theorem placed_readText {rule : Rule} {source : String} {n : Node}
    (read : readText rule source.toList = .ok n) :
    n.rule = rule ∧ n.IsMatch ∧
      Placed source.toList n.start n.stop n.children := by
  rcases readText_cases rule source.toList with
    ⟨n', r, -, listed, named, isMatch, stands, found⟩ | ⟨-, place, expected, found⟩
  · obtain rfl : n' = n := Except.ok.inj (found.symm.trans read)
    rw [listed] at stands
    have placed : Placed source.toList (.ofText source.toList) r.rest [n'] :=
      ⟨.refl _, stands, List.forall_mem_singleton.mpr isMatch⟩
    exact ⟨named, isMatch, placed.inside⟩
  · cases found.symm.trans read

/-- The statements of a program, its blocks, expressions, names and types cover what they should of
its text, each within the one around it and behind the one before it, and so do the parts of an
expression that is read by itself. -/
theorem layout_proper (source : String) :
    (∀ program, parseProgram source = .ok program →
      Layout.AllProper source.toList (Statement.listLayouts program.statements)) ∧
    ∀ e, parseExpression source = .ok e → e.layout.Proper source.toList := by
  constructor
  · intro program parsed
    obtain ⟨n, read, parsed⟩ := bind_eq_ok_iff.mp parsed
    obtain ⟨statements, known, done⟩ := bind_eq_ok_iff.mp parsed
    cases done
    obtain ⟨rule, start, stop, children⟩ := n
    obtain ⟨rfl, isMatch, placed⟩ := placed_readText read
    obtain ⟨statements, last, rfl, kept, -⟩ := statements_of_program isMatch
    dsimp only [Node.children] at known
    rw [kept] at known
    obtain ⟨m, placed⟩ := placed.front
    have laid := laysAll_readStatements statements _ _ placed _ known
    exact ⟨laid.pairwise, laid.proper⟩
  · intro e parsed
    obtain ⟨n, read, parsed⟩ := bind_eq_ok_iff.mp parsed
    obtain ⟨named, isMatch, placed⟩ := placed_readText read
    split at parsed
    · next value rest listed =>
      rw [listed] at placed
      exact (laysHead_readExpression value _ _ _ placed _ parsed).proper _ (List.mem_singleton_self _)
    · cases parsed

end

/-- A branch reaches up to the next statement, over the comment between them, and its spans count bytes:
a letter may take two. -/
theorem layout_proper_comment :
    let source := "if b[0] == 'ß' \x7b f(-x); \x7d // größer\nprint not \"Öl\";"
    (∃ program, parseProgram source = .ok program ∧
      (Statement.listLayouts program.statements).map (fun l => (l.span.start, l.span.stop, l.span.line)) =
        [(0, 39, 1), (39, 55, 2)] ∧
      Layout.AllProper source.toList (Statement.listLayouts program.statements)) ∧
    ∃ e, parseExpression "not \"Öl\" + -x" = .ok e ∧ e.layout.Proper "not \"Öl\" + -x".toList := by
  intro source
  have parses : ((parseProgram source).toOption.map fun program =>
      (Statement.listLayouts program.statements).map fun l => (l.span.start, l.span.stop, l.span.line)) =
        some [(0, 39, 1), (39, 55, 2)] := by decide +kernel
  have parses' : (parseExpression "not \"Öl\" + -x").toOption.isSome = true := by decide +kernel
  constructor
  · cases parsed : parseProgram source with
    | error =>
      rw [parsed] at parses
      cases parses
    | ok program =>
      rw [parsed] at parses
      exact ⟨program, rfl, Option.some.inj parses, (layout_proper source).1 program parsed⟩
  · cases parsed : parseExpression "not \"Öl\" + -x" with
    | error =>
      rw [parsed] at parses'
      cases parses'
    | ok e => exact ⟨e, rfl, (layout_proper _).2 e parsed⟩

end Parsing

end CheckedScript
