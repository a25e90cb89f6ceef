import CheckedScript.Proofs.Ast.Spans
import CheckedScript.Proofs.Grammar.Nodes
import CheckedScript.Proofs.Parsing.Forms

/-!
# The spans of what was read

Every span of a program is that of a node of its concrete tree, or reaches from one such span to
another. So all of them lie in the text that the program was read from (`liesIn_of_parseProgram`).
-/

namespace CheckedScript

namespace Grammar

mutual

/-- The spans of a node and of all the nodes inside it. -/
def Node.spans : Node → List Span
  | .mk _ start stop children => .between start.position stop.position :: Node.listSpans children

def Node.listSpans : List Node → List Span
  | [] => []
  | n :: rest => n.spans ++ Node.listSpans rest

end

theorem Node.span_mem_spans (n : Node) : n.span ∈ n.spans := by
  cases n
  exact List.mem_cons_self ..

theorem Node.forall_mem_listSpans_cons {P : Span → Prop} {n : Node} {rest : List Node} :
    (∀ s ∈ listSpans (n :: rest), P s) ↔ (∀ s ∈ n.spans, P s) ∧ ∀ s ∈ listSpans rest, P s := by
  rw [listSpans, List.forall_mem_append]

theorem Node.listSpans_eq_flatMap (nodes : List Node) : listSpans nodes = nodes.flatMap spans := by
  induction nodes with
  | nil => rfl
  | cons n rest ih => rw [listSpans, ih, List.flatMap_cons]

/-- Nodes that stand in a text have spans that lie in it. -/
theorem Stretches.liesIn {text : List Char} {a b : Cursor} {nodes : List Node}
    (placed : Stretches a b nodes) (before : (Cursor.ofText text).LeadsTo a) :
    ∀ s ∈ Node.listSpans nodes, s.LiesIn text := by
  induction a, b, nodes using Stretches.induct with
  | case1 => exact List.forall_mem_nil _
  | case2 a b rule start stop children rest inner next =>
    rw [Stretches] at placed
    obtain ⟨first, inside, behind⟩ := placed
    have here := before.trans first
    simp only [Node.listSpans, Node.spans, List.cons_append, List.forall_mem_cons,
      List.forall_mem_append]
    exact ⟨Span.liesIn_of_leadsTo here inside.leadsTo, inner inside here,
      next behind (here.trans inside.leadsTo)⟩

end Grammar

namespace Parsing

open Grammar

/-- Reaching from one stretch to another does not leave the property. -/
def ClosedUnderThrough (P : Span → Prop) : Prop := ∀ a b, P a → P b → P (a.through b)

/-- If the given spans have the property, so have those of what is read. -/
def KeepsSpans {α : Type} (P : Span → Prop) (given : List Span) (read : Except ParseError α)
    (found : α → List Span) : Prop :=
  (∀ s ∈ given, P s) → ∀ a, read = .ok a → ∀ s ∈ found a, P s

section

variable {P : Span → Prop}

/-! ## Grouping -/

/-- The spans that a part of a flat expression brings along. -/
def partSpans : ExpressionPart → List Span
  | .operand value => value.spans
  | .unary _ span => [span]
  | .binary _ => []

def pendingSpans : ExpressionPart.Pending → List Span
  | .unary _ span => [span]
  | .binary _ left => left.spans

theorem spans_apply (closed : ClosedUnderThrough P) {pending : ExpressionPart.Pending}
    {value : Expression} (waiting : ∀ s ∈ pendingSpans pending, P s)
    (all : ∀ s ∈ value.spans, P s) :
    ∀ s ∈ (pending.apply value).spans, P s := by
  have right := all _ value.span_mem_spans
  cases pending with
  | unary operator span =>
    simp only [ExpressionPart.Pending.apply, Expression.spans, List.forall_mem_cons]
    exact ⟨closed _ _ (waiting _ (List.mem_singleton_self _)) right, all⟩
  | binary operator left =>
    simp only [ExpressionPart.Pending.apply, Expression.spans, List.forall_mem_cons,
      List.forall_mem_append]
    exact ⟨closed _ _ (waiting _ left.span_mem_spans) right, waiting, all⟩

theorem spans_settle (closed : ClosedUnderThrough P) (level : Nat)
    {pending : List ExpressionPart.Pending} {value : Expression}
    (waiting : ∀ s ∈ pending.flatMap pendingSpans, P s) (all : ∀ s ∈ value.spans, P s) :
    (∀ s ∈ (ExpressionPart.settle level pending value).1.flatMap pendingSpans, P s) ∧
      ∀ s ∈ (ExpressionPart.settle level pending value).2.spans, P s := by
  induction pending generalizing value with
  | nil => exact ⟨waiting, all⟩
  | cons innermost outer ih =>
    rw [ExpressionPart.settle]
    split
    · rw [List.flatMap_cons, List.forall_mem_append] at waiting
      exact ih waiting.2 (spans_apply closed waiting.1 all)
    · exact ⟨waiting, all⟩

mutual

theorem spans_groupOperand (closed : ClosedUnderThrough P) :
    (pending : List ExpressionPart.Pending) →
    (parts : List ExpressionPart) → {value : Expression} →
    ExpressionPart.groupOperand pending parts = some value →
    (∀ s ∈ pending.flatMap pendingSpans, P s) → (∀ s ∈ parts.flatMap partSpans, P s) →
    ∀ s ∈ value.spans, P s
  | pending, .unary operator span :: rest, _, grouped, waiting, all => by
    rw [ExpressionPart.groupOperand] at grouped
    rw [List.flatMap_cons, List.forall_mem_append] at all
    refine spans_groupOperand closed (.unary operator span :: pending) rest grouped ?_ all.2
    rw [List.flatMap_cons, List.forall_mem_append]
    exact ⟨all.1, waiting⟩
  | pending, .operand value :: rest, _, grouped, waiting, all => by
    rw [ExpressionPart.groupOperand] at grouped
    rw [List.flatMap_cons, List.forall_mem_append] at all
    exact spans_groupOperator closed pending value rest grouped waiting all.1 all.2

theorem spans_groupOperator (closed : ClosedUnderThrough P) :
    (pending : List ExpressionPart.Pending) → (left : Expression) →
    (parts : List ExpressionPart) → {value : Expression} →
    ExpressionPart.groupOperator pending left parts = some value →
    (∀ s ∈ pending.flatMap pendingSpans, P s) → (∀ s ∈ left.spans, P s) →
    (∀ s ∈ parts.flatMap partSpans, P s) → ∀ s ∈ value.spans, P s
  | pending, left, [], _, grouped, waiting, first, _ => by
    rw [ExpressionPart.groupOperator] at grouped
    cases grouped
    exact (spans_settle closed 0 waiting first).2
  | pending, left, .binary operator :: rest, _, grouped, waiting, first, all => by
    rw [ExpressionPart.groupOperator] at grouped
    obtain ⟨waiting, first⟩ := spans_settle closed operator.level waiting first
    refine spans_groupOperand closed _ rest grouped ?_ all
    rw [List.flatMap_cons, List.forall_mem_append]
    exact ⟨first, waiting⟩

end

theorem spans_group (closed : ClosedUnderThrough P) {parts : List ExpressionPart}
    {value : Expression}
    (grouped : ExpressionPart.group parts = some value) (all : ∀ s ∈ parts.flatMap partSpans, P s) :
    ∀ s ∈ value.spans, P s :=
  spans_groupOperand closed [] parts grouped (List.forall_mem_nil _) all

/-! ## Expressions -/

theorem spans_readIdentifier {n : Node} {name : Identifier} (read : readIdentifier n = .ok name)
    (all : ∀ s ∈ n.spans, P s) : P name.span := by
  obtain ⟨-, rfl⟩ := readIdentifier_eq_ok_iff.mp read
  exact all _ n.span_mem_spans

mutual

theorem keepsSpans_readExpression (closed : ClosedUnderThrough P) :
    (n : Node) → KeepsSpans P n.spans (readExpression n) Expression.spans
  | .mk rule start stop children => by
    intro all e read
    rw [Node.spans, List.forall_mem_cons] at all
    obtain ⟨-, parts, known, grouped⟩ := readExpression_eq_ok_iff.mp read
    exact spans_group closed grouped (keepsSpans_readParts closed _ all.2 _ known)

theorem keepsSpans_readParts (closed : ClosedUnderThrough P) :
    (nodes : List Node) → KeepsSpans P (Node.listSpans nodes) (readParts nodes)
      fun parts => parts.flatMap partSpans
  | [] => by
    intro all parts read
    rw [readParts] at read
    cases read
    exact List.forall_mem_nil _
  | .mk rule start stop children :: rest => by
    intro all parts read
    rw [Node.forall_mem_listSpans_cons] at all
    obtain ⟨part, more, known, known', rfl⟩ := readParts_cons_eq_ok_iff.mp read
    have later := keepsSpans_readParts closed _ all.2 _ known'
    simp only [List.flatMap_cons, List.forall_mem_append]
    rcases readPart_cases known with ⟨_, -, rfl⟩ | ⟨_, -, rfl⟩ | ⟨value, readValue, rfl⟩
    · exact ⟨List.forall_mem_singleton.mpr (all.1 _ (Node.span_mem_spans _)), later⟩
    · exact ⟨List.forall_mem_nil _, later⟩
    · exact ⟨keepsSpans_readPrimary closed _ all.1 _ readValue, later⟩

theorem keepsSpans_readPrimary (closed : ClosedUnderThrough P) :
    (n : Node) → KeepsSpans P n.spans (readPrimary n) Expression.spans
  | .mk rule start stop children => by
    intro all e read
    have whole := all
    rw [Node.spans, List.forall_mem_cons] at all
    obtain ⟨own, inside⟩ := all
    cases readPrimary_form read with
    | integer | float | str | char | boolean | numberArray | charArray | strArray =>
      exact List.forall_mem_singleton.mpr own
    | identifier readName =>
      simp only [Expression.spans, List.forall_mem_cons]
      exact ⟨spans_readIdentifier readName whole, own, List.forall_mem_nil _⟩
    | plainCall readName =>
      rw [Node.forall_mem_listSpans_cons] at inside
      simp only [Expression.spans, Expression.listSpans, List.forall_mem_cons]
      exact ⟨spans_readIdentifier readName inside.1, own, List.forall_mem_nil _⟩
    | call readName readAll =>
      simp only [Node.spans, List.forall_mem_cons, Node.forall_mem_listSpans_cons] at inside
      simp only [Expression.spans, List.forall_mem_cons]
      exact ⟨spans_readIdentifier readName inside.1, own,
        keepsSpans_readArguments closed _ inside.2.1.2 _ readAll⟩
    | index readName readIndex =>
      simp only [Node.forall_mem_listSpans_cons] at inside
      simp only [Expression.spans, List.forall_mem_cons]
      exact ⟨spans_readIdentifier readName inside.1, own,
        keepsSpans_readExpression closed _ inside.2.1 _ readIndex⟩
    | fieldAccess readName readField =>
      simp only [Node.forall_mem_listSpans_cons] at inside
      simp only [Expression.spans, List.forall_mem_cons]
      exact ⟨spans_readIdentifier readName inside.1, spans_readIdentifier readField inside.2.1, own,
        List.forall_mem_nil _⟩
    | parenthesized readInner =>
      rw [Node.forall_mem_listSpans_cons] at inside
      rw [Expression.spans, List.forall_mem_cons]
      exact ⟨own, keepsSpans_readExpression closed _ inside.1 _ readInner⟩

theorem keepsSpans_readArguments (closed : ClosedUnderThrough P) :
    (nodes : List Node) → KeepsSpans P (Node.listSpans nodes) (readArguments nodes)
      Expression.listSpans
  | [] => by
    intro all arguments read
    rw [readArguments] at read
    cases read
    exact List.forall_mem_nil _
  | n :: rest => by
    intro all arguments read
    obtain ⟨value, more, known, known', rfl⟩ := readArguments_cons_eq_ok_iff.mp read
    rw [Node.forall_mem_listSpans_cons] at all
    rw [Expression.listSpans, List.forall_mem_append]
    exact ⟨keepsSpans_readExpression closed _ all.1 _ known,
      keepsSpans_readArguments closed _ all.2 _ known'⟩

end

/-! ## Statements -/

theorem spans_readTypeName {n : Node} {type : TypeName} (read : readTypeName n = .ok type)
    (all : ∀ s ∈ n.spans, P s) : P type.span := by
  unfold readTypeName at read
  dsimp only at read
  split at read
  · cases read
    exact all _ n.span_mem_spans
  · cases read

theorem keepsSpans_readDeclarator (n : Node) :
    KeepsSpans P n.spans (readDeclarator n) Declarator.spans := by
  intro all d read
  obtain ⟨rule, start, stop, children⟩ := n
  obtain ⟨type, name, rfl, readType, readName⟩ := readDeclarator_eq_ok_iff.mp read
  simp only [Node.spans, List.forall_mem_cons, Node.forall_mem_listSpans_cons] at all
  simp only [Declarator.spans, List.forall_mem_cons]
  exact ⟨spans_readTypeName readType all.2.1, spans_readIdentifier readName all.2.2.1,
    List.forall_mem_nil _⟩

theorem keepsSpans_declarators (nodes : List Node) :
    KeepsSpans P (Node.listSpans nodes) (nodes.mapM readDeclarator)
      fun ds => ds.flatMap Declarator.spans := by
  induction nodes with
  | nil =>
    intro all ds read
    cases read
    exact List.forall_mem_nil _
  | cons n rest ih =>
    intro all ds read
    obtain ⟨d, more, known, known', rfl⟩ := mapM_cons_eq_ok_iff.mp read
    rw [Node.forall_mem_listSpans_cons] at all
    simp only [List.flatMap_cons, List.forall_mem_append]
    exact ⟨keepsSpans_readDeclarator n all.1 _ known, ih all.2 _ known'⟩

theorem keepsSpans_readParameters (signature : List Node) :
    KeepsSpans P (Node.listSpans signature) (readParameters signature)
      fun ds => ds.flatMap Declarator.spans := by
  intro all ds read
  unfold readParameters at read
  split at read
  · rw [Node.forall_mem_listSpans_cons, Node.spans, List.forall_mem_cons] at all
    exact keepsSpans_declarators _ all.1.2 _ read
  · cases read
    exact List.forall_mem_nil _

theorem keepsSpans_readReturnType (signature : List Node) :
    KeepsSpans P (Node.listSpans signature) (readReturnType signature) TypeName.optionSpans := by
  induction signature with
  | nil =>
    intro all type read
    rw [readReturnType] at read
    cases read
    exact List.forall_mem_nil _
  | cons n rest ih =>
    intro all type read
    rw [Node.forall_mem_listSpans_cons] at all
    unfold readReturnType at read
    split at read
    · next listed => cases listed
    · next listed =>
      cases listed
      obtain ⟨typed, known, done⟩ := bind_eq_ok_iff.mp read
      cases done
      exact List.forall_mem_singleton.mpr (spans_readTypeName known all.1)
    · next listed =>
      cases listed
      exact ih all.2 _ read

mutual

theorem keepsSpans_readStatement (closed : ClosedUnderThrough P) :
    (n : Node) → KeepsSpans P n.spans (readStatement n) Statement.spans
  | .mk rule start stop children => by
    have expression := keepsSpans_readExpression closed
    intro all statement read
    rw [Node.spans, List.forall_mem_cons] at all
    obtain ⟨own, inside⟩ := all
    cases readStatement_form read with
    | declaration readType readName =>
      simp only [Node.forall_mem_listSpans_cons] at inside
      simp only [Statement.spans, Expression.optionSpans, List.forall_mem_cons]
      exact ⟨spans_readTypeName readType inside.1, spans_readIdentifier readName inside.2.1, own,
        List.forall_mem_nil _⟩
    | initialization readType readName readValue =>
      simp only [Node.forall_mem_listSpans_cons] at inside
      simp only [Statement.spans, Expression.optionSpans, List.forall_mem_cons]
      exact ⟨spans_readTypeName readType inside.1, spans_readIdentifier readName inside.2.1, own,
        expression _ inside.2.2.1 _ readValue⟩
    | assignment readName readValue =>
      simp only [Node.forall_mem_listSpans_cons] at inside
      simp only [Statement.spans, List.forall_mem_cons]
      exact ⟨spans_readIdentifier readName inside.1, own, expression _ inside.2.1 _ readValue⟩
    | fieldAssignment readName readField readValue =>
      simp only [Node.forall_mem_listSpans_cons] at inside
      simp only [Statement.spans, List.forall_mem_cons]
      exact ⟨spans_readIdentifier readName inside.1, spans_readIdentifier readField inside.2.1, own,
        expression _ inside.2.2.1 _ readValue⟩
    | function readName readParameters readType readBody =>
      simp only [Node.forall_mem_listSpans_cons] at inside
      obtain ⟨-, given, signature⟩ := inside
      simp only [Statement.spans, List.forall_mem_cons, List.forall_mem_append]
      exact ⟨spans_readIdentifier readName given, own,
        ⟨keepsSpans_readParameters _ signature _ readParameters,
          keepsSpans_readReturnType _ signature _ readType⟩,
        keepsSpans_readLastBlock closed _ signature _ readBody⟩
    | block readAll =>
      simp only [Statement.spans, Block.spans, List.forall_mem_cons]
      exact ⟨own, own, keepsSpans_readStatements closed _ inside _ readAll⟩
    | conditional readTest readBody readMore =>
      simp only [Node.forall_mem_listSpans_cons] at inside
      obtain ⟨-, first, second, clauses⟩ := inside
      have later := keepsSpans_readClauses closed _ clauses _ readMore
      rw [List.forall_mem_append] at later
      simp only [Statement.spans_conditional, Branch.listSpans, List.cons_append,
        List.forall_mem_cons, List.forall_mem_append]
      exact ⟨own, own, ⟨⟨expression _ first _ readTest,
        keepsSpans_readBlock closed _ second _ readBody⟩, later.1⟩, later.2⟩
    | «while» readTest readBody =>
      simp only [Node.forall_mem_listSpans_cons] at inside
      simp only [Statement.spans, List.forall_mem_cons, List.forall_mem_append]
      exact ⟨own, expression _ inside.2.1 _ readTest,
        keepsSpans_readBlock closed _ inside.2.2.1 _ readBody⟩
    | attempt readFirst readSecond =>
      simp only [Node.forall_mem_listSpans_cons] at inside
      simp only [Statement.spans, List.forall_mem_cons, List.forall_mem_append]
      exact ⟨own, keepsSpans_readBlock closed _ inside.2.1 _ readFirst,
        keepsSpans_readBlock closed _ inside.2.2.2.1 _ readSecond⟩
    | «break» | «continue» | plainReturn => exact List.forall_mem_singleton.mpr own
    | «return» readValue | print readValue =>
      simp only [Node.forall_mem_listSpans_cons] at inside
      simp only [Statement.spans, Expression.optionSpans, List.forall_mem_cons]
      exact ⟨own, expression _ inside.2.1 _ readValue⟩
    | recordType readName readAll =>
      simp only [Node.forall_mem_listSpans_cons] at inside
      simp only [Statement.spans, List.forall_mem_cons]
      exact ⟨spans_readIdentifier readName inside.2.1, own,
        keepsSpans_declarators _ inside.2.2 _ readAll⟩
    | recordInstance readType readName =>
      simp only [Node.forall_mem_listSpans_cons] at inside
      simp only [Statement.spans, List.forall_mem_cons]
      exact ⟨spans_readIdentifier readType inside.1, spans_readIdentifier readName inside.2.1, own,
        List.forall_mem_nil _⟩
    | expression readValue =>
      rw [Node.forall_mem_listSpans_cons] at inside
      rw [Statement.spans, List.forall_mem_cons]
      exact ⟨own, expression _ inside.1 _ readValue⟩

theorem keepsSpans_readStatements (closed : ClosedUnderThrough P) :
    (nodes : List Node) → KeepsSpans P (Node.listSpans nodes) (readStatements nodes)
      Statement.listSpans
  | [] => by
    intro all statements read
    rw [readStatements] at read
    cases read
    exact List.forall_mem_nil _
  | n :: rest => by
    intro all statements read
    obtain ⟨statement, more, known, known', rfl⟩ := readStatements_cons_eq_ok_iff.mp read
    rw [Node.forall_mem_listSpans_cons] at all
    rw [Statement.listSpans, List.forall_mem_append]
    exact ⟨keepsSpans_readStatement closed _ all.1 _ known,
      keepsSpans_readStatements closed _ all.2 _ known'⟩

theorem keepsSpans_readBlock (closed : ClosedUnderThrough P) :
    (n : Node) → KeepsSpans P n.spans (readBlock n) Block.spans
  | .mk rule start stop children => by
    intro all body read
    rw [Node.spans, List.forall_mem_cons] at all
    obtain ⟨-, statements, known, rfl⟩ := readBlock_eq_ok_iff.mp read
    rw [Block.spans, List.forall_mem_cons]
    exact ⟨all.1, keepsSpans_readStatements closed _ all.2 _ known⟩

theorem keepsSpans_readLastBlock (closed : ClosedUnderThrough P) :
    (nodes : List Node) → KeepsSpans P (Node.listSpans nodes) (readLastBlock nodes) Block.spans
  | [] => by
    intro all body read
    rw [readLastBlock] at read
    cases read
  | [n] => by
    intro all body read
    rw [Node.forall_mem_listSpans_cons] at all
    rw [readLastBlock] at read
    exact keepsSpans_readBlock closed _ all.1 _ read
  | _ :: n :: rest => by
    intro all body read
    rw [Node.forall_mem_listSpans_cons] at all
    rw [readLastBlock_cons (List.cons_ne_nil _ _)] at read
    exact keepsSpans_readLastBlock closed _ all.2 _ read

theorem keepsSpans_readClauses (closed : ClosedUnderThrough P) :
    (nodes : List Node) → KeepsSpans P (Node.listSpans nodes) (readClauses nodes)
      fun read => Branch.listSpans read.1 ++ Block.optionSpans read.2
  | [] => by
    intro all clauses read
    cases readClauses_form read
    exact List.forall_mem_nil _
  | n :: rest => by
    intro all clauses read
    rw [Node.forall_mem_listSpans_cons] at all
    cases readClauses_form read with
    | last readBody =>
      simp only [Node.spans, List.forall_mem_cons, Node.forall_mem_listSpans_cons] at all
      simpa only [Branch.listSpans, Block.optionSpans, List.nil_append] using
        keepsSpans_readBlock closed _ all.1.2.2.1 _ readBody
    | further readTest readBody readMore =>
      simp only [Node.spans, List.forall_mem_cons, Node.forall_mem_listSpans_cons] at all
      obtain ⟨⟨own, -, -, first, second, -⟩, clauses⟩ := all
      have later := keepsSpans_readClauses closed _ clauses _ readMore
      rw [List.forall_mem_append] at later
      simp only [Branch.listSpans, List.cons_append, List.forall_mem_cons, List.forall_mem_append]
      exact ⟨own, ⟨⟨keepsSpans_readExpression closed _ first _ readTest,
        keepsSpans_readBlock closed _ second _ readBody⟩, later.1⟩, later.2⟩

end

end

/-! ## Programs -/

theorem spans_readText {rule : Rule} {text : List Char} {n : Node}
    (read : readText rule text = .ok n) : ∀ s ∈ n.spans, s.LiesIn text := by
  unfold readText at read
  split at read
  · next node rest attempts matched =>
    cases read
    have within := (stretches_matchText matched).liesIn (.refl _)
    rwa [Node.listSpans, Node.listSpans, List.append_nil] at within
  all_goals cases read

/-- Every span of a program that was read lies in its source. -/
theorem liesIn_of_parseProgram {source : String} {program : Program}
    (parsed : parseProgram source = .ok program) :
    ∀ s ∈ program.spans, s.LiesIn source.toList := by
  simp only [parseProgram, bind_eq_ok_iff, pure_eq_ok_iff] at parsed
  obtain ⟨n, matched, statements, known, rfl⟩ := parsed
  have within := spans_readText matched
  have closed : ClosedUnderThrough fun s => s.LiesIn source.toList :=
    fun _ _ first last => first.through last
  rw [Program.spans, List.forall_mem_cons]
  refine ⟨within _ n.span_mem_spans, keepsSpans_readStatements closed _ ?_ _ known⟩
  obtain ⟨rule, start, stop, children⟩ := n
  rw [Node.spans, List.forall_mem_cons] at within
  rw [Node.listSpans_eq_flatMap, List.forall_mem_flatMap] at within ⊢
  exact fun child kept => within.2 child ((List.mem_filter.mp kept).1)

end Parsing

end CheckedScript
