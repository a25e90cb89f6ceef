import CheckedScript.Ast.Statement

/-!
# The spans of a syntax tree

All the places of the source that a tree points to: the spans of its nodes, and those of the names
and type names in it.
-/

namespace CheckedScript

mutual

def Expression.spans : Expression → List Span
  | .identifier name span => [name.span, span]
  | .index array position span => array.span :: span :: position.spans
  | .fieldAccess record field span => [record.span, field.span, span]
  | .call name arguments span => name.span :: span :: Expression.listSpans arguments
  | .unary _ operand span => span :: operand.spans
  | .binary _ left right span => span :: (left.spans ++ right.spans)
  | .parenthesized inner span => span :: inner.spans
  | .integer _ span | .float _ span | .str _ span | .char _ span | .boolean _ span
  | .numberArray _ span | .charArray _ span | .strArray _ span => [span]

def Expression.listSpans : List Expression → List Span
  | [] => []
  | e :: rest => e.spans ++ Expression.listSpans rest

end

def Expression.optionSpans : Option Expression → List Span
  | none => []
  | some e => e.spans

def Declarator.spans (d : Declarator) : List Span := [d.type.span, d.name.span]

def TypeName.optionSpans : Option TypeName → List Span
  | none => []
  | some type => [type.span]

mutual

def Statement.spans : Statement → List Span
  | .variable type name initializer span =>
    type.span :: name.span :: span :: Expression.optionSpans initializer
  | .assignment name value span => name.span :: span :: value.spans
  | .fieldAssignment record field value span => record.span :: field.span :: span :: value.spans
  | .function name parameters returnType body span =>
    name.span :: span ::
      (parameters.flatMap Declarator.spans ++ TypeName.optionSpans returnType ++ body.spans)
  | .block body span => span :: body.spans
  | .conditional branches none span => span :: Branch.listSpans branches
  | .conditional branches (some otherwise) span =>
    span :: (Branch.listSpans branches ++ otherwise.spans)
  | .while condition body span => span :: (condition.spans ++ body.spans)
  | .return value span => span :: Expression.optionSpans value
  | .print value span => span :: value.spans
  | .attempt guarded recovery span => span :: (guarded.spans ++ recovery.spans)
  | .recordType name fields span => name.span :: span :: fields.flatMap Declarator.spans
  | .recordInstance recordType name span => [recordType.span, name.span, span]
  | .expression value span => span :: value.spans
  | .break span | .continue span => [span]

def Statement.listSpans : List Statement → List Span
  | [] => []
  | s :: rest => s.spans ++ Statement.listSpans rest

def Block.spans : Block → List Span
  | .mk statements span => span :: Statement.listSpans statements

def Branch.listSpans : List Branch → List Span
  | [] => []
  | .mk condition body span :: rest =>
    span :: (condition.spans ++ body.spans ++ Branch.listSpans rest)

end

def Block.optionSpans : Option Block → List Span
  | none => []
  | some body => body.spans

def Program.spans (program : Program) : List Span :=
  program.span :: Statement.listSpans program.statements

theorem Expression.span_mem_spans (e : Expression) : e.span ∈ e.spans := by
  cases e <;> simp [Expression.span, Expression.spans]

theorem Statement.span_mem_spans (statement : Statement) : statement.span ∈ statement.spans := by
  cases statement with
  | conditional branches otherwise span =>
    cases otherwise <;> simp [Statement.span, Statement.spans]
  | _ => simp [Statement.span, Statement.spans]

theorem Statement.spans_conditional (branches : List Branch) (otherwise : Option Block)
    (span : Span) :
    (Statement.conditional branches otherwise span).spans =
      span :: (Branch.listSpans branches ++ Block.optionSpans otherwise) := by
  cases otherwise <;> simp [Statement.spans, Block.optionSpans]

theorem Block.spans_eq (body : Block) :
    body.spans = body.span :: Statement.listSpans body.statements := by
  cases body
  rfl

theorem Block.listSpans_subset (body : Block) :
    Statement.listSpans body.statements ⊆ body.spans := by
  rw [Block.spans_eq]
  exact List.subset_cons_self ..

theorem Statement.spans_subset_of_mem {statement : Statement} {statements : List Statement}
    (listed : statement ∈ statements) : statement.spans ⊆ Statement.listSpans statements := by
  induction statements with
  | nil => cases listed
  | cons first rest ih =>
    rw [Statement.listSpans]
    rcases List.mem_cons.mp listed with rfl | listed
    · exact List.subset_append_left ..
    · exact List.subset_append_of_subset_right _ (ih listed)

end CheckedScript
