import CheckedScript.Proofs.Grammar.Operands
import CheckedScript.Proofs.Parsing.Verdict

/-!
# Reading what was found

An expression that consists of one operand is read as that operand, with the operator in front of it if
there is one, and two operands with an operator between them as the operation on them. A text is parsed
to what is read of the expression that is found in it (`parseExpression_of_finds`).
-/

namespace CheckedScript.Parsing

open Grammar ExpressionPart

section

variable {n m : Node} {start stop : Cursor} {x y : Expression}

theorem readPart_of_isPrimary (primary : n.rule.isPrimary = true) :
    readPart n = (readPrimary n).map .operand := by
  unfold readPart
  split
  · cases primary
  · cases primary
  · rfl

theorem readExpression_operand (primary : n.rule.isPrimary = true) :
    readExpression (.mk .expression start stop [n]) = readPrimary n := by
  rw [readExpression, readParts_eq_mapM, List.mapM_cons, List.mapM_nil, readPart_of_isPrimary primary]
  cases readPrimary n <;> rfl

theorem readExpression_unary (operator : UnaryOperator) {start' stop' : Cursor}
    {children : List Node}
    (primary : n.rule.isPrimary = true) :
    readExpression (.mk .expression start stop [.mk (.unaryOperator operator) start' stop' children, n]) =
      (readPrimary n).map fun x =>
        .unary operator x ((Span.between start'.position stop'.position).through x.span) := by
  rw [readExpression, readParts_eq_mapM, List.mapM_cons, List.mapM_cons, List.mapM_nil,
    readPart_of_isPrimary primary]
  cases readPrimary n <;> rfl

theorem readExpression_binary (operator : BinaryOperator) {start' stop' : Cursor}
    {children : List Node}
    (primary : n.rule.isPrimary = true) (primary' : m.rule.isPrimary = true)
    (left : readPrimary n = .ok x) (right : readPrimary m = .ok y) :
    readExpression (.mk .expression start stop
        [n, .mk (.binaryOperator operator) start' stop' children, m]) =
      .ok (.binary operator x y (x.span.through y.span)) := by
  rw [readExpression, readParts_eq_mapM, List.mapM_cons, List.mapM_cons, List.mapM_cons, List.mapM_nil,
    readPart_of_isPrimary primary, readPart_of_isPrimary primary', left, right]
  rfl

end

section

variable {source : String} {n : Node} {stop : Cursor}

/-- A text in which everything is found up to its end is read as one node. -/
theorem readText_of_finds {top : Rule} {inner : Pattern} {nodes : List Node} {text : List Char}
    (shape : top.pattern = Pattern.nothing ++ inner ++ Pattern.rule .endOfInput)
    (free : top.spacing = .free) (settled : Cursor.pastGap text = text)
    (found : inner.Finds (.ofText text) nodes stop) (ended : stop.rest = []) :
    readText top text =
      .ok (.mk top (.ofText text) stop (nodes ++ [.mk .endOfInput stop stop []])) := by
  have front : Pattern.nothing.Finds (.ofText text) [] (.ofText text) :=
    Pattern.finds_text List.nil_prefix
  have last : (Pattern.rule .endOfInput).Finds stop [.mk .endOfInput stop stop []] stop := by
    refine .rule ⟨[], derives_endOfText_iff.mpr ?_⟩ rfl
    rw [if_pos (by rw [ended]; rfl)]
    rfl
  have inside := (front.next settled found).next (by rw [ended, Cursor.pastGap_nil]) last
  rw [← shape] at inside
  obtain ⟨tokens, derived⟩ := inside.rule free
  have reads : Reads top text _ := derived
  rcases readText_cases top text with ⟨value, r, reads', listed, -, -, -, read⟩ | ⟨none, -⟩
  · cases reads'.unique reads
    cases listed
    exact read
  · exact absurd reads (none _)

/-- A text in which an expression is found up to the end is parsed to what is read of it. -/
theorem parseExpression_of_finds (settled : Cursor.pastGap source.toList = source.toList)
    (found : (Pattern.rule .expression).Finds (.ofText source.toList) [n] stop) (ended : stop.rest = []) :
    parseExpression source = readExpression n := by
  rw [parseExpression, readText_of_finds rfl rfl settled found ended]
  rfl

/-- A text that is one operand, without an operator in front, is parsed to what is read of it. -/
theorem parseExpression_of_primary {d : Char} (opens : source.toList.head? = some d)
    (plain : (!Cursor.isBlank d && !List.contains ['/', '-', 'n'] d) = true)
    (found : primary.Finds (.ofText source.toList) [n] ((Cursor.ofText source.toList).skip source.toList))
    (isPrimary : n.rule.isPrimary = true) : parseExpression source = readPrimary n := by
  simp only [Bool.and_eq_true, Bool.not_eq_true', List.contains_eq_mem, decide_eq_false_iff_not,
    List.mem_cons, List.not_mem_nil, or_false, not_or] at plain
  obtain ⟨solid, slash, minus, other⟩ := plain
  have settled : Cursor.pastGap source.toList = source.toList :=
    Cursor.pastGap_of_head (by simp [opens, solid, slash])
  have ended : ((Cursor.ofText source.toList).skip source.toList).rest = [] := by
    rw [Cursor.rest_skip]
    exact List.drop_length
  have unsigned : prefixSign.Misses (.ofText source.toList) :=
    Pattern.misses_prefixSign opens minus other
  have closes : Pattern.ClosesExpression ((Cursor.ofText source.toList).skip source.toList).rest := by
    rw [ended]
    rfl
  have whole := Pattern.finds_expression (Pattern.finds_operand unsigned settled found) closes
  rw [parseExpression_of_finds settled whole ended, readExpression_operand isPrimary]

end

/-! ## Items of a list -/

section

variable {α : Type} {item : Rule} {read : Node → Except ParseError α} {spell : α → List Char}
  {follows : List Char → Prop} {gap rest : List Char} {xs : List α} {c : Cursor}

theorem skip_enclosed (c : Cursor) (opening closing : Char) (inside : List Char) :
    ((c.skip [opening]).skip inside).skip [closing] = c.skip (opening :: (inside ++ [closing])) := by
  rw [← Cursor.skip_append, ← Cursor.skip_append]
  rfl

theorem mapM_eq_ok_of_forall₂ {nodes : List Node}
    (all : List.Forall₂ (fun x n => read n = .ok x) xs nodes) : nodes.mapM read = .ok xs := by
  induction all with
  | nil => rfl
  | cons first _ ih =>
    rw [List.mapM_cons, first, ih]
    rfl

/-- Items between commas are found and read one by one. -/
theorem finds_items
    (each : Pattern.FindsEach (.rule item) spell follows (fun x n => read n = .ok x) xs)
    (isGap : Cursor.Gap gap)
    (settled : ∀ x ∈ xs, ∀ rest, Cursor.pastGap (spell x ++ rest) = spell x ++ rest)
    (comma : ∀ rest, follows (',' :: rest)) (bracket : follows (']' :: rest)) (some : xs ≠ [])
    (whole : c.rest = (',' :: gap).intercalate (xs.map spell) ++ ']' :: rest) :
    ∃ nodes, (Pattern.commaSeparated (.rule item)).Finds c nodes
        (c.skip ((',' :: gap).intercalate (xs.map spell))) ∧ nodes.mapM read = .ok xs := by
  obtain ⟨nodes, found, all⟩ := Pattern.finds_commaSeparated each isGap settled comma bracket
    (Cursor.pastGap_of_head rfl) (by simp) some whole
  exact ⟨nodes, found, mapM_eq_ok_of_forall₂ all⟩

end

end CheckedScript.Parsing
