import CheckedScript.Decimal.Layout
import CheckedScript.Proofs.Ast.Unwrapped
import CheckedScript.Proofs.Parsing.Numerals

/-!
# The shape of an expression

The shape of an expression is its text with parentheses around each operation and nowhere else. It shows
how the operators are grouped: the parser reads back the expression, but for its parentheses and places
(`parseExpression_shape`).
-/

namespace CheckedScript

/-- A word that can name something. -/
def IsName (s : String) : Prop :=
  s.toList.head?.any Grammar.isWordStart = true ∧ s.toList.all Grammar.isWordChar = true ∧
    s ∉ Grammar.reservedWords

instance (s : String) : Decidable (IsName s) := inferInstanceAs (Decidable (_ ∧ _ ∧ _))

section

open Grammar

variable {s : String} {c : Cursor} {rest : List Char}

theorem IsName.nameOf (named : IsName s) : nameOf s.toList = some s.toList := by
  obtain ⟨opens, all, unreserved⟩ := named
  have whole : wordOf (s.toList ++ []) = s.toList := takeWhile_append_ended all rfl
  rw [List.append_nil] at whole
  refine (if_pos ⟨opens, fun listed => ?_⟩).trans (congrArg some whole)
  obtain ⟨w, member, same⟩ := List.mem_map.mp listed
  rw [whole] at same
  exact unreserved (String.toList_inj.mp same ▸ member)

theorem IsName.nameOf_append (named : IsName s) (whole : c.rest = s.toList ++ rest)
    (ended : rest.head?.all (!isWordChar ·) = true) : Grammar.nameOf c.rest = some s.toList := by
  rw [whole]
  exact Grammar.nameOf_append named.nameOf ended

theorem IsName.pastGap (named : IsName s) (rest : List Char) :
    Cursor.pastGap (s.toList ++ rest) = s.toList ++ rest := by
  obtain ⟨d, more, whole, start⟩ := Lexical.exists_cons named.1
  refine pastGap_of_opens ?_
  rw [whole]
  exact start

end

def NumberLiteral.shape : NumberLiteral → String
  | .int w => "Int(" ++ toString w.toInt ++ ")"
  | .float x => "Float(" ++ Decimal.general x ++ ")"

namespace Expression

mutual

/-- The text of an expression with parentheses around each operation. Quoted literals and lists are
shown with their kinds. -/
def shape : Expression → String
  | .integer w _ => toString w.toInt
  | .float x _ => Decimal.general x
  | .boolean b _ => Value.boolText b
  | .identifier name _ => name.name
  | .unary operator operand _ => "(" ++ operator.symbol ++ " " ++ operand.shape ++ ")"
  | .binary operator left right _ =>
    "(" ++ left.shape ++ " " ++ operator.symbol ++ " " ++ right.shape ++ ")"
  | .parenthesized inner _ => inner.shape
  | .call name arguments _ => name.name ++ "(" ++ ", ".intercalate (listShapes arguments) ++ ")"
  | .index array position _ => array.name ++ "[" ++ position.shape ++ "]"
  | .fieldAccess record field _ => record.name ++ "." ++ field.name
  | .str s _ => "Str(" ++ Text.quoteString s ++ ")"
  | .char c _ => "Char(" ++ Text.quoteChar c ++ ")"
  | .numberArray elements _ =>
    "IntArray([" ++ ", ".intercalate (elements.map NumberLiteral.shape) ++ "])"
  | .charArray elements _ => "CharArray([" ++ ", ".intercalate (elements.map Text.quoteChar) ++ "])"
  | .strArray elements _ => "StrArray([" ++ ", ".intercalate (elements.map Text.quoteString) ++ "])"

def listShapes : List Expression → List String
  | [] => []
  | e :: rest => e.shape :: listShapes rest

end

/-- Integers that are not negative, booleans and names, under calls, indexing and operators. -/
inductive IsBasic : Expression → Prop
  | integer {w : Word} (span : Span) (positive : 0 ≤ w.toInt) : IsBasic (.integer w span)
  | boolean (b : Bool) (span : Span) : IsBasic (.boolean b span)
  | identifier {name : Identifier} (span : Span) (named : IsName name.name) :
      IsBasic (.identifier name span)
  | fieldAccess {record field : Identifier} (span : Span) (named : IsName record.name)
      (named' : IsName field.name) : IsBasic (.fieldAccess record field span)
  | index {array : Identifier} {position : Expression} (span : Span) (named : IsName array.name)
      (inner : IsBasic position) : IsBasic (.index array position span)
  | call {name : Identifier} {arguments : List Expression} (span : Span) (named : IsName name.name)
      (all : ∀ e ∈ arguments, IsBasic e) : IsBasic (.call name arguments span)
  | unary (operator : UnaryOperator) {operand : Expression} (span : Span) (inner : IsBasic operand) :
      IsBasic (.unary operator operand span)
  | binary (operator : BinaryOperator) {left right : Expression} (span : Span) (first : IsBasic left)
      (second : IsBasic right) : IsBasic (.binary operator left right span)

/-- The two are the same but for parentheses and places. -/
def Resembles (parsed e : Expression) : Prop := parsed.unwrapped.bare = e.bare

theorem listShapes_eq_map (es : List Expression) : listShapes es = es.map shape := by
  induction es with
  | nil => rfl
  | cons e es ih => rw [listShapes, List.map_cons, ih]

end Expression

namespace Parsing

open Grammar Pattern

section

variable {s : String} {c : Cursor} {rest : List Char}

theorem readIdentifier_skip (within : s.toList <+: c.rest) :
    readIdentifier (.mk .identifier c (c.skip s.toList) []) =
      .ok ⟨s, .between c.position (c.skip s.toList).position⟩ := by
  have same : (Node.mk .identifier c (c.skip s.toList) []).text = s := by
    rw [Node.text, characters_skip within, String.ofList_toList]
  rw [readIdentifier, same]
  rfl

theorem pastGap_shape {e : Expression} (basic : e.IsBasic) (rest : List Char) :
    Cursor.pastGap (e.shape.toList ++ rest) = e.shape.toList ++ rest := by
  cases basic with
  | integer _ positive =>
    obtain ⟨nonempty, all, -⟩ := toString_of_nonneg positive
    exact pastGap_numeral (isNumeral_digits nonempty all) rest
  | boolean b =>
    rw [Expression.shape]
    cases b <;> exact Cursor.pastGap_of_head rfl
  | identifier _ named => exact named.pastGap rest
  | fieldAccess _ named | index _ named | call _ named =>
    simp only [Expression.shape, String.toList_append, List.append_assoc]
    exact named.pastGap _
  | unary | binary =>
    simp only [Expression.shape, String.toList_append, List.append_assoc]
    exact Cursor.pastGap_of_head rfl

/-! ## Operands -/

/-- From here on the shape of the expression is one operand, and what is read of it resembles the
expression. -/
structure FoundAt (e : Expression) (c : Cursor) (n : Node) : Prop where
  unsigned : prefixSign.Misses c
  found : primary.Finds c [n] (c.skip e.shape.toList)
  isPrimary : n.rule.isPrimary = true
  read : ∃ parsed, readPrimary n = .ok parsed ∧ parsed.Resembles e

theorem FoundAt.of_stop {e : Expression} {n : Node} {stop : Cursor}
    (stops : c.skip e.shape.toList = stop) (unsigned : prefixSign.Misses c)
    (found : primary.Finds c [n] stop) (isPrimary : n.rule.isPrimary = true)
    (read : ∃ parsed, readPrimary n = .ok parsed ∧ parsed.Resembles e) : FoundAt e c n :=
  ⟨unsigned, stops.symm ▸ found, isPrimary, read⟩

/-- The shape of the expression is found wherever something ends it. -/
def IsFound (e : Expression) : Prop :=
  ∀ (c : Cursor) (rest : List Char), c.rest = e.shape.toList ++ rest → EndsOperand rest →
    ∃ n, FoundAt e c n

theorem isFound_integer {w : Word} (positive : 0 ≤ w.toInt) (span : Span) :
    IsFound (.integer w span) := by
  intro c rest whole ends
  rw [Expression.shape] at whole
  obtain ⟨nonempty, all, writes⟩ := toString_of_nonneg positive
  obtain ⟨place, read⟩ := readPrimary_integer ⟨_, whole.symm⟩ writes.symm
  refine ⟨_, misses_prefixSign_digits whole nonempty all, ?_, rfl, _, read, rfl⟩
  rw [Expression.shape]
  exact finds_integer whole all nonempty ends.digits

theorem isFound_boolean (b : Bool) (span : Span) : IsFound (.boolean b span) := by
  intro c rest whole ends
  rw [Expression.shape] at whole
  have opens : ∃ d, c.rest.head? = some d ∧ d ≠ '-' ∧ d ≠ 'n' := by
    rw [whole]
    cases b
    · exact ⟨'f', rfl, by decide⟩
    · exact ⟨'t', rfl, by decide⟩
  obtain ⟨d, opens, minus, other⟩ := opens
  have listed : Value.boolText b ∈ ["true", "false"] := by cases b <;> decide
  have same : (Node.mk .boolean c (c.skip (Value.boolText b).toList) []).text = Value.boolText b := by
    rw [Node.text, characters_skip ⟨_, whole.symm⟩, String.ofList_toList]
  have reads : (Value.boolText b == "true") = b := by cases b <;> rfl
  refine ⟨.mk .boolean c (c.skip (Value.boolText b).toList) [], misses_prefixSign opens minus other, ?_, rfl,
    .boolean b (.between c.position (c.skip (Value.boolText b).toList).position), ?_, rfl⟩
  · rw [Expression.shape]
    exact finds_boolean listed whole ends.1
  · rw [readPrimary, same, reads]

theorem isFound_identifier {name : Identifier} (named : IsName name.name) (span : Span) :
    IsFound (.identifier name span) := by
  intro c rest whole ends
  rw [Expression.shape] at whole
  have found := finds_identifier named.nameOf whole ends
  have stops : c.skip (Expression.identifier name span).shape.toList = c.skip name.name.toList := by
    rw [Expression.shape]
  refine ⟨_, .of_stop stops (misses_prefixSign_of_name (named.nameOf_append whole ends.1)) found rfl ?_⟩
  rw [readPrimary, readIdentifier_skip ⟨_, whole.symm⟩]
  exact ⟨_, rfl, rfl⟩

theorem isFound_fieldAccess {record field : Identifier} (named : IsName record.name)
    (named' : IsName field.name) (span : Span) : IsFound (.fieldAccess record field span) := by
  intro c rest whole ends
  have whole : c.rest = record.name.toList ++ '.' :: (field.name.toList ++ rest) := by
    rw [whole]
    simp [Expression.shape]
  have behind : ((c.skip record.name.toList).skip ['.']).rest = field.name.toList ++ rest :=
    Cursor.rest_skip_of_cons (Cursor.rest_skip_of_append whole)
  have found := finds_field named.nameOf named'.nameOf whole ends.1
  have stops : c.skip (Expression.fieldAccess record field span).shape.toList =
      ((c.skip record.name.toList).skip ['.']).skip field.name.toList := by
    rw [← Cursor.skip_append, ← Cursor.skip_append]
    simp [Expression.shape]
  refine ⟨_, .of_stop stops (misses_prefixSign_of_name (named.nameOf_append whole rfl)) found rfl ?_⟩
  rw [readPrimary, readIdentifier_skip ⟨_, whole.symm⟩, readIdentifier_skip ⟨_, behind.symm⟩]
  exact ⟨_, rfl, rfl⟩

/-! ## Expressions between brackets -/

theorem FoundAt.operand {e : Expression} {n : Node} (here : FoundAt e c n) (basic : e.IsBasic)
    (whole : c.rest = e.shape.toList ++ rest) : operand.Finds c [n] (c.skip e.shape.toList) := by
  refine finds_operand here.unsigned ?_ here.found
  rw [whole]
  exact pastGap_shape basic rest

theorem FoundAt.expression {e : Expression} {n : Node} (here : FoundAt e c n) (basic : e.IsBasic)
    (whole : c.rest = e.shape.toList ++ rest) (closes : ClosesExpression rest) :
    (rule .expression).Finds c [.mk .expression c (c.skip e.shape.toList) [n]]
      (c.skip e.shape.toList) := by
  refine finds_expression (here.operand basic whole) ?_
  rwa [Cursor.rest_skip_of_append whole]

theorem FoundAt.readExpression {e : Expression} {n : Node} (here : FoundAt e c n) (start stop : Cursor) :
    ∃ parsed, readExpression (.mk .expression start stop [n]) = .ok parsed ∧ parsed.Resembles e := by
  rw [readExpression_operand here.isPrimary]
  exact here.read

theorem isFound_index {array : Identifier} {position : Expression} (named : IsName array.name)
    (inner : position.IsBasic) (ih : IsFound position) (span : Span) :
    IsFound (.index array position span) := by
  intro c rest whole ends
  have whole : c.rest = array.name.toList ++ '[' :: (position.shape.toList ++ ']' :: rest) := by
    rw [whole]
    simp [Expression.shape]
  have behind : ((c.skip array.name.toList).skip ['[']).rest = position.shape.toList ++ ']' :: rest :=
    Cursor.rest_skip_of_cons (Cursor.rest_skip_of_append whole)
  have closes : ClosesExpression (']' :: rest) := rfl
  obtain ⟨n, here⟩ := ih _ _ behind closes.endsOperand
  have found := finds_index named.nameOf whole (pastGap_shape inner _) (here.expression inner behind closes)
  have stops : c.skip (Expression.index array position span).shape.toList =
      (((c.skip array.name.toList).skip ['[']).skip position.shape.toList).skip [']'] := by
    rw [skip_enclosed, ← Cursor.skip_append]
    simp [Expression.shape]
  obtain ⟨parsed, read, resembles⟩ := here.readExpression ((c.skip array.name.toList).skip ['['])
    (((c.skip array.name.toList).skip ['[']).skip position.shape.toList)
  refine ⟨_, .of_stop stops (misses_prefixSign_of_name (named.nameOf_append whole rfl)) found rfl ?_⟩
  rw [readPrimary, readIdentifier_skip ⟨_, whole.symm⟩, read]
  refine ⟨_, rfl, ?_⟩
  rw [Expression.Resembles, Expression.unwrapped, Expression.bare, Expression.bare, resembles]
  rfl

/-- What resembles the expression is found between parentheses if the shape begins and ends with them. -/
theorem isFound_of_inside {e : Expression} {inside : List Char}
    (same : e.shape.toList = '(' :: (inside ++ [')']))
    (settled : ∀ rest, Cursor.pastGap (inside ++ rest) = inside ++ rest)
    (found : ∀ (c : Cursor) (rest : List Char), c.rest = inside ++ ')' :: rest →
      ∃ n, (rule .expression).Finds c [n] (c.skip inside) ∧
        ∃ parsed, readExpression n = .ok parsed ∧ parsed.Resembles e) : IsFound e := by
  intro c rest whole ends
  have whole : c.rest = '(' :: (inside ++ ')' :: rest) := by
    rw [whole, same]
    simp
  have behind : (c.skip ['(']).rest = inside ++ ')' :: rest := Cursor.rest_skip_of_cons whole
  have stops : c.skip e.shape.toList = ((c.skip ['(']).skip inside).skip [')'] := by
    rw [same, skip_enclosed]
  have unsigned : prefixSign.Misses c :=
    misses_prefixSign (d := '(') (by rw [whole]; rfl) (by decide) (by decide)
  obtain ⟨n, within, parsed, read, resembles⟩ := found _ _ behind
  refine ⟨_, .of_stop stops unsigned (finds_parenthesized whole (settled _) within) rfl ?_⟩
  rw [readPrimary, read]
  exact ⟨_, rfl, resembles⟩

theorem isFound_unary (operator : UnaryOperator) {operand : Expression} (inner : operand.IsBasic)
    (ih : IsFound operand) (span : Span) : IsFound (.unary operator operand span) := by
  have same : (Expression.unary operator operand span).shape.toList =
      '(' :: ((operator.symbol.toList ++ ' ' :: operand.shape.toList) ++ [')']) := by
    simp [Expression.shape]
  refine isFound_of_inside same (fun rest => ?_) fun c rest whole => ?_
  · cases operator <;> exact Cursor.pastGap_of_head rfl
  rw [List.append_assoc, List.cons_append] at whole
  have behind : ((c.skip operator.symbol.toList).skip [' ']).rest =
      operand.shape.toList ++ ')' :: rest :=
    Cursor.rest_skip_of_cons (Cursor.rest_skip_of_append whole)
  have closes : ClosesExpression (')' :: rest) := rfl
  obtain ⟨n, here⟩ := ih _ _ behind closes.endsOperand
  obtain ⟨parsed, read, resembles⟩ := here.read
  refine ⟨_, finds_spaced_unary operator whole (pastGap_shape inner _) here.unsigned here.found closes, _,
    by rw [readExpression_unary operator here.isPrimary, read]; rfl, ?_⟩
  rw [Expression.Resembles, Expression.unwrapped, Expression.bare, Expression.bare, resembles]

theorem isFound_binary (operator : BinaryOperator) {left right : Expression} (first : left.IsBasic)
    (second : right.IsBasic) (ihLeft : IsFound left) (ihRight : IsFound right) (span : Span) :
    IsFound (.binary operator left right span) := by
  have same : (Expression.binary operator left right span).shape.toList =
      '(' :: ((left.shape.toList ++ ' ' :: (operator.symbol.toList ++ ' ' :: right.shape.toList)) ++
        [')']) := by
    simp [Expression.shape]
  refine isFound_of_inside same (fun rest => ?_) fun c rest whole => ?_
  · rw [List.append_assoc]
    exact pastGap_shape first _
  have whole : c.rest = left.shape.toList ++
      ' ' :: (operator.symbol.toList ++ ' ' :: (right.shape.toList ++ ')' :: rest)) := by
    rw [whole]
    simp
  have behind : ((((c.skip left.shape.toList).skip [' ']).skip operator.symbol.toList).skip [' ']).rest =
      right.shape.toList ++ ')' :: rest :=
    Cursor.rest_skip_of_cons (Cursor.rest_skip_of_append (Cursor.rest_skip_of_cons
      (Cursor.rest_skip_of_append whole)))
  have closes : ClosesExpression (')' :: rest) := rfl
  obtain ⟨n, here⟩ := ihLeft _ _ whole (endsOperand_symbol operator _)
  obtain ⟨m, there⟩ := ihRight _ _ behind closes.endsOperand
  obtain ⟨x, read, resembles⟩ := here.read
  obtain ⟨y, read', resembles'⟩ := there.read
  refine ⟨_, finds_spaced_binary operator whole (pastGap_shape second _) (here.operand first whole)
    (there.operand second behind) closes, _,
    readExpression_binary operator here.isPrimary there.isPrimary read read', ?_⟩
  rw [Expression.Resembles, Expression.unwrapped, Expression.bare, Expression.bare, resembles, resembles']

/-! ## Calls -/

/-- What is read of each argument resembles it, so what is read of all resembles them. -/
theorem readArguments_of_forall₂ {es : List Expression} {nodes : List Node}
    (all : List.Forall₂ (fun e n => ∃ parsed, readExpression n = .ok parsed ∧ parsed.Resembles e)
      es nodes) :
    ∃ parsed, readArguments nodes = .ok parsed ∧
      Expression.listBare (Expression.listUnwrapped parsed) = Expression.listBare es := by
  induction all with
  | nil => exact ⟨[], rfl, rfl⟩
  | cons first _ ih =>
    obtain ⟨x, read, resembles⟩ := first
    obtain ⟨xs, readAll, same⟩ := ih
    refine ⟨x :: xs, by rw [readArguments, read, readAll]; rfl, ?_⟩
    rw [Expression.listUnwrapped, Expression.listBare, Expression.listBare, resembles, same]

theorem misses_expression_parenthesis (closes : c.rest.head? = some ')') :
    (rule .expression).Misses c := by
  have shut : ∀ r ∈ primaryRules, opener r ')' = false := by decide
  refine misses_expression (Cursor.pastGap_of_head ?_) ?_ ?_ fun r member => ?_ <;> rw [closes]
  · rfl
  · decide
  · rfl
  · exact shut r member

theorem toList_listShapes (es : List Expression) :
    (", ".intercalate (Expression.listShapes es)).toList =
      [',', ' '].intercalate (es.map fun e => e.shape.toList) := by
  simp [String.toList_intercalate, Expression.listShapes_eq_map, Function.comp_def]

theorem pastGap_arguments {es : List Expression} (basic : ∀ e ∈ es, e.IsBasic) (rest : List Char) :
    Cursor.pastGap ([',', ' '].intercalate (es.map fun e => e.shape.toList) ++ ')' :: rest) =
      [',', ' '].intercalate (es.map fun e => e.shape.toList) ++ ')' :: rest := by
  cases es with
  | nil => exact Cursor.pastGap_of_head rfl
  | cons e es =>
    rw [intercalate_map_cons, List.append_assoc]
    exact pastGap_shape (basic e List.mem_cons_self) _

theorem finds_arguments {es : List Expression} (basic : ∀ e ∈ es, e.IsBasic) (each : ∀ e ∈ es, IsFound e)
    (whole : c.rest = [',', ' '].intercalate (es.map fun e => e.shape.toList) ++ ')' :: rest) :
    ∃ nodes parsed, (Pattern.optional (rule .argumentList)).Finds c nodes
        (c.skip ([',', ' '].intercalate (es.map fun e => e.shape.toList))) ∧
      Expression.listBare (Expression.listUnwrapped parsed) = Expression.listBare es ∧
      ∀ (n : Node) (name : Identifier) (start stop : Cursor), readIdentifier n = .ok name →
        readPrimary (.mk .functionCall start stop (n :: nodes)) =
          .ok (.call name parsed (.between start.position stop.position)) := by
  cases es with
  | nil =>
    -- Without arguments there is no list at all, and the call has one child only.
    have none : (rule .argumentList).Misses c := .rule (.seq (misses_expression_parenthesis (by rw [whole]; rfl))) rfl
    refine ⟨[], [], none.optional, rfl, fun n name start stop read => ?_⟩
    rw [readPrimary, read]
    rfl
  | cons e es =>
    have closes : ClosesExpression (')' :: rest) := rfl
    have items : FindsEach (rule .expression) (fun e => e.shape.toList) ClosesExpression
        (fun e n => ∃ parsed, readExpression n = .ok parsed ∧ parsed.Resembles e) (e :: es) := by
      intro e member c rest here closes
      obtain ⟨n, found⟩ := each e member c rest here closes.endsOperand
      exact ⟨_, found.expression (basic e member) here closes, found.readExpression _ _⟩
    obtain ⟨nodes, found, all⟩ := finds_commaSeparated items (.blank rfl .nil)
      (fun e member => pastGap_shape (basic e member)) (fun _ => rfl) closes closes.settled (by simp)
      (by simp) whole
    obtain ⟨parsed, readAll, same⟩ := readArguments_of_forall₂ all
    have list : (rule .argumentList).Finds c [.mk .argumentList c _ nodes] _ := .rule found rfl
    refine ⟨_, parsed, list.optional, same, fun n name start stop read => ?_⟩
    rw [readPrimary, read, readAll]
    rfl

theorem isFound_call {name : Identifier} {arguments : List Expression} (named : IsName name.name)
    (basic : ∀ e ∈ arguments, e.IsBasic) (ih : ∀ e ∈ arguments, IsFound e) (span : Span) :
    IsFound (.call name arguments span) := by
  intro c rest whole ends
  have same : (Expression.call name arguments span).shape.toList = name.name.toList ++
      '(' :: ([',', ' '].intercalate (arguments.map fun e => e.shape.toList) ++ [')']) := by
    rw [← toList_listShapes]
    simp [Expression.shape]
  have settled := pastGap_arguments basic rest
  rw [same] at whole
  generalize known : [',', ' '].intercalate (arguments.map fun e => e.shape.toList) = inside at *
  have whole : c.rest = name.name.toList ++ '(' :: (inside ++ ')' :: rest) := by
    rw [whole]
    simp
  have behind : ((c.skip name.name.toList).skip ['(']).rest = inside ++ ')' :: rest :=
    Cursor.rest_skip_of_cons (Cursor.rest_skip_of_append whole)
  have stops : c.skip (Expression.call name arguments span).shape.toList =
      (((c.skip name.name.toList).skip ['(']).skip inside).skip [')'] := by
    rw [skip_enclosed, ← Cursor.skip_append, same]
  obtain ⟨nodes, parsed, found, resembles, read⟩ := finds_arguments basic ih (known ▸ behind)
  rw [known] at found
  refine ⟨_, .of_stop stops (misses_prefixSign_of_name (named.nameOf_append whole rfl))
    (finds_call named.nameOf whole settled found) rfl ?_⟩
  refine ⟨_, read _ _ _ _ (readIdentifier_skip ⟨_, whole.symm⟩), ?_⟩
  rw [Expression.Resembles, Expression.unwrapped, Expression.bare, Expression.bare, resembles]
  rfl

/-! ## Whole expressions -/

theorem isFound_of_isBasic {e : Expression} (basic : e.IsBasic) : IsFound e := by
  -- The induction needs any text behind the shape: an operator, a comma or a closing bracket.
  induction basic with
  | integer span positive => exact isFound_integer positive span
  | boolean b span => exact isFound_boolean b span
  | identifier span named => exact isFound_identifier named span
  | fieldAccess span named named' => exact isFound_fieldAccess named named' span
  | index span named inner ih => exact isFound_index named inner ih span
  | call span named all ih => exact isFound_call named all ih span
  | unary operator span inner ih => exact isFound_unary operator inner ih span
  | binary operator span first second ihFirst ihSecond =>
    exact isFound_binary operator first second ihFirst ihSecond span

/-- The shape of an expression of non-negative integers, booleans and names, with calls, indexing, field
accesses and operators, is parsed to this expression but for parentheses and places. -/
theorem parseExpression_shape {e : Expression} (basic : e.IsBasic) :
    ∃ parsed, parseExpression e.shape = .ok parsed ∧ parsed.unwrapped.bare = e.bare := by
  have whole : (Cursor.ofText e.shape.toList).rest = e.shape.toList ++ [] := (List.append_nil _).symm
  obtain ⟨n, here⟩ := isFound_of_isBasic basic _ _ whole ⟨rfl, rfl⟩
  have settled : Cursor.pastGap e.shape.toList = e.shape.toList := by
    simpa using pastGap_shape basic []
  rw [parseExpression_of_finds settled (here.expression basic whole rfl)
    (Cursor.rest_skip_of_append whole)]
  exact here.readExpression _ _

/-- Names that begin like a reserved word are read as a whole. -/
theorem parseExpression_shape_keywords :
    ∃ parsed, parseExpression "f(p.x, (not (notice or order[(- 1)])))" = .ok parsed ∧
      parsed.unwrapped.bare = .call ⟨"f", default⟩
        [.fieldAccess ⟨"p", default⟩ ⟨"x", default⟩ default,
          .unary .not (.binary .or (.identifier ⟨"notice", default⟩ default)
            (.index ⟨"order", default⟩ (.unary .negate (.integer 1 default) default) default) default)
            default] default := by
  let e : Expression := .call ⟨"f", default⟩
    [.fieldAccess ⟨"p", default⟩ ⟨"x", default⟩ default,
      .unary .not (.binary .or (.identifier ⟨"notice", default⟩ default)
        (.index ⟨"order", default⟩ (.unary .negate (.integer 1 default) default) default) default) default]
    default
  have field : IsName "p" ∧ IsName "x" := by decide
  have basic : e.IsBasic := by
    refine .call _ (by decide) (List.forall_mem_cons.mpr ⟨.fieldAccess _ field.1 field.2, ?_⟩)
    refine List.forall_mem_singleton.mpr (.unary _ _ (.binary _ _ (.identifier _ (by decide)) ?_))
    exact .index _ (by decide) (.unary _ _ (.integer _ (by decide)))
  have text : e.shape = "f(p.x, (not (notice or order[(- 1)])))" := by decide +kernel
  exact text ▸ parseExpression_shape basic

end

end Parsing

end CheckedScript
