import CheckedScript.Proofs.Grammar.Shape
import CheckedScript.Proofs.Parsing.Forms
import CheckedScript.Proofs.Parsing.Precedence
import Mathlib.Data.List.Forall2

/-!
# Reading operators

The parts of an expression come as operands with binary operators between them, and whatever its
operands are, the tree that is read is the ordered one over them (`readExpression_precedence`).
-/

namespace CheckedScript

namespace Grammar

variable {nodes : List Node} {n : Node}

theorem leaves_prefixSign (leaves : prefixSign.Leaves nodes) :
    ∃ operator start stop children, nodes = [.mk (.unaryOperator operator) start stop children] := by
  obtain ⟨⟨rule, start, stop, children⟩, rfl, rfl, -⟩ | ⟨⟨rule, start, stop, children⟩, rfl, rfl, -⟩ :=
    leaves
  · exact ⟨_, _, _, _, rfl⟩
  · exact ⟨_, _, _, _, rfl⟩

theorem leaves_infixSign (leaves : infixSign.Leaves nodes) :
    ∃ operator start stop children, nodes = [.mk (.binaryOperator operator) start stop children] := by
  have shaped : ∃ n operator, nodes = [n] ∧ n.rule = .binaryOperator operator := by
    simp only [infixSign, Pattern.leaves_orElse, Pattern.leaves_rule] at leaves
    rcases leaves with h | h | h | h | h | h | h | h | h | h | h | h <;>
    · obtain ⟨n, listed, named, -⟩ := h
      exact ⟨n, _, listed, named⟩
  obtain ⟨⟨rule, start, stop, children⟩, operator, rfl, rfl⟩ := shaped
  exact ⟨operator, start, stop, children, rfl⟩

/-- The rules of primary expressions. -/
def Rule.isPrimary : Rule → Bool
  | functionCall | indexAccess | fieldAccess | float | integer | string | charLiteral | boolean
  | numberArray | charArray | strArray | identifier | parenthesized => true
  | _ => false

theorem leaves_primary (leaves : primary.Leaves nodes) :
    ∃ n : Node, nodes = [n] ∧ n.rule.isPrimary = true ∧ n.IsMatch := by
  simp only [primary, literal, Pattern.leaves_orElse, Pattern.leaves_rule] at leaves
  rcases leaves with h | h | h | (h | h | h | h | h | h | h | h) | h | h <;>
  · obtain ⟨n, listed, named, isMatch⟩ := h
    exact ⟨n, listed, by rw [named]; rfl, isMatch⟩

theorem leaves_operand (leaves : operand.Leaves nodes) :
    ∃ signs n, nodes = signs ++ [n] ∧ (∀ sign ∈ signs, prefixSign.Leaves [sign]) ∧
      n.rule.isPrimary = true ∧ n.IsMatch := by
  obtain ⟨signs, _, rfl, repeated, first⟩ := leaves
  obtain ⟨n, rfl, named, isMatch⟩ := leaves_primary first
  refine ⟨signs, n, rfl, Pattern.leaves_many_of_single (fun nodes sign => ?_) repeated, named, isMatch⟩
  obtain ⟨_, _, _, _, rfl⟩ := leaves_prefixSign sign
  exact ⟨_, rfl⟩

end Grammar

namespace Parsing

open Grammar ExpressionPart

theorem isPrimary_of_readPrimary {n : Node} {e : Expression} (read : readPrimary n = .ok e) :
    e.IsPrimary := by
  cases n
  cases readPrimary_form read <;> trivial

theorem readParts_append_eq_ok_iff {front back : List Node} {parts : List ExpressionPart} :
    readParts (front ++ back) = .ok parts ↔
      ∃ first second, readParts front = .ok first ∧ readParts back = .ok second ∧
        parts = first ++ second := by
  simp only [readParts_eq_mapM, List.mapM_append, bind_eq_ok_iff, pure_eq_ok_iff]
  constructor
  · rintro ⟨first, before, second, after, rfl⟩
    exact ⟨first, second, before, after, rfl⟩
  · rintro ⟨first, second, before, after, rfl⟩
    exact ⟨first, before, second, after, rfl⟩

/-- The parts of an expression are what its nodes are read as, one by one. -/
theorem readParts_eq_ok_iff {nodes : List Node} {parts : List ExpressionPart} :
    readParts nodes = .ok parts ↔
      List.Forall₂ (fun n part => readPart n = .ok part) nodes parts := by
  induction nodes generalizing parts with
  | nil => rw [List.forall₂_nil_left_iff, readParts_eq_mapM, List.mapM_nil, pure_eq_ok_iff, eq_comm]
  | cons n rest ih =>
    rw [readParts_cons_eq_ok_iff, List.forall₂_cons_left_iff]
    simp only [ih]

/-- A node that is no operator is read as an operand. -/
theorem readPart_eq_ok_of_isPrimary {n : Node} (primary : n.rule.isPrimary = true)
    {part : ExpressionPart} (read : readPart n = .ok part) :
    ∃ value, readPrimary n = .ok value ∧ value.IsPrimary ∧ part = .operand value := by
  cases n
  rcases readPart_cases read with ⟨_, rfl, -⟩ | ⟨_, rfl, -⟩ | ⟨value, readValue, rfl⟩
  · cases primary
  · cases primary
  · exact ⟨value, readValue, isPrimary_of_readPrimary readValue, rfl⟩

theorem isOperand_of_readParts {nodes : List Node} (shaped : Grammar.operand.Leaves nodes)
    {parts : List ExpressionPart} (read : readParts nodes = .ok parts) : IsOperand parts := by
  obtain ⟨signs, n, rfl, all, primary, -⟩ := leaves_operand shaped
  clear shaped
  induction signs generalizing parts with
  | nil =>
    obtain ⟨part, more, first, later, rfl⟩ := readParts_cons_eq_ok_iff.mp read
    obtain ⟨value, -, single, rfl⟩ := readPart_eq_ok_of_isPrimary primary first
    cases later
    exact .primary single
  | cons sign signs ih =>
    obtain ⟨part, more, first, later, rfl⟩ := readParts_cons_eq_ok_iff.mp read
    rw [List.forall_mem_cons] at all
    obtain ⟨operator, start, stop, children, same⟩ := leaves_prefixSign all.1
    cases same
    cases first
    exact .unary (ih later all.2)

theorem isFlat_of_readParts (groups : List (List Node))
    (all : ∀ g ∈ groups, (infixSign ++ Grammar.operand).Leaves g) {front : List Node}
    (first : Grammar.operand.Leaves front) {parts : List ExpressionPart}
    (read : readParts (front ++ groups.flatten) = .ok parts) : IsFlat parts := by
  induction groups generalizing front parts with
  | nil =>
    rw [List.flatten_nil, List.append_nil] at read
    exact .operand (isOperand_of_readParts first read)
  | cons g groups ih =>
    rw [List.forall_mem_cons] at all
    obtain ⟨⟨_, next, rfl, sign, second⟩, all⟩ := all
    obtain ⟨operator, start, stop, children, rfl⟩ := leaves_infixSign sign
    obtain ⟨before, after, here, there, rfl⟩ := readParts_append_eq_ok_iff.mp read
    rw [List.flatten_cons, List.append_assoc, List.singleton_append, readParts_cons_eq_ok_iff] at there
    obtain ⟨part, more, signed, later, rfl⟩ := there
    cases signed
    exact .binary (isOperand_of_readParts first here) (ih all second later)

/-- The parts of an expression that was matched alternate as they should. -/
theorem isFlat_of_isMatch {start stop : Cursor} {children : List Node}
    (isMatch : (Node.mk .expression start stop children).IsMatch) {parts : List ExpressionPart}
    (read : readParts children = .ok parts) : IsFlat parts := by
  obtain ⟨front, _, rfl, first, groups, rfl, all⟩ := isMatch.leaves nofun
  exact isFlat_of_readParts groups all first read

/-- Of every flat expression the ordered tree over its parts is built. The parts of an expression
that the grammar matches are the readings of its nodes, one by one, and form a flat expression, so
that the tree over them is read. -/
theorem readExpression_precedence :
    (∀ parts, IsFlat parts → ∃ tree, group parts = some tree ∧ tree.IsTreeOf parts) ∧
      ∀ start stop children, (Node.mk .expression start stop children).IsMatch →
        ∀ parts, readParts children = .ok parts →
          List.Forall₂ (fun n part => readPart n = .ok part) children parts ∧ IsFlat parts ∧
          ∃ tree, readExpression (.mk .expression start stop children) = .ok tree ∧
            tree.IsTreeOf parts := by
  refine ⟨fun parts => group_of_isFlat, fun start stop children isMatch parts read => ?_⟩
  have flat := isFlat_of_isMatch isMatch read
  obtain ⟨tree, grouped, isTree⟩ := group_of_isFlat flat
  refine ⟨readParts_eq_ok_iff.mp read, flat, tree, ?_, isTree⟩
  rw [readExpression, read]
  dsimp only [bind, Except.bind]
  rw [grouped]

/-- A loose operator may stand behind a tight one: of `1 * not a == b` the tree is
`1 * (not (a == b))`. -/
theorem readExpression_precedence_looseOperand :
    let one := Expression.integer 1 default
    let a := Expression.identifier ⟨"a", default⟩ default
    let b := Expression.identifier ⟨"b", default⟩ default
    let parts := [operand one, binary .multiply, unary .not default, operand a, binary .equal, operand b]
    IsFlat parts ∧ (∃ tree, group parts = some tree ∧ tree.IsTreeOf parts) ∧
      (group parts).map Expression.unplaced =
        some (.binary .multiply one (.unary .not (.binary .equal a b default) default) default) := by
  intro one a b parts
  have oneAlone : IsOperand [operand one] := .primary (show one.IsPrimary from trivial)
  have aAlone : IsOperand [operand a] := .primary (show a.IsPrimary from trivial)
  have bAlone : IsOperand [operand b] := .primary (show b.IsPrimary from trivial)
  have flat : IsFlat parts := .binary oneAlone (.binary (.unary aAlone) (.operand bAlone))
  exact ⟨flat, readExpression_precedence.1 parts flat, rfl⟩

end Parsing

end CheckedScript
