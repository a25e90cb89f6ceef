import CheckedScript.Parsing.Precedence

/-!
# Precedence

The tree that `ExpressionPart.group` builds of a flat expression has the parts of it in their order,
and in it tighter operators stand below looser ones (`Expression.Ordered`). No other tree does both
(`ExpressionPart.group_of_isFlat`). A unary operator may be looser than the operators before it:
as nothing else can be meant where an operand has to come, only those behind it are compared with it.
-/

namespace CheckedScript

namespace ExpressionPart

/-- The part without the place where an operator was written. -/
def unplaced : ExpressionPart → ExpressionPart
  | unary operator _ => unary operator default
  | part => part

end ExpressionPart

namespace Expression

/-- The expression is no operation, but for one in parentheses. -/
def IsPrimary : Expression → Prop
  | unary _ _ _ | binary _ _ _ _ => False
  | _ => True

/-- The operators and the operands of a tree in the order in which they are written. -/
def parts : Expression → List ExpressionPart
  | unary operator operand _ => .unary operator default :: operand.parts
  | binary operator left right _ => left.parts ++ .binary operator :: right.parts
  | e => [.operand e]

/-- The tree without the places of its operations. -/
def unplaced : Expression → Expression
  | unary operator operand _ => unary operator operand.unplaced default
  | binary operator left right _ => binary operator left.unplaced right.unplaced default
  | e => e

/-- If the expression is a binary operation, then at `level` or tighter. -/
def BindsFrom (level : Nat) : Expression → Prop
  | binary operator _ _ _ => level ≤ operator.level
  | _ => True

/-- If the expression is a binary operation, then tighter than `level`. -/
def BindsAbove (level : Nat) : Expression → Prop
  | binary operator _ _ _ => level < operator.level
  | _ => True

/-- The unary operators that reach up to the right end of the expression bind at `level` or
tighter. -/
def EndsFrom (level : Nat) : Expression → Prop
  | unary operator operand _ => level ≤ operator.level ∧ operand.EndsFrom level
  | binary _ _ right _ => right.EndsFrom level
  | _ => True

/-- Every operation has operands that its operator leaves together. -/
def Ordered : Expression → Prop
  | unary operator operand _ => operand.BindsAbove operator.level ∧ operand.Ordered
  | binary operator left right _ =>
    left.BindsFrom operator.level ∧ left.EndsFrom operator.level ∧ right.BindsAbove operator.level ∧
      left.Ordered ∧ right.Ordered
  | _ => True

variable {e : Expression} {level below : Nat}

theorem BindsAbove.bindsFrom (above : e.BindsAbove level) : e.BindsFrom level := by
  cases e with
  | binary operator => exact Nat.le_of_lt above
  | _ => trivial

theorem BindsFrom.bindsAbove (binds : e.BindsFrom level) (lower : below < level) :
    e.BindsAbove below := by
  cases e with
  | binary operator => exact Nat.lt_of_lt_of_le lower binds
  | _ => trivial

theorem BindsFrom.mono (binds : e.BindsFrom level) (lower : below ≤ level) : e.BindsFrom below := by
  cases e with
  | binary operator => exact Nat.le_trans lower binds
  | _ => trivial

theorem bindsFrom_zero (e : Expression) : e.BindsFrom 0 := by
  cases e with
  | binary operator => exact Nat.zero_le _
  | _ => trivial

theorem isPrimary_of_ne (noUnary : ∀ operator operand span, e = unary operator operand span → False)
    (noBinary : ∀ operator left right span, e = binary operator left right span → False) :
    e.IsPrimary := by
  cases e with
  | unary => exact noUnary _ _ _ rfl
  | binary => exact noBinary _ _ _ _ rfl
  | _ => trivial

theorem IsPrimary.parts (primary : e.IsPrimary) : e.parts = [.operand e] := by
  cases e with
  | unary | binary => cases primary
  | _ => rfl

theorem IsPrimary.bindsAbove (primary : e.IsPrimary) : e.BindsAbove level := by
  cases e with
  | binary => cases primary
  | _ => trivial

theorem IsPrimary.endsFrom (primary : e.IsPrimary) : e.EndsFrom level := by
  cases e with
  | unary | binary => cases primary
  | _ => trivial

theorem IsPrimary.ordered (primary : e.IsPrimary) : e.Ordered := by
  cases e with
  | unary | binary => cases primary
  | _ => trivial

theorem endsFrom_zero (e : Expression) : e.EndsFrom 0 := by
  induction e using parts.induct with
  | case1 operator operand _ ih => exact ⟨Nat.zero_le _, ih⟩
  | case2 operator left right _ _ ih => exact ih
  | case3 e noUnary noBinary => exact (isPrimary_of_ne noUnary noBinary).endsFrom

end Expression

namespace ExpressionPart

/-- An operand with the unary operators in front of it. -/
inductive IsOperand : List ExpressionPart → Prop
  | primary {value : Expression} : value.IsPrimary → IsOperand [.operand value]
  | unary {operator : UnaryOperator} {span : Span} {rest : List ExpressionPart} :
      IsOperand rest → IsOperand (.unary operator span :: rest)

/-- Operands with binary operators between them. -/
inductive IsFlat : List ExpressionPart → Prop
  | operand {parts : List ExpressionPart} : IsOperand parts → IsFlat parts
  | binary {front rest : List ExpressionPart} {operator : BinaryOperator} :
      IsOperand front → IsFlat rest → IsFlat (front ++ .binary operator :: rest)

/-! ## The tree has the parts of the flat expression and is ordered -/

namespace Pending

/-- The parts that a waiting operator stands for. -/
def parts : Pending → List ExpressionPart
  | unary operator _ => [.unary operator default]
  | binary operator left => left.parts ++ [.binary operator]

/-- The operator may take `value` as the operand on its right. -/
def Takes (p : Pending) (value : Expression) : Prop := value.BindsAbove p.level

/-- The waiting operators, innermost first, can be applied one after the other: what stands to the
left of an operator belongs to it alone. -/
def Nested : List Pending → Prop
  | [] => True
  | unary _ _ :: outer => Nested outer
  | binary operator left :: outer =>
    left.BindsFrom operator.level ∧ left.EndsFrom operator.level ∧ left.Ordered ∧
      (∀ p ∈ outer.head?, p.level < operator.level) ∧ Nested outer

/-- The parts that were read so far. -/
def allParts (pending : List Pending) : List ExpressionPart := pending.reverse.flatMap parts

theorem allParts_cons (p : Pending) (outer : List Pending) :
    allParts (p :: outer) = allParts outer ++ p.parts := by
  simp [allParts]

theorem parts_apply (p : Pending) (value : Expression) :
    (p.apply value).parts = p.parts ++ value.parts := by
  cases p <;> simp [apply, parts, Expression.parts]

end Pending

open Pending

/-- What is settled for an operator of a level. -/
structure Settled (level : Nat) (pending : List Pending) (value : Expression) : Prop where
  nested : Nested pending
  looser : ∀ p ∈ pending.head?, p.level < level
  ordered : value.Ordered
  binds : value.BindsFrom level
  ends : value.EndsFrom level

theorem parts_settle (level : Nat) (pending : List Pending) (value : Expression) :
    allParts (settle level pending value).1 ++ (settle level pending value).2.parts =
      allParts pending ++ value.parts := by
  induction pending generalizing value with
  | nil => rfl
  | cons innermost outer ih =>
    rw [settle]
    split
    · rw [ih, allParts_cons, parts_apply, List.append_assoc]
    · rfl

theorem settled_settle (level : Nat) {pending : List Pending} {value : Expression}
    (nested : Nested pending) (fits : ∀ p ∈ pending.head?, p.Takes value) (ordered : value.Ordered)
    (binds : value.BindsFrom level) (ends : value.EndsFrom level) :
    Settled level (settle level pending value).1 (settle level pending value).2 := by
  induction pending generalizing value with
  | nil => exact ⟨trivial, nofun, ordered, binds, ends⟩
  | cons innermost outer ih =>
    rw [settle]
    split
    · next tight =>
      have taken := fits innermost rfl
      cases innermost with
      | unary operator span =>
        exact ih nested (fun _ _ => trivial) ⟨taken, ordered⟩ trivial ⟨tight, ends⟩
      | binary operator left =>
        obtain ⟨first, last, whole, looser, nested⟩ := nested
        exact ih nested looser ⟨first, last, taken, whole, ordered⟩ tight ends
    · next loose =>
      refine ⟨nested, ?_, ordered, binds, ends⟩
      rintro p ⟨⟩
      exact Nat.lt_of_not_le loose

/-- An operand is read up to its primary expression, and its operators wait for that. -/
theorem groupOperand_of_isOperand {front : List ExpressionPart} (operand : IsOperand front)
    (pending : List Pending) (nested : Nested pending) :
    ∃ waiting value, value.IsPrimary ∧ Nested waiting ∧
      allParts waiting ++ value.parts = allParts pending ++ front.map unplaced ∧
      ∀ rest, groupOperand pending (front ++ rest) = groupOperator waiting value rest := by
  induction operand generalizing pending with
  | @primary value primary =>
    refine ⟨pending, value, primary, nested, ?_, fun rest => rfl⟩
    rw [primary.parts]
    rfl
  | @unary operator span rest _ ih =>
    obtain ⟨waiting, value, primary, nested, same, reads⟩ := ih (.unary operator span :: pending) nested
    refine ⟨waiting, value, primary, nested, ?_, reads⟩
    rw [same, allParts_cons, List.append_assoc]
    rfl

theorem groupOperand_of_isFlat {parts : List ExpressionPart} (flat : IsFlat parts)
    (pending : List Pending) (nested : Nested pending) :
    ∃ tree, groupOperand pending parts = some tree ∧ tree.Ordered ∧
      tree.parts = allParts pending ++ parts.map unplaced := by
  induction flat generalizing pending with
  | @operand parts operand =>
    obtain ⟨waiting, value, primary, nested, same, reads⟩ :=
      groupOperand_of_isOperand operand pending nested
    have read := reads []
    rw [List.append_nil, groupOperator] at read
    have settled := settled_settle 0 nested (fun p _ => primary.bindsAbove) primary.ordered
      primary.bindsAbove.bindsFrom primary.endsFrom
    refine ⟨_, read, settled.ordered, ?_⟩
    have all := parts_settle 0 waiting value
    -- Nothing is looser than level 0, so nothing waits any longer.
    have done : (settle 0 waiting value).1 = [] := by
      cases still : (settle 0 waiting value).1 with
      | nil => rfl
      | cons p outer => exact absurd (settled.looser p (by rw [still]; rfl)) (Nat.not_lt_zero _)
    rw [done] at all
    rw [← same, ← all]
    rfl
  | @binary front rest operator operand _ ih =>
    obtain ⟨waiting, value, primary, nested, same, reads⟩ :=
      groupOperand_of_isOperand operand pending nested
    have settled := settled_settle operator.level nested (fun p _ => primary.bindsAbove)
      primary.ordered primary.bindsAbove.bindsFrom primary.endsFrom
    obtain ⟨tree, grouped, ordered, whole⟩ := ih
      (.binary operator (settle operator.level waiting value).2 ::
        (settle operator.level waiting value).1)
      ⟨settled.binds, settled.ends, settled.ordered, settled.looser, settled.nested⟩
    refine ⟨tree, ?_, ordered, ?_⟩
    · rw [reads, groupOperator]
      exact grouped
    · rw [whole, allParts_cons, Pending.parts, ← List.append_assoc, parts_settle, same]
      simp [unplaced]

/-! ## Only one tree does -/

/-- Grouping the parts of an ordered tree builds the tree again, wherever it stands as an operand. -/
theorem groupOperand_parts {tree : Expression} (ordered : tree.Ordered) :
    ∃ waiting value again, again.unplaced = tree.unplaced ∧
      ∀ pending : List Pending, (∀ p ∈ pending.head?, p.Takes tree) →
        (∀ rest, groupOperand pending (tree.parts ++ rest) =
          groupOperator (waiting ++ pending) value rest) ∧
        ∀ level, tree.BindsFrom level → tree.EndsFrom level →
          settle level (waiting ++ pending) value = settle level pending again := by
  induction tree using Expression.parts.induct with
  | case1 operator operand span ih =>
    obtain ⟨waiting, value, again, same, reads⟩ := ih ordered.2
    refine ⟨waiting ++ [.unary operator default], value, (Pending.unary operator default).apply again,
      by simp [Pending.apply, Expression.unplaced, same], fun pending _ => ?_⟩
    obtain ⟨read, settles⟩ := reads (.unary operator default :: pending)
      (by rintro p ⟨⟩; exact ordered.1)
    refine ⟨fun rest => ?_, fun level _ ends => ?_⟩
    · rw [List.append_assoc]
      exact read rest
    · have inner := settles level (ordered.1.bindsFrom.mono ends.1) ends.2
      have tight : level ≤ (Pending.unary operator default).level := ends.1
      rw [settle, if_pos tight] at inner
      rw [List.append_assoc]
      exact inner
  | case2 operator left right span ihLeft ihRight =>
    obtain ⟨first, last, above, whole, whole'⟩ := ordered
    obtain ⟨waiting, value, again, same, reads⟩ := ihLeft whole
    obtain ⟨waiting', value', again', same', reads'⟩ := ihRight whole'
    refine ⟨waiting' ++ [.binary operator again], value', (Pending.binary operator again).apply again',
      by simp [Pending.apply, Expression.unplaced, same, same'], fun pending looser => ?_⟩
    obtain ⟨read, settles⟩ := reads pending fun p innermost => first.bindsAbove (looser p innermost)
    obtain ⟨read', settles'⟩ := reads' (.binary operator again :: pending)
      (by rintro p ⟨⟩; exact above)
    have stops : settle operator.level pending again = (pending, again) := by
      cases pending with
      | nil => rfl
      | cons p outer =>
        have loose : ¬ operator.level ≤ p.level := Nat.not_le_of_lt (looser p rfl)
        rw [settle, if_neg loose]
    refine ⟨fun rest => ?_, fun level binds ends => ?_⟩
    · have onward := read (.binary operator :: (right.parts ++ rest))
      rw [groupOperator, settles operator.level first last, stops] at onward
      simpa [Expression.parts] using onward.trans (read' rest)
    · have inner := settles' level (above.bindsFrom.mono binds) ends
      have tight : level ≤ (Pending.binary operator again).level := binds
      rw [settle, if_pos tight] at inner
      rw [List.append_assoc]
      exact inner
  | case3 e noUnary noBinary =>
    have primary := Expression.isPrimary_of_ne noUnary noBinary
    refine ⟨[], e, e, rfl, fun pending _ => ⟨fun rest => ?_, fun level _ _ => rfl⟩⟩
    rw [primary.parts]
    rfl

theorem group_parts {tree : Expression} (ordered : tree.Ordered) :
    ∃ again, group tree.parts = some again ∧ again.unplaced = tree.unplaced := by
  obtain ⟨waiting, value, again, same, reads⟩ := groupOperand_parts ordered
  obtain ⟨read, settles⟩ := reads [] nofun
  refine ⟨again, ?_, same⟩
  have whole := read []
  rwa [groupOperator, settles 0 tree.bindsFrom_zero tree.endsFrom_zero, List.append_nil] at whole

end ExpressionPart

/-- The tree is ordered, has the parts of the flat expression in their order, and is the only one
that is and does. -/
structure Expression.IsTreeOf (tree : Expression) (parts : List ExpressionPart) : Prop where
  parts_eq : tree.parts = parts.map .unplaced
  ordered : tree.Ordered
  unique : ∀ other : Expression, other.parts = parts.map .unplaced → other.Ordered →
    other.unplaced = tree.unplaced

theorem ExpressionPart.group_of_isFlat {parts : List ExpressionPart} (flat : IsFlat parts) :
    ∃ tree, group parts = some tree ∧ tree.IsTreeOf parts := by
  obtain ⟨tree, grouped, ordered, same⟩ := groupOperand_of_isFlat flat [] trivial
  refine ⟨tree, grouped, same, ordered, fun other same' ordered' => ?_⟩
  obtain ⟨again, built, whole⟩ := group_parts ordered
  obtain ⟨again', built', whole'⟩ := group_parts ordered'
  rw [same'.trans same.symm, built] at built'
  rw [← whole, ← whole', Option.some.inj built']

end CheckedScript
