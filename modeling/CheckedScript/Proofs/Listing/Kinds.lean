import CheckedScript.Proofs.Listing.Trees

/-!
# What a tree is the listing of

The head of a nested list tells which kind of expression or of statement it was written for: no two
kinds share a head and a number of items.
-/

namespace CheckedScript

open Listing

inductive Expression.Kind where
  | integer
  | float
  | str
  | char
  | boolean
  | numberArray
  | charArray
  | strArray
  | identifier
  | index
  | fieldAccess
  | call
  | unary
  | binary

/-- The kind of an expression; that of a parenthesized one is the kind of the expression inside. -/
def Expression.kind : Expression → Expression.Kind
  | .integer .. => .integer
  | .float .. => .float
  | .str .. => .str
  | .char .. => .char
  | .boolean .. => .boolean
  | .numberArray .. => .numberArray
  | .charArray .. => .charArray
  | .strArray .. => .strArray
  | .identifier .. => .identifier
  | .index .. => .index
  | .fieldAccess .. => .fieldAccess
  | .call .. => .call
  | .unary .. => .unary
  | .binary .. => .binary
  | .parenthesized inner _ => inner.kind

/-- The kind of an expression that is not parenthesized. -/
def Expression.kind? : Expression → Option Expression.Kind
  | .parenthesized .. => none
  | e => some e.kind

/-- What holds of all expressions that are not parenthesized, and of a parenthesized one with the
expression inside, holds of all expressions. -/
theorem Expression.through_parentheses {P : Expression → Prop}
    (inside : ∀ inner span, P inner → P (.parenthesized inner span))
    (other : ∀ e, e.kind? = some e.kind → P e) : (e : Expression) → P e
  | .parenthesized inner span => inside inner span (through_parentheses inside other inner)
  | .integer .. | .float .. | .str .. | .char .. | .boolean .. | .numberArray .. | .charArray ..
  | .strArray .. | .identifier .. | .index .. | .fieldAccess .. | .call .. | .unary .. | .binary .. =>
    other _ rfl

inductive Statement.Kind where
  | variable
  | assignment
  | fieldAssignment
  | function
  | block
  | conditional
  | while
  | break
  | continue
  | return
  | print
  | attempt
  | recordType
  | recordInstance
  | expression

def Statement.kind : Statement → Statement.Kind
  | .variable .. => .variable
  | .assignment .. => .assignment
  | .fieldAssignment .. => .fieldAssignment
  | .function .. => .function
  | .block .. => .block
  | .conditional .. => .conditional
  | .while .. => .while
  | .break .. => .break
  | .continue .. => .continue
  | .return .. => .return
  | .print .. => .print
  | .attempt .. => .attempt
  | .recordType .. => .recordType
  | .recordInstance .. => .recordInstance
  | .expression .. => .expression

namespace Listing

/-- The kind of array literal whose first element is written as this word. -/
def arrayKind (element : String) : Expression.Kind :=
  if element.toList.head? = some '"' then .strArray
  else if element.toList.head? = some '\'' then .charArray
  else .numberArray

/-- The kind of expression that is written as this tree. -/
def Tree.expressionKind : Tree → Expression.Kind
  | .word text => if text.toList.head? = some '"' then .str else .identifier
  | .list (.word "integer" :: _) => .integer
  | .list (.word "float" :: _) => .float
  | .list (.word "char" :: _) => .char
  | .list (.word "boolean" :: _) => .boolean
  | .list (.word "array" :: .word element :: _) => arrayKind element
  | .list (.word "index" :: _) => .index
  | .list (.word "field" :: _) => .fieldAccess
  | .list (.word "call" :: _) => .call
  | .list [_, _] => .unary
  | .list _ => .binary

/-- The kind of statement that is written as this tree. -/
def Tree.statementKind : Tree → Statement.Kind
  | .list (.word "declare" :: _) => .variable
  | .list (.word "assign" :: .word target :: _) =>
    if '.' ∈ target.toList then .fieldAssignment else .assignment
  | .list (.word "func" :: _) => .function
  | .list (.word "block" :: _) => .block
  | .list (.word "if" :: _) => .conditional
  | .list (.word "while" :: _) => .while
  | .list (.word "break" :: _) => .break
  | .list (.word "continue" :: _) => .continue
  | .list (.word "return" :: _) => .return
  | .list (.word "print" :: _) => .print
  | .list (.word "try" :: _) => .attempt
  | .list (.word "type" :: _) => .recordType
  | .list (.word "record" :: _) => .recordInstance
  | _ => .expression

theorem head?_of_isBare {w : String} (bare : IsBare w) {c : Char} (quotes : Text.IsQuote c) :
    w.toList.head? ≠ some c := fun same =>
  (bare.2 c (List.mem_of_mem_head? same)).2 quotes

theorem arrayKind_of_isBare {w : String} (bare : IsBare w) : arrayKind w = .numberArray := by
  rw [arrayKind, if_neg (head?_of_isBare bare (.inl rfl)), if_neg (head?_of_isBare bare (.inr rfl))]

end Listing

variable {allowed : Float → Prop}

theorem Expression.expressionKind_tree : (e : Expression) → (∀ a ∈ e.atoms, a.Legible allowed) →
    e.tree.expressionKind = e.kind
  | .integer .., _ | .float .., _ | .char .., _ | .boolean .., _ | .index .., _ | .call .., _
  | .fieldAccess .., _ => rfl
  | .str s _, _ => by
    have opens : (Text.quoteString s).toList.head? = some '"' := by
      simp [Text.quoteString, Text.quotedBy]
    exact if_pos opens
  | .identifier name _, legible => by
    have bare := isBare_of_legible (legible _ List.mem_cons_self)
    exact if_neg (head?_of_isBare bare (.inl rfl))
  | .numberArray elements _, legible => by
    cases elements with
    | nil => exact absurd rfl (legible _ List.mem_cons_self)
    | cons n _ => exact arrayKind_of_isBare (isBare_numberText n)
  | .charArray elements _, legible => by
    cases elements with
    | nil => exact absurd rfl (legible _ List.mem_cons_self)
    | cons c _ =>
      change arrayKind (charText c) = .charArray
      simp [arrayKind, charText]
  | .strArray elements _, legible => by
    cases elements with
    | nil => exact absurd rfl (legible _ List.mem_cons_self)
    | cons s _ =>
      change arrayKind (Text.quoteString s) = .strArray
      simp [arrayKind, Text.quoteString, Text.quotedBy]
  | .unary operator _ _, _ => by cases operator <;> rfl
  | .binary operator _ _ _, _ => by cases operator <;> rfl
  | .parenthesized inner _, legible => inner.expressionKind_tree legible

/-- No expression is written like a statement of another kind. -/
theorem Expression.statementKind_tree : (e : Expression) → e.tree.statementKind = .expression
  | .parenthesized inner _ => inner.statementKind_tree
  | .integer .. | .float .. | .str .. | .char .. | .boolean .. | .numberArray .. | .charArray ..
  | .strArray .. | .identifier .. | .index .. | .fieldAccess .. | .call .. => rfl
  | .unary operator _ _ => by cases operator <;> rfl
  | .binary operator _ _ _ => by cases operator <;> rfl

theorem Statement.statementKind_tree : (s : Statement) → (∀ a ∈ s.atoms, a.Legible allowed) →
    s.tree.statementKind = s.kind
  | .variable .., _ | .function .., _ | .while .., _ | .break .., _ | .continue .., _
  | .return .., _ | .print .., _ | .attempt .., _ | .recordType .., _ | .recordInstance .., _ => rfl
  | .block (.mk _ _) _, _ => rfl
  | .conditional _ none _, _ | .conditional _ (some _) _, _ => rfl
  | .assignment name value _, legible => by
    have named := legible (.name name.name) List.mem_cons_self
    refine if_neg fun pointed => ?_
    exact absurd (named.2 '.' pointed) (by decide)
  | .fieldAssignment record field value _, _ => by
    refine if_pos ?_
    simp
  | .expression value _, _ => value.statementKind_tree

end CheckedScript
