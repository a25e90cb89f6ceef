import CheckedScript.Proofs.Listing.Layout
import CheckedScript.Proofs.Listing.Words

/-!
# What the listing of a program spells

The nested list of a legible program without its layout (`Program.tree`). The listing is read as this
tree, wherever its lines are broken (`reads_programText`).
-/

namespace CheckedScript

open Listing

/-! ## Trees -/

def Declarator.tree (d : Declarator) : Tree := .list [.word d.type.text, .word d.name.name]

mutual

def Expression.tree : Expression → Tree
  | .integer w _ => .list [.word "integer", .word (integerText w)]
  | .float x _ => .list [.word "float", .word (Decimal.general x)]
  | .str s _ => .word (Text.quoteString s)
  | .char c _ => .list [.word "char", .word (charText c)]
  | .boolean b _ => .list [.word "boolean", .word (Value.boolText b)]
  | .numberArray elements _ => .list (.word "array" :: elements.map (.word ∘ numberText))
  | .charArray elements _ => .list (.word "array" :: elements.map (.word ∘ charText))
  | .strArray elements _ => .list (.word "array" :: elements.map (.word ∘ Text.quoteString))
  | .identifier name _ => .word name.name
  | .index array position _ => .list [.word "index", .word array.name, position.tree]
  | .fieldAccess record field _ => .list [.word "field", .word record.name, .word field.name]
  | .call name arguments _ =>
    .list (.word "call" :: .word name.name :: Expression.listTree arguments)
  | .unary operator operand _ => .list [.word operator.symbol, operand.tree]
  | .binary operator left right _ => .list [.word operator.symbol, left.tree, right.tree]
  | .parenthesized inner _ => inner.tree

def Expression.listTree : List Expression → List Tree
  | [] => []
  | e :: rest => e.tree :: Expression.listTree rest

end

def Expression.optionTree : Option Expression → List Tree
  | none => []
  | some e => [e.tree]

mutual

def Statement.tree : Statement → Tree
  | .variable type name initializer _ =>
    .list (.word "declare" :: .word type.text :: .word name.name :: Expression.optionTree initializer)
  | .assignment name value _ => .list [.word "assign", .word name.name, value.tree]
  | .fieldAssignment record field value _ =>
    .list [.word "assign", .word (record.name ++ "." ++ field.name), value.tree]
  | .function name parameters returnType body _ =>
    .list [.word "func", .word name.name,
      .list (.word "params" :: parameters.map Declarator.tree),
      .list [.word "returns", .word (returnTypeText returnType)], body.tree]
  | .block body _ => body.tree
  | .conditional branches none _ => .list (.word "if" :: Branch.listTree branches)
  | .conditional branches (some otherwise) _ =>
    .list (.word "if" :: (Branch.listTree branches ++ [.list [.word "else", otherwise.tree]]))
  | .while condition body _ => .list [.word "while", condition.tree, body.tree]
  | .break _ => .list [.word "break"]
  | .continue _ => .list [.word "continue"]
  | .return value _ => .list (.word "return" :: Expression.optionTree value)
  | .print value _ => .list [.word "print", value.tree]
  | .attempt guarded recovery _ =>
    .list [.word "try", guarded.tree, .list [.word "recover", recovery.tree]]
  | .recordType name fields _ =>
    .list (.word "type" :: .word name.name :: fields.map Declarator.tree)
  | .recordInstance recordType name _ =>
    .list [.word "record", .word recordType.name, .word name.name]
  | .expression value _ => value.tree

def Statement.listTree : List Statement → List Tree
  | [] => []
  | s :: rest => s.tree :: Statement.listTree rest

def Block.tree : Block → Tree
  | .mk statements _ => .list (.word "block" :: Statement.listTree statements)

def Branch.listTree : List Branch → List Tree
  | [] => []
  | .mk condition body _ :: rest =>
    .list [.word "branch", condition.tree, body.tree] :: Branch.listTree rest

end

/-- What stands behind the branches of an `if`. -/
def Block.elseTree : Option Block → List Tree
  | none => []
  | some otherwise => [.list [.word "else", otherwise.tree]]

theorem Statement.tree_conditional (branches : List Branch) (otherwise : Option Block)
    (span : Span) :
    (Statement.conditional branches otherwise span).tree =
      .list (.word "if" :: (Branch.listTree branches ++ Block.elseTree otherwise)) := by
  cases otherwise <;> simp [Statement.tree, Block.elseTree]

def Program.tree (program : Program) : Tree :=
  .list (.word "program" :: Statement.listTree program.statements)

/-! ## What is spelled -/

namespace Listing

section

variable {a b c : String}

theorem intercalate_two : a ++ " " ++ b = " ".intercalate [a, b] := by
  rw [String.intercalate_cons_cons, String.intercalate_singleton]

theorem intercalate_three : a ++ " " ++ b ++ " " ++ c = " ".intercalate [a, b, c] := by
  rw [String.intercalate_cons_cons, ← intercalate_two]
  simp only [String.append_assoc]

theorem words_one (isWord : IsWord a.toList) : ∀ w ∈ [a], IsWord w.toList :=
  List.forall_mem_singleton.mpr isWord

theorem words_two (isWord : IsWord a.toList) (isWord' : IsWord b.toList) :
    ∀ w ∈ [a, b], IsWord w.toList :=
  List.forall_mem_cons.mpr ⟨isWord, words_one isWord'⟩

theorem words_three (isWord : IsWord a.toList) (isWord' : IsWord b.toList)
    (isWord'' : IsWord c.toList) : ∀ w ∈ [a, b, c], IsWord w.toList :=
  List.forall_mem_cons.mpr ⟨isWord, words_two isWord' isWord''⟩

/-- A list whose head is a keyword. -/
theorem spells_keyword {items : List SExpr} {trees : List Tree} (bare : IsBare a)
    (inside : List.Forall₂ SExpr.Spells items trees) :
    (SExpr.list a items).Spells (.list (.word a :: trees)) :=
  SExpr.spells_list String.intercalate_singleton.symm (words_one bare.isWord)
    (List.cons_ne_nil _ _) inside

/-- A list whose head is a keyword and a name. -/
theorem spells_named {items : List SExpr} {trees : List Tree} (bare : IsBare a) (bare' : IsBare b)
    (inside : List.Forall₂ SExpr.Spells items trees) :
    (SExpr.list (a ++ " " ++ b) items).Spells (.list (.word a :: .word b :: trees)) :=
  SExpr.spells_list intercalate_two (words_two bare.isWord bare'.isWord) (List.cons_ne_nil _ _) inside

/-- A list whose head declares a variable. -/
theorem spells_declare {items : List SExpr} {trees : List Tree} {type : TypeName} (bare : IsBare b)
    (inside : List.Forall₂ SExpr.Spells items trees) :
    (SExpr.list s!"declare {type.text} {b}" items).Spells
      (.list (.word "declare" :: .word type.text :: .word b :: trees)) :=
  SExpr.spells_list (intercalate_three (a := "declare")) (words_three (IsBare.isWord (by decide))
    (isBare_typeText type).isWord bare.isWord) (List.cons_ne_nil _ _) inside

/-- Two words that always stay on one line. -/
theorem spells_pair (isWord : IsWord a.toList) (isWord' : IsWord b.toList) :
    (SExpr.flat [a, b]).Spells (.list [.word a, .word b]) :=
  SExpr.spells_flat (words_two isWord isWord') (List.cons_ne_nil _ _)

end

theorem spells_atoms {α : Type} {f : α → String} (isWord : ∀ a, IsWord (f a).toList) (l : List α) :
    List.Forall₂ SExpr.Spells (l.map fun a => .atom (f a)) (l.map (.word ∘ f)) := by
  induction l with
  | nil => exact .nil
  | cons a l ih => exact .cons (SExpr.spells_atom (isWord a)) ih

theorem spells_declarators {allowed : Float → Prop} {ds : List Declarator}
    (legible : ∀ a ∈ ds.map Declarator.atom, a.Legible allowed) :
    List.Forall₂ SExpr.Spells (ds.map declaratorList) (ds.map Declarator.tree) := by
  induction ds with
  | nil => exact .nil
  | cons d ds ih =>
    rw [List.map_cons, List.forall_mem_cons] at legible
    exact .cons (spells_pair (isBare_typeText d.type).isWord (isBare_of_legible legible.1).isWord)
      (ih legible.2)

end Listing

section

variable {allowed : Float → Prop}

mutual

theorem Expression.spells : (e : Expression) → (∀ a ∈ e.atoms, a.Legible allowed) →
    (ofExpression e).Spells e.tree
  | .integer w _, _ => by
    rw [ofExpression, Expression.tree]
    exact spells_pair (IsBare.isWord (by decide)) (isBare_integerText w).isWord
  | .float x _, _ => by
    rw [ofExpression, Expression.tree]
    exact spells_pair (IsBare.isWord (by decide)) (isBare_general x).isWord
  | .str s _, _ => by
    rw [ofExpression, Expression.tree]
    exact SExpr.spells_atom (isWord_quoteString s)
  | .char c _, _ => by
    rw [ofExpression, Expression.tree]
    exact spells_pair (IsBare.isWord (by decide)) (isWord_charText c)
  | .boolean b _, _ => by
    rw [ofExpression, Expression.tree]
    exact spells_pair (IsBare.isWord (by decide)) (isBare_boolText b).isWord
  | .numberArray elements _, _ => by
    rw [ofExpression, Expression.tree]
    exact spells_keyword (by decide) (spells_atoms (fun n => (isBare_numberText n).isWord) elements)
  | .charArray elements _, _ => by
    rw [ofExpression, Expression.tree]
    exact spells_keyword (by decide) (spells_atoms isWord_charText elements)
  | .strArray elements _, _ => by
    rw [ofExpression, Expression.tree]
    exact spells_keyword (by decide) (spells_atoms isWord_quoteString elements)
  | .identifier name _, legible => by
    rw [Expression.atoms, List.forall_mem_singleton] at legible
    rw [ofExpression, Expression.tree]
    exact SExpr.spells_atom (isBare_of_legible legible).isWord
  | .index array position _, legible => by
    rw [Expression.atoms, List.forall_mem_cons] at legible
    rw [ofExpression, Expression.tree]
    exact spells_named (a := "index") (by decide) (isBare_of_legible legible.1)
      (.cons (position.spells legible.2) .nil)
  | .fieldAccess record field _, legible => by
    rw [Expression.atoms, List.forall_mem_cons, List.forall_mem_singleton] at legible
    rw [ofExpression, Expression.tree]
    exact SExpr.spells_flat (words_three (IsBare.isWord (by decide))
      (isBare_of_legible legible.1).isWord (isBare_of_legible legible.2).isWord)
      (List.cons_ne_nil _ _)
  | .call name arguments _, legible => by
    rw [Expression.atoms, List.forall_mem_cons] at legible
    rw [ofExpression, Expression.tree]
    exact spells_named (a := "call") (by decide) (isBare_of_legible legible.1)
      (Expression.listSpells arguments legible.2)
  | .unary operator operand _, legible => by
    rw [Expression.atoms] at legible
    rw [ofExpression, Expression.tree]
    exact spells_keyword (isBare_unarySymbol operator) (.cons (operand.spells legible) .nil)
  | .binary operator left right _, legible => by
    rw [Expression.atoms, List.forall_mem_append] at legible
    rw [ofExpression, Expression.tree]
    exact spells_keyword (isBare_binarySymbol operator)
      (.cons (left.spells legible.1) (.cons (right.spells legible.2) .nil))
  | .parenthesized inner _, legible => by
    rw [Expression.atoms] at legible
    rw [ofExpression, Expression.tree]
    exact inner.spells legible

theorem Expression.listSpells : (es : List Expression) →
    (∀ a ∈ Expression.listAtoms es, a.Legible allowed) →
    List.Forall₂ SExpr.Spells (ofArguments es) (Expression.listTree es)
  | [], _ => by
    rw [ofArguments, Expression.listTree]
    exact .nil
  | e :: rest, legible => by
    rw [Expression.listAtoms, List.forall_mem_append] at legible
    rw [ofArguments, Expression.listTree]
    exact .cons (e.spells legible.1) (Expression.listSpells rest legible.2)

end

mutual

theorem Statement.spells : (s : Statement) → (∀ a ∈ s.atoms, a.Legible allowed) →
    (ofStatement s).Spells s.tree
  | .variable type name none _, legible => by
    rw [Statement.atoms, List.forall_mem_cons] at legible
    rw [ofStatement, Statement.tree]
    exact spells_declare (isBare_of_legible legible.1) .nil
  | .variable type name (some value) _, legible => by
    rw [Statement.atoms, List.forall_mem_cons] at legible
    rw [ofStatement, Statement.tree]
    exact spells_declare (isBare_of_legible legible.1) (.cons (value.spells legible.2) .nil)
  | .assignment name value _, legible => by
    rw [Statement.atoms, List.forall_mem_cons] at legible
    rw [ofStatement, Statement.tree]
    exact spells_named (a := "assign") (by decide) (isBare_of_legible legible.1)
      (.cons (value.spells legible.2) .nil)
  | .fieldAssignment record field value _, legible => by
    rw [Statement.atoms, List.forall_mem_cons, List.forall_mem_cons] at legible
    have field' := isBare_of_legible legible.2.1
    have pointed : IsBare (record.name ++ "." ++ field.name) :=
      isBare_append (isBare_append (isBare_of_legible legible.1) (by decide)) field'.2
    have set : s!"assign {record.name}.{field.name}" =
        "assign" ++ " " ++ (record.name ++ "." ++ field.name) := by
      rw [← String.append_assoc, ← String.append_assoc]
      rfl
    rw [ofStatement, Statement.tree, set]
    exact spells_named (by decide) pointed (.cons (value.spells legible.2.2) .nil)
  | .function name parameters returnType body _, legible => by
    rw [Statement.atoms, List.forall_mem_cons, List.forall_mem_append] at legible
    rw [ofStatement, Statement.tree]
    have declared := spells_keyword (a := "params") (by decide) (spells_declarators legible.2.1)
    have returned := spells_pair (a := "returns") (IsBare.isWord (by decide))
      (isBare_returnTypeText returnType).isWord
    exact spells_named (a := "func") (by decide) (isBare_of_legible legible.1)
      (.cons declared (.cons returned (.cons (body.spells legible.2.2) .nil)))
  | .block body _, legible => by
    rw [Statement.atoms] at legible
    rw [ofStatement, Statement.tree]
    exact body.spells legible
  | .conditional branches none _, legible => by
    rw [Statement.atoms] at legible
    rw [ofStatement, Statement.tree]
    exact spells_keyword (by decide) (Branch.listSpells branches legible)
  | .conditional branches (some otherwise) _, legible => by
    rw [Statement.atoms, List.forall_mem_append] at legible
    rw [ofStatement, Statement.tree]
    have last := spells_keyword (a := "else") (by decide) (.cons (otherwise.spells legible.2) .nil)
    exact spells_keyword (by decide)
      (List.rel_append (Branch.listSpells branches legible.1) (.cons last .nil))
  | .while condition body _, legible => by
    rw [Statement.atoms, List.forall_mem_append] at legible
    rw [ofStatement, Statement.tree]
    exact spells_keyword (by decide)
      (.cons (condition.spells legible.1) (.cons (body.spells legible.2) .nil))
  | .break _, _ => by
    rw [ofStatement, Statement.tree]
    exact SExpr.spells_flat (words_one (IsBare.isWord (by decide))) (List.cons_ne_nil _ _)
  | .continue _, _ => by
    rw [ofStatement, Statement.tree]
    exact SExpr.spells_flat (words_one (IsBare.isWord (by decide))) (List.cons_ne_nil _ _)
  | .return none _, _ => by
    rw [ofStatement, Statement.tree]
    exact spells_keyword (by decide) .nil
  | .return (some value) _, legible => by
    rw [Statement.atoms] at legible
    rw [ofStatement, Statement.tree]
    exact spells_keyword (by decide) (.cons (value.spells legible) .nil)
  | .print value _, legible => by
    rw [Statement.atoms] at legible
    rw [ofStatement, Statement.tree]
    exact spells_keyword (by decide) (.cons (value.spells legible) .nil)
  | .attempt guarded recovery _, legible => by
    rw [Statement.atoms, List.forall_mem_append] at legible
    rw [ofStatement, Statement.tree]
    have recovered := spells_keyword (a := "recover") (by decide)
      (.cons (recovery.spells legible.2) .nil)
    exact spells_keyword (by decide) (.cons (guarded.spells legible.1) (.cons recovered .nil))
  | .recordType name fields _, legible => by
    rw [Statement.atoms, List.forall_mem_cons] at legible
    rw [ofStatement, Statement.tree]
    exact spells_named (a := "type") (by decide) (isBare_of_legible legible.1)
      (spells_declarators legible.2)
  | .recordInstance recordType name _, legible => by
    rw [Statement.atoms, List.forall_mem_cons, List.forall_mem_singleton] at legible
    rw [ofStatement, Statement.tree]
    exact SExpr.spells_flat (words_three (IsBare.isWord (by decide))
      (isBare_of_legible legible.1).isWord (isBare_of_legible legible.2).isWord)
      (List.cons_ne_nil _ _)
  | .expression value _, legible => by
    rw [Statement.atoms] at legible
    rw [ofStatement, Statement.tree]
    exact value.spells legible

theorem Statement.listSpells : (ss : List Statement) →
    (∀ a ∈ Statement.listAtoms ss, a.Legible allowed) →
    List.Forall₂ SExpr.Spells (ofStatements ss) (Statement.listTree ss)
  | [], _ => by
    rw [ofStatements, Statement.listTree]
    exact .nil
  | s :: rest, legible => by
    rw [Statement.listAtoms, List.forall_mem_append] at legible
    rw [ofStatements, Statement.listTree]
    exact .cons (s.spells legible.1) (Statement.listSpells rest legible.2)

theorem Block.spells : (b : Block) → (∀ a ∈ b.atoms, a.Legible allowed) →
    (ofBlock b).Spells b.tree
  | .mk statements _, legible => by
    rw [Block.atoms] at legible
    rw [ofBlock, Block.tree]
    exact spells_keyword (by decide) (Statement.listSpells statements legible)

theorem Branch.listSpells : (bs : List Branch) →
    (∀ a ∈ Branch.listAtoms bs, a.Legible allowed) →
    List.Forall₂ SExpr.Spells (ofBranches bs) (Branch.listTree bs)
  | [], _ => by
    rw [ofBranches, Branch.listTree]
    exact .nil
  | .mk condition body _ :: rest, legible => by
    rw [Branch.listAtoms, List.forall_mem_append, List.forall_mem_append] at legible
    rw [ofBranches, Branch.listTree]
    have first := spells_keyword (a := "branch") (by decide)
      (.cons (condition.spells legible.1.1) (.cons (body.spells legible.1.2) .nil))
    exact .cons first (Branch.listSpells rest legible.2)

end

/-- The listing of a program is read as its tree. -/
theorem reads_programText {program : Program} (legible : ∀ a ∈ program.atoms, a.Legible allowed) :
    Reads (programText program) program.tree := by
  have items := reads_renderAll (Statement.listSpells program.statements legible) 2
  have headed : Writes [.word "program"] "program".toList := .one (IsBare.isWord (by decide))
  unfold programText
  split
  · next none =>
    rw [none, List.forall₂_nil_left_iff] at items
    rw [Reads, Program.tree, items]
    exact writes_parenthesize headed
  · next only alone =>
    rw [alone] at items
    exact writes_parenthesize (writes_foldl headed isGap_blank items)
  · exact writes_parenthesize (writes_foldl headed (isGap_lineBreak 2) items)

end

end CheckedScript
