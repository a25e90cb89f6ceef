import CheckedScript.Proofs.Ast.Unwrapped
import CheckedScript.Proofs.Listing.Kinds
import CheckedScript.Proofs.Parsing.Legible

/-!
# The listing of a program loses its places and its parentheses only

Programs that were read and that have the same listing are equal but for their spans and the
parentheses of their expressions (`programText_determines`): the listing is read as one tree, the head
of every list in it tells what it was written for, and its words tell the rest.
-/

namespace CheckedScript

open Listing

theorem Identifier.bare_eq {name name' : Identifier} (same : name.name = name'.name) :
    name.bare = name'.bare := by
  rw [bare, bare, same]

namespace Listing

theorem map_word_inj {α : Type} {f : α → String} {l l' : List α}
    (inj : ∀ a ∈ l, ∀ b ∈ l', f a = f b → a = b)
    (same : l.map (Tree.word ∘ f) = l'.map (Tree.word ∘ f)) : l = l' := by
  induction l generalizing l' with
  | nil => rw [List.map_eq_nil_iff.mp same.symm]
  | cons a l ih =>
    cases l' with
    | nil => cases same
    | cons b l' =>
      rw [List.map_cons, List.map_cons, List.cons.injEq] at same
      have first := inj a List.mem_cons_self b List.mem_cons_self (Tree.word.inj same.1)
      have rest := ih (fun a inside b inside' =>
        inj a (List.mem_cons_of_mem _ inside) b (List.mem_cons_of_mem _ inside')) same.2
      rw [first, rest]

theorem map_declarator_inj {ds ds' : List Declarator}
    (same : ds.map Declarator.tree = ds'.map Declarator.tree) :
    ds.map Declarator.bare = ds'.map Declarator.bare := by
  induction ds generalizing ds' with
  | nil => rw [List.map_eq_nil_iff.mp same.symm]
  | cons d ds ih =>
    cases ds' with
    | nil => cases same
    | cons d' ds' =>
      simp only [List.map_cons, Declarator.tree, List.cons.injEq, Tree.list.injEq, Tree.word.injEq,
        and_true] at same
      obtain ⟨⟨type, name⟩, rest⟩ := same
      simp only [List.map_cons, Declarator.bare, typeText_inj type, Identifier.bare_eq name, ih rest]

end Listing

section

variable {F G : Float → Prop}

/-- Floats of the one sort and of the other are told apart by their texts. -/
def Listing.Faithful (F G : Float → Prop) : Prop :=
  ∀ x y, F x → G y → Decimal.general x = Decimal.general y → x = y

/-- The expression can be told, but for places and parentheses, from the way it is written. -/
def Expression.Determined (F G : Float → Prop) (e : Expression) : Prop :=
  ∀ e' : Expression, (∀ a ∈ e.atoms, a.Legible F) → (∀ a ∈ e'.atoms, a.Legible G) →
    e.tree = e'.tree → e.unwrapped.bare = e'.unwrapped.bare

/-- It is enough to tell it from the other expressions of its kind. -/
theorem Expression.Determined.of_kind {e : Expression}
    (told : ∀ e' : Expression, e'.kind? = some e.kind →
      (∀ a ∈ e.atoms, a.Legible F) → (∀ a ∈ e'.atoms, a.Legible G) → e.tree = e'.tree →
      e.unwrapped.bare = e'.unwrapped.bare) : e.Determined F G := by
  refine Expression.through_parentheses (fun inner span ih => ih) fun e' kind => ?_
  intro legible legible' same
  refine told e' ?_ legible legible' same
  rw [kind, ← e.expressionKind_tree legible, same, e'.expressionKind_tree legible']

mutual

theorem Expression.determined (faithful : Faithful F G) : (e : Expression) → e.Determined F G
  | .parenthesized inner _ => fun e' legible legible' same =>
    inner.determined faithful e' legible legible' same
  | .integer w _ => .of_kind fun e' kind _ _ same => by
    cases e' with
    | integer w' _ =>
      simp only [tree, Tree.list.injEq, List.cons.injEq, Tree.word.injEq, and_true,
        true_and] at same
      rw [integerText_inj same]
      rfl
    | _ => cases kind
  | .float x _ => .of_kind fun e' kind legible legible' same => by
    cases e' with
    | float y _ =>
      simp only [tree, Tree.list.injEq, List.cons.injEq, Tree.word.injEq, and_true,
        true_and] at same
      rw [faithful x y (legible _ List.mem_cons_self) (legible' _ List.mem_cons_self) same]
      rfl
    | _ => cases kind
  | .str s _ => .of_kind fun e' kind _ _ same => by
    cases e' with
    | str s' _ =>
      rw [Text.quoteString_inj (Tree.word.inj same)]
      rfl
    | _ => cases kind
  | .char c _ => .of_kind fun e' kind _ _ same => by
    cases e' with
    | char c' _ =>
      simp only [tree, Tree.list.injEq, List.cons.injEq, Tree.word.injEq, and_true,
        true_and] at same
      rw [charText_inj same]
      rfl
    | _ => cases kind
  | .boolean b _ => .of_kind fun e' kind _ _ same => by
    cases e' with
    | boolean b' _ =>
      simp only [tree, Tree.list.injEq, List.cons.injEq, Tree.word.injEq, and_true,
        true_and] at same
      rw [boolText_inj same]
      rfl
    | _ => cases kind
  | .numberArray elements _ => .of_kind fun e' kind legible legible' same => by
    cases e' with
    | numberArray elements' _ =>
      simp only [tree, Tree.list.injEq, List.cons.injEq, true_and] at same
      rw [atoms, List.forall_mem_cons, List.forall_mem_flatMap] at legible legible'
      have all := map_word_inj (fun n inside n' inside' => numberText_inj fun x y isFloat isFloat' =>
        faithful x y (legible.2 n inside (.float x) (by simp [isFloat, NumberLiteral.atoms]))
          (legible'.2 n' inside' (.float y) (by simp [isFloat', NumberLiteral.atoms]))) same
      rw [all]
      rfl
    | _ => cases kind
  | .charArray elements _ => .of_kind fun e' kind _ _ same => by
    cases e' with
    | charArray elements' _ =>
      simp only [tree, Tree.list.injEq, List.cons.injEq, true_and] at same
      rw [map_word_inj (fun _ _ _ _ => charText_inj) same]
      rfl
    | _ => cases kind
  | .strArray elements _ => .of_kind fun e' kind _ _ same => by
    cases e' with
    | strArray elements' _ =>
      simp only [tree, Tree.list.injEq, List.cons.injEq, true_and] at same
      rw [map_word_inj (fun _ _ _ _ => Text.quoteString_inj) same]
      rfl
    | _ => cases kind
  | .identifier name _ => .of_kind fun e' kind _ _ same => by
    cases e' with
    | identifier name' _ =>
      simp only [unwrapped, bare, Identifier.bare_eq (Tree.word.inj same)]
    | _ => cases kind
  | .index array position _ => .of_kind fun e' kind legible legible' same => by
    cases e' with
    | index array' position' _ =>
      simp only [tree, Tree.list.injEq, List.cons.injEq, Tree.word.injEq, and_true,
        true_and] at same
      rw [atoms, List.forall_mem_cons] at legible legible'
      simp only [unwrapped, bare, Identifier.bare_eq same.1,
        position.determined faithful position' legible.2 legible'.2 same.2]
    | _ => cases kind
  | .fieldAccess record field _ => .of_kind fun e' kind _ _ same => by
    cases e' with
    | fieldAccess record' field' _ =>
      simp only [tree, Tree.list.injEq, List.cons.injEq, Tree.word.injEq, and_true,
        true_and] at same
      simp only [unwrapped, bare, Identifier.bare_eq same.1, Identifier.bare_eq same.2]
    | _ => cases kind
  | .call name arguments _ => .of_kind fun e' kind legible legible' same => by
    cases e' with
    | call name' arguments' _ =>
      simp only [tree, Tree.list.injEq, List.cons.injEq, Tree.word.injEq, true_and] at same
      rw [atoms, List.forall_mem_cons] at legible legible'
      simp only [unwrapped, bare, Identifier.bare_eq same.1,
        listDetermined faithful arguments arguments' legible.2 legible'.2 same.2]
    | _ => cases kind
  | .unary operator operand _ => .of_kind fun e' kind legible legible' same => by
    cases e' with
    | unary operator' operand' _ =>
      simp only [tree, Tree.list.injEq, List.cons.injEq, Tree.word.injEq, and_true] at same
      simp only [unwrapped, bare, unarySymbol_inj same.1,
        operand.determined faithful operand' legible legible' same.2]
    | _ => cases kind
  | .binary operator left right _ => .of_kind fun e' kind legible legible' same => by
    cases e' with
    | binary operator' left' right' _ =>
      simp only [tree, Tree.list.injEq, List.cons.injEq, Tree.word.injEq, and_true] at same
      rw [atoms, List.forall_mem_append] at legible legible'
      simp only [unwrapped, bare, binarySymbol_inj same.1,
        left.determined faithful left' legible.1 legible'.1 same.2.1,
        right.determined faithful right' legible.2 legible'.2 same.2.2]
    | _ => cases kind

theorem Expression.listDetermined (faithful : Faithful F G) : (es es' : List Expression) →
    (∀ a ∈ listAtoms es, a.Legible F) → (∀ a ∈ listAtoms es', a.Legible G) →
    listTree es = listTree es' → listBare (listUnwrapped es) = listBare (listUnwrapped es')
  | [], [], _, _, _ => rfl
  | [], _ :: _, _, _, same => by cases same
  | _ :: _, [], _, _, same => by cases same
  | e :: es, e' :: es', legible, legible', same => by
    rw [listAtoms, List.forall_mem_append] at legible legible'
    obtain ⟨first, rest⟩ := List.cons.inj same
    simp only [listUnwrapped, listBare, e.determined faithful e' legible.1 legible'.1 first,
      listDetermined faithful es es' legible.2 legible'.2 rest]

end

theorem Expression.optionDetermined (faithful : Faithful F G) : (o o' : Option Expression) →
    (∀ a ∈ optionAtoms o, a.Legible F) → (∀ a ∈ optionAtoms o', a.Legible G) →
    optionTree o = optionTree o' → (o.map unwrapped).map bare = (o'.map unwrapped).map bare
  | none, none, _, _, _ => rfl
  | none, some _, _, _, same => by cases same
  | some _, none, _, _, same => by cases same
  | some e, some e', legible, legible', same =>
    congrArg some (e.determined faithful e' legible legible' (List.cons.inj same).1)

/-! ## Statements -/

/-- The statement can be told, but for places and parentheses, from the way it is written. -/
def Statement.Determined (F G : Float → Prop) (s : Statement) : Prop :=
  ∀ s' : Statement, (∀ a ∈ s.atoms, a.Legible F) → (∀ a ∈ s'.atoms, a.Legible G) →
    s.tree = s'.tree → s.unwrapped.bare = s'.unwrapped.bare

theorem Statement.Determined.of_kind {s : Statement}
    (told : ∀ s' : Statement, s.kind = s'.kind → (∀ a ∈ s.atoms, a.Legible F) →
      (∀ a ∈ s'.atoms, a.Legible G) → s.tree = s'.tree → s.unwrapped.bare = s'.unwrapped.bare) :
    s.Determined F G := by
  intro s' legible legible' same
  refine told s' ?_ legible legible' same
  rw [← s.statementKind_tree legible, same, s'.statementKind_tree legible']

/-- No tree of a branch comes first. -/
def Listing.NoBranch (ts : List Tree) : Prop := ∀ t ∈ ts.head?, ∀ us, t ≠ .list (.word "branch" :: us)

theorem Listing.noBranch_elseTree (otherwise : Option Block) : NoBranch (Block.elseTree otherwise) := by
  cases otherwise with
  | none => nofun
  | some otherwise =>
    rintro _ ⟨⟩ us same
    simp at same

mutual

theorem Statement.determined (faithful : Faithful F G) : (s : Statement) → s.Determined F G
  | .variable type name initializer _ => .of_kind fun s' kind legible legible' same => by
    cases s' with
    | «variable» type' name' initializer' _ =>
      simp only [Statement.tree, Tree.list.injEq, List.cons.injEq, Tree.word.injEq,
        true_and] at same
      rw [Statement.atoms, List.forall_mem_cons] at legible legible'
      simp only [Statement.unwrapped, Statement.bare, typeText_inj same.1,
        Identifier.bare_eq same.2.1,
        Expression.optionDetermined faithful initializer initializer' legible.2 legible'.2 same.2.2]
    | _ => cases kind
  | .assignment name value _ => .of_kind fun s' kind legible legible' same => by
    cases s' with
    | assignment name' value' _ =>
      simp only [Statement.tree, Tree.list.injEq, List.cons.injEq, Tree.word.injEq, and_true,
        true_and] at same
      rw [Statement.atoms, List.forall_mem_cons] at legible legible'
      simp only [Statement.unwrapped, Statement.bare, Identifier.bare_eq same.1,
        value.determined faithful value' legible.2 legible'.2 same.2]
    | _ => cases kind
  | .fieldAssignment record field value _ =>
    .of_kind fun s' kind legible legible' same => by
    cases s' with
    | fieldAssignment record' field' value' _ =>
      simp only [Statement.tree, Tree.list.injEq, List.cons.injEq, Tree.word.injEq, and_true,
        true_and] at same
      rw [Statement.atoms, List.forall_mem_cons, List.forall_mem_cons] at legible legible'
      obtain ⟨records, fields⟩ := pointed_inj legible.1 legible'.1 same.1
      simp only [Statement.unwrapped, Statement.bare, Identifier.bare_eq records,
        Identifier.bare_eq fields,
        value.determined faithful value' legible.2.2 legible'.2.2 same.2]
    | _ => cases kind
  | .function name parameters returnType body _ =>
    .of_kind fun s' kind legible legible' same => by
    cases s' with
    | function name' parameters' returnType' body' _ =>
      simp only [Statement.tree, Tree.list.injEq, List.cons.injEq, Tree.word.injEq, and_true,
        true_and] at same
      rw [Statement.atoms, List.forall_mem_cons, List.forall_mem_append] at legible legible'
      obtain ⟨named, declared, returned, bodies⟩ := same
      simp only [Statement.unwrapped, Statement.bare, Identifier.bare_eq named,
        map_declarator_inj declared,
        returnTypeText_inj returned, body.determined faithful body' legible.2.2 legible'.2.2 bodies]
    | _ => cases kind
  | .block body _ => .of_kind fun s' kind legible legible' same => by
    cases s' with
    | block body' _ =>
      simp only [Statement.unwrapped, Statement.bare,
        body.determined faithful body' legible legible' same]
    | _ => cases kind
  | .conditional branches otherwise _ => .of_kind fun s' kind legible legible' same => by
    cases s' with
    | conditional branches' otherwise' _ =>
      simp only [Statement.tree_conditional, Tree.list.injEq, List.cons.injEq, true_and] at same
      rw [Statement.atoms_conditional, List.forall_mem_append] at legible legible'
      obtain ⟨taken, last⟩ := Branch.listDetermined faithful branches branches' (noBranch_elseTree _)
        (noBranch_elseTree _) legible.1 legible'.1 same
      simp only [Statement.unwrapped_conditional, Statement.bare_conditional, taken,
        Block.optionDetermined faithful otherwise otherwise' legible.2 legible'.2 last]
    | _ => cases kind
  | .while condition body _ => .of_kind fun s' kind legible legible' same => by
    cases s' with
    | «while» condition' body' _ =>
      simp only [Statement.tree, Tree.list.injEq, List.cons.injEq, and_true, true_and] at same
      rw [Statement.atoms, List.forall_mem_append] at legible legible'
      simp only [Statement.unwrapped, Statement.bare,
        condition.determined faithful condition' legible.1 legible'.1 same.1,
        body.determined faithful body' legible.2 legible'.2 same.2]
    | _ => cases kind
  | .break _ => .of_kind fun s' kind _ _ _ => by
    cases s' with
    | «break» => rfl
    | _ => cases kind
  | .continue _ => .of_kind fun s' kind _ _ _ => by
    cases s' with
    | «continue» => rfl
    | _ => cases kind
  | .return value _ => .of_kind fun s' kind legible legible' same => by
    cases s' with
    | «return» value' _ =>
      simp only [Statement.tree, Tree.list.injEq, List.cons.injEq, true_and] at same
      simp only [Statement.unwrapped, Statement.bare,
        Expression.optionDetermined faithful value value' legible legible' same]
    | _ => cases kind
  | .print value _ => .of_kind fun s' kind legible legible' same => by
    cases s' with
    | print value' _ =>
      simp only [Statement.tree, Tree.list.injEq, List.cons.injEq, and_true, true_and] at same
      simp only [Statement.unwrapped, Statement.bare,
        value.determined faithful value' legible legible' same]
    | _ => cases kind
  | .attempt guarded recovery _ => .of_kind fun s' kind legible legible' same => by
    cases s' with
    | attempt guarded' recovery' _ =>
      simp only [Statement.tree, Tree.list.injEq, List.cons.injEq, and_true, true_and] at same
      rw [Statement.atoms, List.forall_mem_append] at legible legible'
      simp only [Statement.unwrapped, Statement.bare,
        guarded.determined faithful guarded' legible.1 legible'.1 same.1,
        recovery.determined faithful recovery' legible.2 legible'.2 same.2]
    | _ => cases kind
  | .recordType name fields _ => .of_kind fun s' kind _ _ same => by
    cases s' with
    | recordType name' fields' _ =>
      simp only [Statement.tree, Tree.list.injEq, List.cons.injEq, Tree.word.injEq,
        true_and] at same
      simp only [Statement.unwrapped, Statement.bare, Identifier.bare_eq same.1,
        map_declarator_inj same.2]
    | _ => cases kind
  | .recordInstance type name _ => .of_kind fun s' kind _ _ same => by
    cases s' with
    | recordInstance type' name' _ =>
      simp only [Statement.tree, Tree.list.injEq, List.cons.injEq, Tree.word.injEq, and_true,
        true_and] at same
      simp only [Statement.unwrapped, Statement.bare, Identifier.bare_eq same.1,
        Identifier.bare_eq same.2]
    | _ => cases kind
  | .expression value _ => .of_kind fun s' kind legible legible' same => by
    cases s' with
    | expression value' _ =>
      simp only [Statement.unwrapped, Statement.bare,
        value.determined faithful value' legible legible' same]
    | _ => cases kind

theorem Statement.listDetermined (faithful : Faithful F G) : (ss ss' : List Statement) →
    (∀ a ∈ Statement.listAtoms ss, a.Legible F) → (∀ a ∈ Statement.listAtoms ss', a.Legible G) →
    Statement.listTree ss = Statement.listTree ss' →
    Statement.listBare (Statement.listUnwrapped ss) = Statement.listBare (Statement.listUnwrapped ss')
  | [], [], _, _, _ => rfl
  | [], _ :: _, _, _, same => by cases same
  | _ :: _, [], _, _, same => by cases same
  | s :: ss, s' :: ss', legible, legible', same => by
    rw [Statement.listAtoms, List.forall_mem_append] at legible legible'
    obtain ⟨first, rest⟩ := List.cons.inj same
    simp only [Statement.listUnwrapped, Statement.listBare,
      s.determined faithful s' legible.1 legible'.1 first,
      Statement.listDetermined faithful ss ss' legible.2 legible'.2 rest]

theorem Block.determined (faithful : Faithful F G) : (b b' : Block) →
    (∀ a ∈ b.atoms, a.Legible F) → (∀ a ∈ b'.atoms, a.Legible G) → b.tree = b'.tree →
    b.unwrapped.bare = b'.unwrapped.bare
  | .mk statements _, .mk statements' _, legible, legible', same => by
    simp only [Block.tree, Tree.list.injEq, List.cons.injEq, true_and] at same
    simp only [Block.unwrapped, Block.bare,
      Statement.listDetermined faithful statements statements' legible legible' same]

theorem Block.optionDetermined (faithful : Faithful F G) : (o o' : Option Block) →
    (∀ a ∈ Block.optionAtoms o, a.Legible F) → (∀ a ∈ Block.optionAtoms o', a.Legible G) →
    Block.elseTree o = Block.elseTree o' →
    (o.map Block.unwrapped).map Block.bare = (o'.map Block.unwrapped).map Block.bare
  | none, none, _, _, _ => rfl
  | none, some _, _, _, same => by cases same
  | some _, none, _, _, same => by cases same
  | some b, some b', legible, legible', same => by
    simp only [Block.elseTree, Tree.list.injEq, List.cons.injEq, and_true, true_and] at same
    exact congrArg some (b.determined faithful b' legible legible' same)

theorem Branch.listDetermined (faithful : Faithful F G) : (bs bs' : List Branch) →
    {ts ts' : List Tree} → NoBranch ts → NoBranch ts' →
    (∀ a ∈ Branch.listAtoms bs, a.Legible F) → (∀ a ∈ Branch.listAtoms bs', a.Legible G) →
    Branch.listTree bs ++ ts = Branch.listTree bs' ++ ts' →
    Branch.listBare (Branch.listUnwrapped bs) = Branch.listBare (Branch.listUnwrapped bs') ∧ ts = ts'
  | [], [], _, _, _, _, _, _, same => ⟨rfl, same⟩
  | [], .mk .. :: _, _, _, other, _, _, _, same => by
    rw [Branch.listTree, Branch.listTree, List.nil_append] at same
    exact absurd rfl (other _ (by rw [same]; rfl) _)
  | .mk .. :: _, [], _, _, _, other, _, _, same => by
    rw [Branch.listTree, Branch.listTree, List.nil_append] at same
    exact absurd rfl (other _ (by rw [← same]; rfl) _)
  | .mk condition body _ :: bs, .mk condition' body' _ :: bs', _, _, other, other', legible,
      legible', same => by
    simp only [Branch.listTree, List.cons_append, List.cons.injEq, Tree.list.injEq, and_true,
      true_and] at same
    simp only [Branch.listAtoms, List.forall_mem_append] at legible legible'
    obtain ⟨⟨tested, taken⟩, rest⟩ := same
    obtain ⟨later, last⟩ :=
      Branch.listDetermined faithful bs bs' other other' legible.2 legible'.2 rest
    refine ⟨?_, last⟩
    simp only [Branch.listUnwrapped, Branch.listBare, later,
      condition.determined faithful condition' legible.1.1 legible'.1.1 tested,
      body.determined faithful body' legible.1.2 legible'.1.2 taken]

end

end

/-! ## Programs -/

theorem Parsing.AllLegible.within {atoms : List Atom} {allowed : Float → Prop}
    (legible : AllLegible atoms) (floats : ∀ x, .float x ∈ atoms → allowed x) :
    ∀ a ∈ atoms, a.Legible allowed := by
  intro a inside
  cases a with
  | name text => exact legible _ inside
  | float x => exact floats x inside
  | array size => exact legible _ inside

/-- The listing of a program that was read loses nothing but spans and parentheses: programs with the
same listing are the same without them, if the floats of their literals have texts that tell them
apart. -/
theorem Listing.programText_determines {source source' : String} {program program' : Program}
    (parsed : Parsing.parseProgram source = .ok program)
    (parsed' : Parsing.parseProgram source' = .ok program')
    (faithful : ∀ x ∈ program.floats, ∀ y ∈ program'.floats,
      Decimal.general x = Decimal.general y → x = y)
    (same : programText program = programText program') :
    program.unwrapped.bare = program'.unwrapped.bare := by
  have legible := (Parsing.legible_of_parseProgram parsed).within fun _ => Program.mem_floats.mpr
  have legible' := (Parsing.legible_of_parseProgram parsed').within fun _ => Program.mem_floats.mpr
  have reads := reads_programText legible'
  rw [← same] at reads
  have trees := (reads_programText legible).unique reads
  have statements := Statement.listDetermined (fun x y here there => faithful x here y there)
    program.statements program'.statements legible legible' (List.cons.inj (Tree.list.inj trees)).2
  simp only [Program.unwrapped, Program.bare, statements]

/-- Parentheses and comments around the same call. -/
theorem Listing.programText_determines_call :
    let source := "print f((1.5 + x), \"( \\\" )\");"
    let source' := "print f(1.5 + (x), // the same\n  \"( \\\" )\");"
    ∃ program program', Parsing.parseProgram source = .ok program ∧
      Parsing.parseProgram source' = .ok program' ∧
      (∀ x ∈ program.floats, ∀ y ∈ program'.floats,
        Decimal.general x = Decimal.general y → x = y) ∧
      programText program = programText program' ∧
      program.unwrapped.bare = program'.unwrapped.bare := by
  intro source source'
  have floats : (Parsing.parseProgram source).toOption.map Program.floats =
      some [Float.ofScientific 15 true 1] := by decide +kernel
  have floats' : (Parsing.parseProgram source').toOption.map Program.floats =
      some [Float.ofScientific 15 true 1] := by decide +kernel
  have texts : (Parsing.parseProgram source).toOption.map programText =
      (Parsing.parseProgram source').toOption.map programText := by decide +kernel
  cases parsed : Parsing.parseProgram source with
  | error =>
    rw [parsed] at floats
    cases floats
  | ok program =>
    cases parsed' : Parsing.parseProgram source' with
    | error =>
      rw [parsed'] at floats'
      cases floats'
    | ok program' =>
      rw [parsed] at floats texts
      rw [parsed'] at floats' texts
      have faithful : ∀ x ∈ program.floats, ∀ y ∈ program'.floats,
          Decimal.general x = Decimal.general y → x = y := by
        rw [Option.some.inj floats, Option.some.inj floats']
        intro x inside y inside' _
        rw [List.mem_singleton.mp inside, List.mem_singleton.mp inside']
      have same := Option.some.inj texts
      exact ⟨program, program', rfl, rfl, faithful, same,
        programText_determines parsed parsed' faithful same⟩

end CheckedScript
