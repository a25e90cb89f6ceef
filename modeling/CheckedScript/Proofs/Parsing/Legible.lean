import CheckedScript.Proofs.Ast.Atoms
import CheckedScript.Proofs.Parsing.Verdict

/-!
# What was read is legible

The names of every program that was read are words, and its array literals have elements
(`legible_of_parseProgram`).
-/

namespace CheckedScript

/-! ## The atoms of a flat expression -/

namespace ExpressionPart

def atoms : ExpressionPart → List Atom
  | operand value => value.atoms
  | unary _ _ | binary _ => []

theorem atoms_unplaced (part : ExpressionPart) : part.unplaced.atoms = part.atoms := by
  cases part <;> rfl

end ExpressionPart

theorem Expression.flatMap_atoms_parts (e : Expression) :
    e.parts.flatMap ExpressionPart.atoms = e.atoms := by
  induction e using Expression.parts.induct with
  | case1 operator operand span ih =>
    rw [parts, List.flatMap_cons, ih, atoms]
    rfl
  | case2 operator left right span ihLeft ihRight =>
    rw [parts, List.flatMap_append, List.flatMap_cons, ihLeft, ihRight, atoms]
    rfl
  | case3 e noUnary noBinary =>
    rw [(isPrimary_of_ne noUnary noBinary).parts, List.flatMap_singleton, ExpressionPart.atoms]

/-- Grouping a flat expression keeps its atoms. -/
theorem Expression.IsTreeOf.atoms {tree : Expression} {parts : List ExpressionPart}
    (isTree : tree.IsTreeOf parts) : tree.atoms = parts.flatMap ExpressionPart.atoms := by
  rw [← tree.flatMap_atoms_parts, isTree.parts_eq, List.flatMap_map]
  simp only [ExpressionPart.atoms_unplaced]

namespace Parsing

open Grammar

/-- All names are words, and no array literal is empty. -/
def AllLegible (atoms : List Atom) : Prop := ∀ a ∈ atoms, a.Legible fun _ => True

/-- What is read, if anything, is legible. -/
def Legibly {α : Type} (read : Except ParseError α) (atoms : α → List Atom) : Prop :=
  ∀ a, read = .ok a → AllLegible (atoms a)

theorem allLegible_nil : AllLegible [] := List.forall_mem_nil _

theorem allLegible_cons {a : Atom} {atoms : List Atom} :
    AllLegible (a :: atoms) ↔ a.Legible (fun _ => True) ∧ AllLegible atoms := List.forall_mem_cons

theorem allLegible_append {atoms more : List Atom} :
    AllLegible (atoms ++ more) ↔ AllLegible atoms ∧ AllLegible more := List.forall_mem_append

/-! ## Names and array literals -/

theorem legible_readIdentifier {n : Node} {name : Identifier} (isMatch : n.IsMatch)
    (read : readIdentifier n = .ok name) : (Atom.name name.name).Legible fun _ => True := by
  obtain ⟨named, rfl⟩ := readIdentifier_eq_ok_iff.mp read
  obtain ⟨rule, start, stop, children⟩ := n
  obtain rfl : rule = .identifier := named
  obtain ⟨word, scanned, -, -, covers⟩ := isMatch.of_sealed rfl
  obtain ⟨⟨opens, -⟩, ⟨⟩⟩ := Option.ite_none_right_eq_some.mp scanned
  rw [Atom.Legible, Node.text, covers, String.toList_ofList]
  refine ⟨?_, List.all_eq_true.mp List.all_takeWhile⟩
  cases known : start.rest with
  | nil =>
    rw [known] at opens
    cases opens
  | cons c rest =>
    rw [known, List.head?_cons, Option.any_some] at opens
    rw [Grammar.wordOf, List.takeWhile_cons_of_pos (isWordChar_of_isWordStart opens)]
    exact List.cons_ne_nil _ _

theorem length_of_mapM {α β ε : Type} {f : α → Except ε β} {l : List α} {values : List β}
    (read : l.mapM f = .ok values) : values.length = l.length := by
  induction l generalizing values with
  | nil =>
    cases read
    rfl
  | cons a l ih =>
    obtain ⟨value, more, -, known, rfl⟩ := mapM_cons_eq_ok_iff.mp read
    rw [List.length_cons, List.length_cons, ih known]

theorem ne_nil_of_array {name : Rule} {children : List Node}
    (leaves : (Pattern.word "[" ++ Pattern.commaSeparated (.rule name) ++ Pattern.word "]").Leaves
      children) : children ≠ [] := by
  obtain ⟨_, _, rfl, ⟨_, _, rfl, rfl, _, _, rfl, ⟨first, rfl, -⟩, -⟩, rfl⟩ := leaves
  simp

/-- An array literal that is read has the elements of its node. -/
theorem legible_array {name : Rule} {children : List Node} {α : Type}
    {read : Node → Except ParseError α} {elements : List α}
    (leaves : (Pattern.word "[" ++ Pattern.commaSeparated (.rule name) ++ Pattern.word "]").Leaves
      children) (known : children.mapM read = .ok elements) :
    (Atom.array elements.length).Legible fun _ => True := by
  rw [Atom.Legible, length_of_mapM known]
  exact mt List.length_eq_zero_iff.mp (ne_nil_of_array leaves)

theorem allLegible_numbers (elements : List NumberLiteral) :
    AllLegible (elements.flatMap NumberLiteral.atoms) := by
  refine List.forall_mem_flatMap.mpr fun n _ => ?_
  cases n with
  | int => exact allLegible_nil
  | float => exact List.forall_mem_singleton.mpr trivial

/-! ## Expressions -/

mutual

theorem legible_readExpression :
    (n : Node) → n.IsMatch → Legibly (readExpression n) Expression.atoms
  | .mk rule start stop children => by
    intro isMatch e read
    obtain ⟨rfl, parts, known, grouped⟩ := readExpression_eq_ok_iff.mp read
    obtain ⟨tree, built, isTree⟩ :=
      ExpressionPart.group_of_isFlat (isFlat_of_isMatch isMatch known)
    obtain rfl : tree = e := Option.some.inj (built.symm.trans grouped)
    rw [isTree.atoms]
    exact legible_readParts _ isMatch.of_child _ known

theorem legible_readParts : (nodes : List Node) → (∀ n ∈ nodes, n.IsMatch) →
    Legibly (readParts nodes) fun parts => parts.flatMap ExpressionPart.atoms
  | [] => by
    intro _ parts read
    rw [readParts] at read
    cases read
    exact allLegible_nil
  | .mk rule start stop children :: rest => by
    intro all parts read
    rw [List.forall_mem_cons] at all
    obtain ⟨part, more, known, known', rfl⟩ := readParts_cons_eq_ok_iff.mp read
    have later := legible_readParts rest all.2 _ known'
    refine allLegible_append.mpr ⟨?_, later⟩
    rcases readPart_cases known with ⟨_, -, rfl⟩ | ⟨_, -, rfl⟩ | ⟨value, readValue, rfl⟩
    · exact allLegible_nil
    · exact allLegible_nil
    · exact legible_readPrimary _ all.1 _ readValue

theorem legible_readPrimary : (n : Node) → n.IsMatch → Legibly (readPrimary n) Expression.atoms
  | .mk rule start stop children => by
    intro isMatch e read
    have inside := isMatch.of_child
    cases readPrimary_form read with
    | integer | str | char | boolean => exact allLegible_nil
    | float => exact allLegible_cons.mpr ⟨trivial, allLegible_nil⟩
    | numberArray readAll =>
      exact allLegible_cons.mpr
        ⟨legible_array (isMatch.leaves nofun) readAll, allLegible_numbers _⟩
    | charArray readAll | strArray readAll =>
      exact allLegible_cons.mpr ⟨legible_array (isMatch.leaves nofun) readAll, allLegible_nil⟩
    | identifier readName =>
      exact allLegible_cons.mpr ⟨legible_readIdentifier isMatch readName, allLegible_nil⟩
    | plainCall readName =>
      rw [List.forall_mem_cons] at inside
      exact allLegible_cons.mpr ⟨legible_readIdentifier inside.1 readName, allLegible_nil⟩
    | call readName readAll =>
      simp only [List.forall_mem_cons] at inside
      exact allLegible_cons.mpr ⟨legible_readIdentifier inside.1 readName,
        legible_readArguments _ inside.2.1.of_child _ readAll⟩
    | index readName readIndex =>
      simp only [List.forall_mem_cons] at inside
      exact allLegible_cons.mpr ⟨legible_readIdentifier inside.1 readName,
        legible_readExpression _ inside.2.1 _ readIndex⟩
    | fieldAccess readName readField =>
      simp only [List.forall_mem_cons] at inside
      exact allLegible_cons.mpr ⟨legible_readIdentifier inside.1 readName,
        allLegible_cons.mpr ⟨legible_readIdentifier inside.2.1 readField, allLegible_nil⟩⟩
    | @parenthesized _ value readInner =>
      rw [List.forall_mem_cons] at inside
      exact legible_readExpression _ inside.1 value readInner

theorem legible_readArguments : (nodes : List Node) → (∀ n ∈ nodes, n.IsMatch) →
    Legibly (readArguments nodes) Expression.listAtoms
  | [] => by
    intro _ arguments read
    rw [readArguments] at read
    cases read
    exact allLegible_nil
  | n :: rest => by
    intro all arguments read
    obtain ⟨value, more, known, known', rfl⟩ := readArguments_cons_eq_ok_iff.mp read
    rw [List.forall_mem_cons] at all
    rw [Expression.listAtoms, allLegible_append]
    exact ⟨legible_readExpression _ all.1 _ known, legible_readArguments _ all.2 _ known'⟩

end

/-! ## Statements -/

theorem legible_readDeclarator {n : Node} {d : Declarator} (isMatch : n.IsMatch)
    (read : readDeclarator n = .ok d) : d.atom.Legible fun _ => True := by
  obtain ⟨rule, start, stop, children⟩ := n
  obtain ⟨type, name, rfl, -, readName⟩ := readDeclarator_eq_ok_iff.mp read
  have inside := isMatch.of_child
  simp only [List.forall_mem_cons] at inside
  exact legible_readIdentifier inside.2.1 readName

theorem legible_declarators {nodes : List Node} (all : ∀ n ∈ nodes, n.IsMatch) :
    Legibly (nodes.mapM readDeclarator) fun ds => ds.map Declarator.atom := by
  induction nodes with
  | nil =>
    intro ds read
    cases read
    exact allLegible_nil
  | cons n rest ih =>
    intro ds read
    obtain ⟨d, more, known, known', rfl⟩ := mapM_cons_eq_ok_iff.mp read
    rw [List.forall_mem_cons] at all
    exact allLegible_cons.mpr ⟨legible_readDeclarator all.1 known, ih all.2 _ known'⟩

theorem legible_readParameters {signature : List Node} (all : ∀ n ∈ signature, n.IsMatch) :
    Legibly (readParameters signature) fun ds => ds.map Declarator.atom := by
  intro ds read
  unfold readParameters at read
  split at read
  · exact legible_declarators (all _ List.mem_cons_self).of_child _ read
  · cases read
    exact allLegible_nil

mutual

theorem legible_readStatement :
    (n : Node) → n.IsMatch → Legibly (readStatement n) Statement.atoms
  | .mk rule start stop children => by
    have expression := legible_readExpression
    intro isMatch statement read
    have inside := isMatch.of_child
    cases readStatement_form read with
    | declaration readType readName =>
      simp only [List.forall_mem_cons] at inside
      exact allLegible_cons.mpr ⟨legible_readIdentifier inside.2.1 readName, allLegible_nil⟩
    | initialization readType readName readValue =>
      simp only [List.forall_mem_cons] at inside
      exact allLegible_cons.mpr ⟨legible_readIdentifier inside.2.1 readName,
        expression _ inside.2.2.1 _ readValue⟩
    | assignment readName readValue =>
      simp only [List.forall_mem_cons] at inside
      exact allLegible_cons.mpr ⟨legible_readIdentifier inside.1 readName,
        expression _ inside.2.1 _ readValue⟩
    | fieldAssignment readName readField readValue =>
      simp only [List.forall_mem_cons] at inside
      exact allLegible_cons.mpr ⟨legible_readIdentifier inside.1 readName,
        allLegible_cons.mpr ⟨legible_readIdentifier inside.2.1 readField,
          expression _ inside.2.2.1 _ readValue⟩⟩
    | function readName readParameters readType readBody =>
      simp only [List.forall_mem_cons] at inside
      obtain ⟨-, given, signature⟩ := inside
      exact allLegible_cons.mpr ⟨legible_readIdentifier given readName,
        allLegible_append.mpr ⟨legible_readParameters signature _ readParameters,
          legible_readLastBlock _ signature _ readBody⟩⟩
    | block readAll => exact legible_readStatements _ inside _ readAll
    | conditional readTest readBody readMore =>
      simp only [List.forall_mem_cons] at inside
      obtain ⟨-, first, second, clauses⟩ := inside
      have later := allLegible_append.mp (legible_readClauses _ clauses _ readMore)
      rw [Statement.atoms_conditional, Branch.listAtoms]
      simp only [allLegible_append]
      exact ⟨⟨⟨expression _ first _ readTest, legible_readBlock _ second _ readBody⟩, later.1⟩,
        later.2⟩
    | «while» readTest readBody =>
      simp only [List.forall_mem_cons] at inside
      exact allLegible_append.mpr ⟨expression _ inside.2.1 _ readTest,
        legible_readBlock _ inside.2.2.1 _ readBody⟩
    | attempt readFirst readSecond =>
      simp only [List.forall_mem_cons] at inside
      exact allLegible_append.mpr ⟨legible_readBlock _ inside.2.1 _ readFirst,
        legible_readBlock _ inside.2.2.2.1 _ readSecond⟩
    | «break» | «continue» | plainReturn => exact allLegible_nil
    | «return» readValue | print readValue =>
      simp only [List.forall_mem_cons] at inside
      exact expression _ inside.2.1 _ readValue
    | recordType readName readAll =>
      simp only [List.forall_mem_cons] at inside
      exact allLegible_cons.mpr ⟨legible_readIdentifier inside.2.1 readName,
        legible_declarators inside.2.2 _ readAll⟩
    | recordInstance readType readName =>
      simp only [List.forall_mem_cons] at inside
      exact allLegible_cons.mpr ⟨legible_readIdentifier inside.1 readType,
        allLegible_cons.mpr ⟨legible_readIdentifier inside.2.1 readName, allLegible_nil⟩⟩
    | expression readValue =>
      rw [List.forall_mem_cons] at inside
      exact expression _ inside.1 _ readValue

theorem legible_readStatements : (nodes : List Node) → (∀ n ∈ nodes, n.IsMatch) →
    Legibly (readStatements nodes) Statement.listAtoms
  | [] => by
    intro _ statements read
    rw [readStatements] at read
    cases read
    exact allLegible_nil
  | n :: rest => by
    intro all statements read
    obtain ⟨statement, more, known, known', rfl⟩ := readStatements_cons_eq_ok_iff.mp read
    rw [List.forall_mem_cons] at all
    rw [Statement.listAtoms, allLegible_append]
    exact ⟨legible_readStatement _ all.1 _ known, legible_readStatements _ all.2 _ known'⟩

theorem legible_readBlock : (n : Node) → n.IsMatch → Legibly (readBlock n) Block.atoms
  | .mk rule start stop children => by
    intro isMatch body read
    obtain ⟨-, statements, known, rfl⟩ := readBlock_eq_ok_iff.mp read
    exact legible_readStatements _ isMatch.of_child _ known

theorem legible_readLastBlock : (nodes : List Node) → (∀ n ∈ nodes, n.IsMatch) →
    Legibly (readLastBlock nodes) Block.atoms
  | [] => by
    intro _ body read
    rw [readLastBlock] at read
    cases read
  | [n] => by
    intro all body read
    rw [readLastBlock] at read
    exact legible_readBlock n (all n List.mem_cons_self) _ read
  | _ :: n :: rest => by
    intro all body read
    rw [List.forall_mem_cons] at all
    rw [readLastBlock_cons (List.cons_ne_nil _ _)] at read
    exact legible_readLastBlock _ all.2 _ read

theorem legible_readClauses : (nodes : List Node) → (∀ n ∈ nodes, n.IsMatch) →
    Legibly (readClauses nodes) fun read => Branch.listAtoms read.1 ++ Block.optionAtoms read.2
  | [] => by
    intro _ clauses read
    cases readClauses_form read
    exact allLegible_nil
  | n :: rest => by
    intro all clauses read
    rw [List.forall_mem_cons] at all
    cases readClauses_form read with
    | last readBody =>
      have inside := all.1.of_child
      simp only [List.forall_mem_cons] at inside
      exact legible_readBlock _ inside.2.1 _ readBody
    | further readTest readBody readMore =>
      have inside := all.1.of_child
      simp only [List.forall_mem_cons] at inside
      obtain ⟨-, -, first, second, -⟩ := inside
      have later := allLegible_append.mp (legible_readClauses _ all.2 _ readMore)
      simp only [Branch.listAtoms, allLegible_append]
      exact ⟨⟨⟨legible_readExpression _ first _ readTest, legible_readBlock _ second _ readBody⟩,
        later.1⟩, later.2⟩

end

/-! ## Programs -/

theorem isMatch_of_readText {rule : Rule} {text : List Char} {n : Node}
    (read : readText rule text = .ok n) : n.IsMatch := by
  rcases readText_cases rule text with ⟨n', r, -, -, -, isMatch, -, found⟩ | ⟨-, _, _, found⟩
  · rwa [Except.ok.inj (found.symm.trans read)] at isMatch
  · cases found.symm.trans read

/-- Every program that was read is legible. -/
theorem legible_of_parseProgram {source : String} {program : Program}
    (parsed : parseProgram source = .ok program) : AllLegible program.atoms := by
  simp only [parseProgram, bind_eq_ok_iff, pure_eq_ok_iff] at parsed
  obtain ⟨n, matched, statements, known, rfl⟩ := parsed
  have inside : ∀ child ∈ n.children, child.IsMatch := by
    obtain ⟨rule, start, stop, children⟩ := n
    exact (isMatch_of_readText matched).of_child
  exact legible_readStatements _ (fun child kept => inside child (List.mem_filter.mp kept).1) _ known

end Parsing

end CheckedScript
