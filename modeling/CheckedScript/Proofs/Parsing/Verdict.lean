import CheckedScript.Proofs.Parsing.Faults

/-!
# Whether a text parses

A text that the grammar does not read is refused for that. Of one that it reads the tree is built
unless a literal in it is bad, and then the error is that of the leftmost bad literal
(`parse_verdict`).
-/

namespace CheckedScript

namespace Grammar

/-- The literals of nodes that stand in a text are listed from left to right. -/
theorem Stretches.literals {a b : Cursor} {nodes : List Node} (placed : Stretches a b nodes) :
    (∀ n ∈ Node.listLiterals nodes, a.offset ≤ n.start.offset ∧ n.stop.offset ≤ b.offset) ∧
      (Node.listLiterals nodes).Pairwise fun m n => m.stop.offset ≤ n.start.offset := by
  induction a, b, nodes using Stretches.induct with
  | case1 a b => exact ⟨List.forall_mem_nil _, .nil⟩
  | case2 a b rule start stop children rest inner next =>
    rw [Stretches] at placed
    obtain ⟨first, inside, behind⟩ := placed
    have before := first.offset_le
    have through := inside.leadsTo.offset_le
    have after := behind.leadsTo.offset_le
    have own : (∀ n ∈ (Node.mk rule start stop children).literals,
        start.offset ≤ n.start.offset ∧ n.stop.offset ≤ stop.offset) ∧
          (Node.mk rule start stop children).literals.Pairwise
            fun m n => m.stop.offset ≤ n.start.offset := by
      rw [Node.literals]
      split
      · exact ⟨List.forall_mem_singleton.mpr ⟨Nat.le_refl _, Nat.le_refl _⟩,
          List.pairwise_singleton ..⟩
      · exact inner inside
    have others := next behind
    rw [Node.listLiterals, List.forall_mem_append, List.pairwise_append]
    refine ⟨⟨fun n listed => ?_, fun n listed => ?_⟩, own.2, others.2, fun m here n there => ?_⟩
    · have within := own.1 n listed
      omega
    · have within := others.1 n listed
      omega
    · exact Nat.le_trans (own.1 m here).2 (others.1 n there).1

end Grammar

namespace Parsing

open Grammar

/-- What comes of a text that is to match a rule. -/
inductive Verdict {α : Type} (rule : Rule) (text : List Char) : Except ParseError α → Prop
  /-- The text does not match the grammar. -/
  | mismatch {place : Position} {expected : List String} :
      (∀ r, ¬ Reads rule text r) → Verdict rule text (.error (.mismatch place expected))
  /-- It matches, and all literals have a value. -/
  | tree {r : Reading} {a : α} :
      Reads rule text r → (∀ n ∈ Node.listLiterals r.nodes, ¬ n.IsBad) → Verdict rule text (.ok a)
  /-- It matches, and this literal is the leftmost one that has none. -/
  | fault {r : Reading} {n : Node} {e : ParseError} :
      Reads rule text r → n ∈ Node.listLiterals r.nodes → n.IsBad →
      (∀ m ∈ Node.listLiterals r.nodes, m.IsBad → m = n ∨ n.stop.offset ≤ m.start.offset) →
      n.Causes e → Verdict rule text (.error e)

theorem verdict_of_settles {α : Type} {rule : Rule} {text : List Char} {r : Reading}
    {read : Except ParseError α} (reads : Reads rule text r)
    (placed : Stretches (.ofText text) r.rest r.nodes) (settles : Settles (listFault r.nodes) read) :
    Verdict rule text read := by
  cases known : listFault r.nodes with
  | none =>
    rw [known] at settles
    obtain ⟨a, rfl⟩ := settles
    refine .tree reads fun n listed => literalFault_eq_none_iff.mp ?_
    exact List.findSome?_eq_none_iff.mp known n listed
  | some e =>
    rw [known] at settles
    cases (settles : read = .error e)
    obtain ⟨before, n, after, listed, found, solid⟩ := List.findSome?_eq_some_iff.mp known
    have ordered := placed.literals.2
    rw [listed, List.pairwise_append, List.pairwise_cons] at ordered
    have bad : n.IsBad := by
      refine Classical.byContradiction fun good => ?_
      rw [literalFault_eq_none_iff.mpr good] at found
      cases found
    refine .fault reads (by rw [listed]; simp) bad (fun m member bad' => ?_) (causes_of_literalFault found)
    rw [listed, List.mem_append, List.mem_cons] at member
    rcases member with early | rfl | late
    · exact absurd bad' (literalFault_eq_none_iff.mp (solid m early))
    · exact .inl rfl
    · exact .inr (ordered.2.1.1 m late)

/-- A rule that reads a text leaves one node, which is found by the matcher. -/
theorem readText_cases (rule : Rule) (text : List Char) :
    (∃ n r, Reads rule text r ∧ r.nodes = [n] ∧ n.rule = rule ∧ n.IsMatch ∧
      Stretches (.ofText text) r.rest r.nodes ∧ readText rule text = .ok n) ∨
      (∀ r, ¬ Reads rule text r) ∧
        ∃ place expected, readText rule text = .error (.mismatch place expected) := by
  rcases matchText_cases rule text with ⟨r, attempts, reads, found⟩ | ⟨attempts, none, found⟩
  · obtain ⟨n, listed, named, isMatch⟩ := Derives.leaves reads nofun r rfl
    refine .inl ⟨n, r, reads, listed, named, isMatch, stretches_matchText found, ?_⟩
    rw [readText, found, listed]
  · refine .inr ⟨none, ?_⟩
    rw [readText, found]
    exact ⟨_, _, rfl⟩

/-- What a text that is read ends with, behind the nodes that a rule asks for. -/
theorem leaves_upToEnd {first : Pattern} {children : List Node}
    (leaves : (Pattern.nothing ++ first ++ Pattern.rule .endOfInput).Leaves children) :
    ∃ front last, children = front ++ [last] ∧ first.Leaves front ∧ last.rule = .endOfInput ∧
      nodeFault last = none := by
  obtain ⟨_, _, rfl, ⟨_, front, rfl, rfl, leaves⟩, ⟨last, rfl, named, isEnd⟩⟩ := leaves
  refine ⟨front, last, rfl, leaves, named, ?_⟩
  obtain ⟨rule, start, stop, children⟩ := last
  obtain rfl : rule = .endOfInput := named
  have bare : children = [] := isEnd.leaves nofun
  rw [nodeFault_of_not rfl, bare]
  rfl

/-- The nodes of a program are its statements and the end of the input. -/
theorem statements_of_program {start stop : Cursor} {children : List Node}
    (isMatch : (Node.mk .program start stop children).IsMatch) :
    ∃ statements last, children = statements ++ [last] ∧
      children.filter (·.rule ≠ .endOfInput) = statements ∧
      (∀ n ∈ statements, n.rule.isStatement = true ∧ n.IsMatch) ∧ nodeFault last = none := by
  obtain ⟨statements, last, rfl, leaves, ended, solid⟩ := leaves_upToEnd (isMatch.leaves nofun)
  have all := leaves_statements leaves
  refine ⟨statements, last, rfl, ?_, all, solid⟩
  rw [List.filter_append, List.filter_eq_self.mpr fun n here => ?_, List.filter_cons_of_neg]
  · exact List.append_nil _
  · simp [ended]
  · have isStatement := (all n here).1
    rw [decide_eq_true_iff]
    intro same
    rw [same] at isStatement
    cases isStatement

theorem verdict_parseProgram (source : String) :
    Verdict .program source.toList (parseProgram source) := by
  rcases readText_cases .program source.toList with
    ⟨⟨rule, start, stop, children⟩, r, reads, listed, named, isMatch, placed, found⟩ |
    ⟨none, place, expected, found⟩
  · obtain rfl : rule = .program := named
    refine verdict_of_settles reads placed ?_
    obtain ⟨statements, last, shape, kept, all, solid⟩ := statements_of_program isMatch
    have faults : listFault r.nodes = listFault statements := by
      rw [listed, listFault_cons, nodeFault_of_not rfl, shape, listFault_append, listFault_cons, solid]
      simp [listFault, Node.listLiterals]
    rw [parseProgram, found, faults]
    dsimp only [bind, Except.bind, Node.children]
    rw [kept]
    exact (settles_readStatements statements all).bind_pure _
  · rw [parseProgram, found]
    exact .mismatch none

theorem verdict_parseExpression (source : String) :
    Verdict .expressionInput source.toList (parseExpression source) := by
  rcases readText_cases .expressionInput source.toList with
    ⟨⟨rule, start, stop, children⟩, r, reads, listed, named, isMatch, placed, found⟩ |
    ⟨none, place, expected, found⟩
  · obtain rfl : rule = .expressionInput := named
    refine verdict_of_settles reads placed ?_
    obtain ⟨_, last, rfl, ⟨value, rfl, isValue⟩, ended, solid⟩ := leaves_upToEnd (isMatch.leaves nofun)
    have faults : listFault r.nodes = nodeFault value := by
      rw [listed, listFault_cons, nodeFault_of_not rfl, listFault_append, listFault_cons,
        listFault_cons, solid]
      simp [listFault, Node.listLiterals]
    rw [parseExpression, found, faults]
    exact settles_readExpression value isValue.1 isValue.2
  · rw [parseExpression, found]
    exact .mismatch none

/-- A text parses, or it does not match the grammar, or it does and some literal in it is bad: then
the error is that of the leftmost one. -/
theorem parse_verdict (source : String) :
    Verdict .program source.toList (parseProgram source) ∧
      Verdict .expressionInput source.toList (parseExpression source) :=
  ⟨verdict_parseProgram source, verdict_parseExpression source⟩

end Parsing

end CheckedScript
