import CheckedScript.Proofs.Grammar.Progress

/-!
# The shape of concrete trees

Every node of a tree that was read records a match of its own rule (`Node.IsMatch`), and its children
come in the order in which the pattern of that rule names them (`Pattern.Leaves`). Readers of a tree
rely on both and never meet another shape.
-/

namespace CheckedScript.Grammar

/-- The node is what its rule reads at its place. -/
def Node.IsMatch (n : Node) : Prop :=
  ∃ spacing tokens, Derives spacing (.one (.rule n.rule)) n.start (some ⟨[n], tokens, n.stop⟩)

/-- The nodes that matches of a pattern leave, where they are kept. -/
def Pattern.Leaves : Pattern → List Node → Prop
  | text _, nodes | satisfying _, nodes | endOfText, nodes | absent _, nodes => nodes = []
  | rule name, nodes => ∃ n : Node, nodes = [n] ∧ n.rule = name ∧ n.IsMatch
  | seq first second, nodes =>
    ∃ front back, nodes = front ++ back ∧ first.Leaves front ∧ second.Leaves back
  | alt first second, nodes => first.Leaves nodes ∨ second.Leaves nodes
  | many item, nodes => ∃ groups : List (List Node), nodes = groups.flatten ∧ ∀ g ∈ groups, item.Leaves g
  | optional item, nodes => nodes = [] ∨ item.Leaves nodes

namespace Pattern

variable {first second item : Pattern} {nodes : List Node} {n : Node} {name : Rule}

@[simp] theorem leaves_text {characters : List Char} : (text characters).Leaves nodes ↔ nodes = [] :=
  Iff.rfl

@[simp] theorem leaves_word {s : String} : (word s).Leaves nodes ↔ nodes = [] := Iff.rfl

@[simp] theorem leaves_nothing : nothing.Leaves nodes ↔ nodes = [] := Iff.rfl

@[simp] theorem leaves_absent : (absent item).Leaves nodes ↔ nodes = [] := Iff.rfl

@[simp] theorem leaves_rule :
    (rule name).Leaves nodes ↔ ∃ n : Node, nodes = [n] ∧ n.rule = name ∧ n.IsMatch := Iff.rfl

@[simp] theorem leaves_append :
    (first ++ second).Leaves nodes ↔
      ∃ front back, nodes = front ++ back ∧ first.Leaves front ∧ second.Leaves back := Iff.rfl

@[simp] theorem leaves_orElse :
    (first <|> second).Leaves nodes ↔ first.Leaves nodes ∨ second.Leaves nodes := Iff.rfl

@[simp] theorem leaves_optional : (optional item).Leaves nodes ↔ nodes = [] ∨ item.Leaves nodes :=
  Iff.rfl

theorem leaves_many_cons {front : List Node} (here : item.Leaves front)
    (more : (many item).Leaves nodes) : (many item).Leaves (front ++ nodes) := by
  obtain ⟨groups, rfl, all⟩ := more
  exact ⟨front :: groups, rfl, List.forall_mem_cons.mpr ⟨here, all⟩⟩

/-- Repetitions of what leaves one node each leave a list of such nodes. -/
theorem leaves_many_of_single (single : ∀ nodes, item.Leaves nodes → ∃ n, nodes = [n])
    (leaves : (many item).Leaves nodes) : ∀ n ∈ nodes, item.Leaves [n] := by
  obtain ⟨groups, rfl, all⟩ := leaves
  intro n listed
  obtain ⟨g, member, inside⟩ := List.mem_flatten.mp listed
  obtain ⟨only, rfl⟩ := single g (all g member)
  rw [List.mem_singleton.mp inside]
  exact all _ member

theorem leaves_many_rule (leaves : (many (rule name)).Leaves nodes) :
    ∀ n ∈ nodes, n.rule = name ∧ n.IsMatch := by
  intro n listed
  have single : ∀ nodes, (rule name).Leaves nodes → ∃ n, nodes = [n] := by
    rintro _ ⟨n, rfl, -⟩
    exact ⟨n, rfl⟩
  obtain ⟨_, same, here⟩ := leaves_many_of_single single leaves n listed
  cases same
  exact here

theorem leaves_commaSeparated (leaves : (commaSeparated (rule name)).Leaves nodes) :
    ∀ n ∈ nodes, n.rule = name ∧ n.IsMatch := by
  obtain ⟨_, more, rfl, ⟨first, rfl, named, isMatch⟩, leaves⟩ := leaves
  have single : ∀ nodes, (word "," ++ rule name).Leaves nodes →
      ∃ n : Node, nodes = [n] ∧ n.rule = name ∧ n.IsMatch := by
    rintro _ ⟨_, _, rfl, rfl, here⟩
    exact here
  rw [List.singleton_append, List.forall_mem_cons]
  refine ⟨⟨named, isMatch⟩, fun n listed => ?_⟩
  obtain ⟨_, same, here⟩ := single _ (leaves_many_of_single
    (fun nodes here => (single nodes here).imp fun _ => And.left) leaves n listed)
  cases same
  exact here

/-- All nodes that a pattern leaves are matches. -/
theorem Leaves.isMatch {p : Pattern} (leaves : p.Leaves nodes) : ∀ n ∈ nodes, n.IsMatch := by
  induction p generalizing nodes with
  | text | satisfying | endOfText | absent =>
    rw [show nodes = [] from leaves]
    exact List.forall_mem_nil _
  | rule name =>
    obtain ⟨n, rfl, -, isMatch⟩ := leaves
    exact List.forall_mem_singleton.mpr isMatch
  | seq first second ihFirst ihSecond =>
    obtain ⟨front, back, rfl, before, after⟩ := leaves
    exact List.forall_mem_append.mpr ⟨ihFirst before, ihSecond after⟩
  | alt first second ihFirst ihSecond => exact leaves.elim ihFirst ihSecond
  | many item ih =>
    obtain ⟨groups, rfl, all⟩ := leaves
    intro n listed
    obtain ⟨g, member, inside⟩ := List.mem_flatten.mp listed
    exact ih (all g member) n inside
  | optional item ih =>
    rcases leaves with rfl | here
    · exact List.forall_mem_nil _
    · exact ih here

end Pattern

/-- The nodes that a goal leaves. -/
def Goal.Leaves : Goal → List Node → Prop
  | one p => p.Leaves
  | further item => (Pattern.many item).Leaves

variable {spacing : Spacing} {g : Goal} {start : Cursor} {o : Option Reading} {rule : Rule}
  {item : Pattern}

/-- A rule that is kept leaves a node for itself. -/
theorem Reading.isMatch_ofRule {inside : Reading}
    (derived : Derives (rule.innerSpacing spacing) (.one rule.pattern) start (some inside))
    (kept : spacing ≠ .sealed) : (Node.mk rule start inside.rest inside.nodes).IsMatch := by
  have whole := Derives.rule derived
  rw [Option.map_some, Reading.ofRule, if_neg kept] at whole
  exact ⟨spacing, _, whole⟩

theorem Derives.leaves (derived : Derives spacing g start o) (kept : spacing ≠ .sealed) :
    ∀ r ∈ o, g.Leaves r.nodes := by
  induction derived with
  | text | satisfying =>
    intro r found
    obtain ⟨rest, taken, rfl⟩ := Option.map_eq_some_iff.mp found
    rfl
  | endOfText =>
    intro r found
    split at found <;> cases found
    rfl
  | rule inner =>
    intro r found
    obtain ⟨inside, rfl, rfl⟩ := Option.map_eq_some_iff.mp found
    rw [Reading.ofRule, if_neg kept]
    exact ⟨_, rfl, rfl, Reading.isMatch_ofRule inner kept⟩
  | seq _ _ ihFirst ihSecond =>
    intro whole found
    obtain ⟨more, here, rfl⟩ := Option.map_eq_some_iff.mp found
    exact ⟨_, _, rfl, ihFirst kept _ rfl, ihSecond kept more here⟩
  | many _ _ ihFirst ihMore | again _ _ ihFirst ihMore =>
    intro whole found
    obtain ⟨more, here, rfl⟩ := Option.map_eq_some_iff.mp found
    exact Pattern.leaves_many_cons (ihFirst kept _ rfl) (ihMore kept more here)
  | first _ ih => exact fun r found => .inl (ih kept r found)
  | second _ _ _ ih => exact fun r found => .inr (ih kept r found)
  | optional _ ih => exact fun r found => .inr (ih kept r found)
  | seqRefused | absentRefused => exact fun _ found => nomatch found
  | manyNone | done =>
    rintro r ⟨⟩
    exact ⟨[], rfl, nofun⟩
  | optionalNone =>
    rintro r ⟨⟩
    exact .inl rfl
  | absent =>
    rintro r ⟨⟩
    rfl

namespace Node

variable {n : Node} {stop : Cursor} {children : List Node}

/-- What the parts of the rule have read is what the node records. -/
theorem IsMatch.inside (isMatch : (mk rule start stop children).IsMatch) :
    ∃ spacing tokens, spacing ≠ .sealed ∧
      Derives (rule.innerSpacing spacing) (.one rule.pattern) start (some ⟨children, tokens, stop⟩) := by
  obtain ⟨spacing, tokens, derived⟩ := isMatch
  obtain ⟨inside, inner, whole⟩ := derives_rule_iff.mp derived
  obtain ⟨r, rfl, same⟩ := Option.map_eq_some_iff.mp whole.symm
  dsimp only [Reading.ofRule] at same
  split at same
  · cases same
  · next kept =>
    cases same
    exact ⟨spacing, _, kept, inner⟩

theorem IsMatch.leadsTo (isMatch : (mk rule start stop children).IsMatch) : start.LeadsTo stop := by
  obtain ⟨spacing, tokens, -, derived⟩ := isMatch.inside
  exact derived.leadsTo _ rfl

/-- The children of a node stand as its rule says. -/
theorem IsMatch.leaves (isMatch : (mk rule start stop children).IsMatch)
    (open' : rule.spacing ≠ .sealed) : rule.pattern.Leaves children := by
  obtain ⟨spacing, tokens, kept, derived⟩ := isMatch.inside
  refine derived.leaves ?_ _ rfl
  unfold Rule.innerSpacing
  split
  · exact kept
  · exact open'

end Node

end CheckedScript.Grammar
