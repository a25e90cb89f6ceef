import CheckedScript.Proofs.Check.Findings
import CheckedScript.Proofs.Check.Transaction
import CheckedScript.Proofs.Parsing.Layout
import CheckedScript.Proofs.Parsing.Spans

/-!
# Where the labels of diagnostics are

All spans of a statement lie within the span of the statement. So each finding of a check is labelled
inside one statement of the program, and a reader who goes through the findings goes through the
statements in their order (`labels_lieIn_statements`).
-/

namespace CheckedScript

/-- The span is no longer than this one, on either side. -/
structure Span.Within (s outer : Span) : Prop where
  start : outer.start ≤ s.start
  stop : s.stop ≤ outer.stop

theorem Span.LiesIn.start_le_stop {s : Span} {text : List Char} (within : s.LiesIn text) :
    s.start ≤ s.stop := by
  obtain ⟨front, upTo, begins, -, rfl⟩ := within
  exact Position.offset_advanceBy_le_of_prefix .origin begins

namespace Grammar

/-- Nodes that stand between two places have spans between them. -/
theorem Stretches.spans_within {a b : Cursor} {nodes : List Node} (placed : Stretches a b nodes) :
    ∀ s ∈ Node.listSpans nodes, s.Within (.between a.position b.position) := by
  induction a, b, nodes using Stretches.induct with
  | case1 => exact List.forall_mem_nil _
  | case2 a b rule start stop children rest inner next =>
    rw [Stretches] at placed
    obtain ⟨first, inside, behind⟩ := placed
    have before := first.offset_le
    have through := inside.leadsTo.offset_le
    have after := behind.leadsTo.offset_le
    simp only [Node.listSpans, Node.spans, List.cons_append, List.forall_mem_cons,
      List.forall_mem_append]
    refine ⟨⟨before, after⟩, fun s within => ?_, fun s within => ?_⟩
    · obtain ⟨left, right⟩ := inner inside s within
      exact ⟨Nat.le_trans before left, Nat.le_trans right after⟩
    · obtain ⟨left, right⟩ := next behind s within
      exact ⟨Nat.le_trans (Nat.le_trans before through) left, right⟩

end Grammar

namespace Parsing

open Grammar

/-- A statement has the span of its node. -/
theorem span_readStatement {n : Node} {statement : Statement}
    (read : readStatement n = .ok statement) : statement.span = n.span := by
  cases n
  cases readStatement_form read <;> rfl

theorem closedUnderThrough_within (text : List Char) (outer : Span) :
    ClosedUnderThrough fun s => s.LiesIn text ∧ s.Within outer :=
  fun _ _ first last =>
    ⟨first.1.through last.1, first.2.start, Nat.max_le.mpr ⟨last.2.stop, first.2.stop⟩⟩

/-- All spans of statements that are read one behind the other lie in the text, each within its own
statement. -/
theorem spans_readStatements {text : List Char} {a b : Cursor} {nodes : List Node}
    (placed : Placed text a b nodes) {statements : List Statement}
    (read : readStatements nodes = .ok statements) :
    ∀ statement ∈ statements, ∀ s ∈ statement.spans, s.LiesIn text ∧ s.Within statement.span := by
  induction nodes generalizing a statements with
  | nil =>
    rw [readStatements] at read
    cases read
    exact List.forall_mem_nil _
  | cons n rest ih =>
    obtain ⟨statement, more, known, known', rfl⟩ := readStatements_cons_eq_ok_iff.mp read
    refine List.forall_mem_cons.mpr ⟨?_, ih placed.tail known'⟩
    rw [span_readStatement known]
    refine keepsSpans_readStatement (closedUnderThrough_within text n.span) n ?_ _ known
    obtain ⟨-, reached, inside⟩ := placed.head
    have children := placed.inside
    obtain ⟨rule, start, stop, below⟩ := n
    rw [Node.spans, List.forall_mem_cons]
    exact ⟨⟨Span.liesIn_of_leadsTo reached inside, Nat.le_refl _, Nat.le_refl _⟩, fun s within =>
      ⟨children.stands.liesIn reached s within, children.stands.spans_within s within⟩⟩

theorem spans_parseProgram {source : String} {program : Program}
    (parsed : parseProgram source = .ok program) :
    ∀ statement ∈ program.statements, ∀ s ∈ statement.spans,
      s.LiesIn source.toList ∧ s.Within statement.span := by
  obtain ⟨n, read, parsed⟩ := bind_eq_ok_iff.mp parsed
  obtain ⟨statements, known, done⟩ := bind_eq_ok_iff.mp parsed
  cases done
  obtain ⟨rule, start, stop, children⟩ := n
  obtain ⟨rfl, isMatch, placed⟩ := placed_readText read
  obtain ⟨nodes, last, rfl, kept, -⟩ := statements_of_program isMatch
  dsimp only [Node.children] at known
  rw [kept] at known
  obtain ⟨m, placed⟩ := placed.front
  exact spans_readStatements placed known

/-- The line and column of a span are those of the place where it starts. -/
theorem positionAt_start {s : Span} {text : List Char} (within : s.LiesIn text) :
    positionAt text s.start = ⟨s.start, s.line, s.column⟩ := by
  obtain ⟨front, upTo, begins, ends, rfl⟩ := within
  obtain ⟨back, rfl⟩ := begins.trans ends
  have read : Cursor.takeBytes (Position.origin.advanceBy front).offset (front ++ back) = front :=
    Cursor.takeBytes_advanceBy .origin front back
  rw [positionAt, Span.between, read]

end Parsing

/-- The label of a diagnostic covers a stretch of the statement with this index, and line and column
tell where the label starts in the source. -/
def Diagnostic.PointsInto (source : String) (program : Program) (d : Diagnostic) (index : Nat) :
    Prop :=
  ∃ statement, program.statements[index]? = some statement ∧
    statement.span.start ≤ d.label.start ∧
    d.label.start + d.label.size ≤ statement.span.stop ∧
    Parsing.positionAt source.toList d.label.start = ⟨d.label.start, d.span.line, d.span.column⟩

/-- Whatever the store holds, each diagnostic of a check points into one statement of the text, and
the diagnostics stand in the order of these statements. -/
theorem labels_lieIn_statements {source : String} {program : Program}
    (parsed : Parsing.parseProgram source = .ok program) (store : Store) :
    ∃ indexes : List Nat, indexes.Pairwise (· ≤ ·) ∧
      List.Forall₂ (Diagnostic.PointsInto source program) (checkProgram program store).diagnostics
        indexes := by
  obtain ⟨found, indexes, noted, ordered, here⟩ :=
    Check.diagnostics_checkStatements .topLevel program.statements (.start store)
  rw [diagnostics_checkProgram, noted]
  refine ⟨indexes, ordered, here.imp ?_⟩
  rintro d index ⟨statement, listed, inside⟩
  obtain ⟨lies, within⟩ := Parsing.spans_parseProgram parsed statement
    (List.mem_of_getElem? listed) d.span inside
  have wide := lies.start_le_stop
  refine ⟨statement, listed, within.start, ?_, Parsing.positionAt_start lies⟩
  have upTo : d.label.start + d.label.size = d.span.stop := Nat.add_sub_cancel' wide
  rw [upTo]
  exact within.stop

/-- A return outside of a function, a function whose call is short of an argument, and a second
variable of the same name. -/
theorem labels_lieIn_statements_unchecked :
    let source := "return;\nfunc f(int n) int { n = f(); }\nint x = 1;\nint x = 2;"
    ∃ program, Parsing.parseProgram source = .ok program ∧
      (checkProgram program (Store.empty 0).registerBuiltins).diagnostics.map
        (fun d => (d.label.start, d.label.size, d.span.line, d.span.column)) =
          [(0, 7, 1, 1), (32, 1, 2, 25), (13, 1, 2, 6), (54, 1, 4, 5)] ∧
      ∃ indexes : List Nat, indexes.Pairwise (· ≤ ·) ∧
        List.Forall₂ (Diagnostic.PointsInto source program)
          (checkProgram program (Store.empty 0).registerBuiltins).diagnostics indexes := by
  intro source
  have found : ((Parsing.parseProgram source).toOption.map fun program =>
      (checkProgram program (Store.empty 0).registerBuiltins).diagnostics.map
        fun d => (d.label.start, d.label.size, d.span.line, d.span.column)) =
          some [(0, 7, 1, 1), (32, 1, 2, 25), (13, 1, 2, 6), (54, 1, 4, 5)] := by decide +kernel
  cases parsed : Parsing.parseProgram source with
  | error =>
    rw [parsed] at found
    cases found
  | ok program =>
    rw [parsed] at found
    exact ⟨program, rfl, Option.some.inj found, labels_lieIn_statements parsed _⟩

end CheckedScript
