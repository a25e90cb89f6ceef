import CheckedScript.Ast.Statement
import CheckedScript.Proofs.Source.Reading
import Mathlib.Algebra.GroupWithZero.Nat

/-!
# How a syntax tree lies in its text

The layout of a tree keeps the spans of its statements, blocks, expressions, names and type names, and
what stands below each of them in the order of the source. It is `Proper` if every span covers some
characters of the text, and what stands below another lies in it, one thing behind the other.
-/

namespace CheckedScript

/-! ## What spans cover -/

/-- The number of bytes that a text takes. -/
def byteCount (text : List Char) : Nat := (text.map Char.utf8Size).sum

theorem byteCount_append (front back : List Char) :
    byteCount (front ++ back) = byteCount front + byteCount back := by
  simp [byteCount]

theorem byteCount_pos {text : List Char} (some : text ≠ []) : 0 < byteCount text := by
  cases text with
  | nil => exact absurd rfl some
  | cons c rest =>
    have wide := c.utf8Size_pos
    rw [byteCount, List.map_cons, List.sum_cons]
    omega

/-- It is the size that strings have. -/
theorem byteCount_toList (s : String) : byteCount s.toList = s.utf8ByteSize := by
  have encoded : ∀ text : List Char, byteCount text = text.utf8Encode.size := by
    intro text
    induction text with
    | nil => rfl
    | cons c rest ih =>
      rw [List.utf8Encode_cons, List.utf8Encode_singleton, ByteArray.size_append, ← ih,
        List.size_toByteArray, String.length_utf8EncodeChar]
      rfl
  exact (encoded s.toList).trans (congrArg ByteArray.size String.utf8Encode_toList)

/-- The characters behind the last line feed. -/
def lastLine (text : List Char) : List Char := (text.reverse.takeWhile (· != '\n')).reverse

/-- The span covers these characters of the text: both its ends are told by the bytes before them, and
the first one also by its line and column, which count from one. -/
def Span.Covers (s : Span) (text covered : List Char) : Prop :=
  ∃ front back, text = front ++ covered ++ back ∧ s.start = byteCount front ∧
    s.stop = byteCount (front ++ covered) ∧ s.line = front.count '\n' + 1 ∧
      s.column = (lastLine front).length + 1

namespace Position

theorem offset_advanceBy (p : Position) (text : List Char) :
    (p.advanceBy text).offset = p.offset + byteCount text := by
  induction text generalizing p with
  | nil => rfl
  | cons c text ih =>
    rw [advanceBy_cons, ih, advance_offset, byteCount, byteCount, List.map_cons, List.sum_cons]
    omega

theorem advanceBy_concat (p : Position) (text : List Char) (c : Char) :
    p.advanceBy (text ++ [c]) = (p.advanceBy text).advance c := by
  rw [advanceBy_append]
  rfl

theorem advanceBy_origin (text : List Char) :
    (origin.advanceBy text).line = text.count '\n' + 1 ∧
      (origin.advanceBy text).column = (lastLine text).length + 1 := by
  obtain ⟨backward, rfl⟩ : ∃ backward, text = List.reverse backward := ⟨_, (text.reverse_reverse).symm⟩
  induction backward with
  | nil => exact ⟨rfl, rfl⟩
  | cons c backward ih =>
    rw [List.reverse_cons, advanceBy_concat, lastLine, List.reverse_concat, List.reverse_reverse]
    rw [lastLine, List.reverse_reverse] at ih
    by_cases ends : c = '\n'
    · subst ends
      rw [advance, if_pos rfl]
      refine ⟨?_, by simp⟩
      rw [ih.1]
      simp
    · rw [advance, if_neg ends]
      refine ⟨?_, ?_⟩
      · rw [ih.1]
        simp [List.count_append, ends]
      · rw [ih.2]
        simp [ends]

end Position

namespace Span

variable {s t : Span} {text covered more : List Char}

/-- What is read between two places of a text is covered by the span between them. -/
theorem covers_between {a : Cursor} {read : List Char} (before : (Cursor.ofText text).LeadsTo a)
    (within : read <+: a.rest) :
    (between a.position (a.skip read).position).Covers text read := by
  obtain ⟨front, whole, place⟩ := before
  obtain ⟨back, rest⟩ := within
  refine ⟨front, back, ?_, ?_, ?_, ?_, ?_⟩
  · rw [List.append_assoc, rest]
    exact whole
  · rw [between, place]
    exact (Position.offset_advanceBy _ _).trans (Nat.zero_add _)
  · rw [between, Cursor.skip, place, ← Position.advanceBy_append]
    exact (Position.offset_advanceBy _ _).trans (Nat.zero_add _)
  · rw [between, place]
    exact (Position.advanceBy_origin front).1
  · rw [between, place]
    exact (Position.advanceBy_origin front).2

theorem Covers.start_lt_stop (covers : s.Covers text covered) (some : covered ≠ []) :
    s.start < s.stop := by
  obtain ⟨front, back, -, start, stop, -⟩ := covers
  have wide := byteCount_pos some
  rw [start, stop, byteCount_append]
  omega

theorem Covers.ne_nil (covers : s.Covers text covered) (wide : s.start < s.stop) : covered ≠ [] := by
  rintro rfl
  obtain ⟨front, back, -, start, stop, -⟩ := covers
  rw [start, stop, List.append_nil] at wide
  exact Nat.lt_irrefl _ wide

theorem Covers.stop_le (covers : s.Covers text covered) : s.stop ≤ byteCount text := by
  obtain ⟨front, back, whole, -, stop, -⟩ := covers
  rw [stop, whole, byteCount_append _ back]
  exact Nat.le_add_right ..

/-- Reaching from one stretch to a later one covers both and what is between them. -/
theorem Covers.through (first : s.Covers text covered) (last : t.Covers text more)
    (ordered : s.stop ≤ t.start) (some : more ≠ []) :
    ∃ whole, (s.through t).Covers text whole ∧ (s.through t).stop = t.stop ∧ whole ≠ [] := by
  have later := last.start_lt_stop some
  obtain ⟨front, back, text', start, stop, line, column⟩ := first
  obtain ⟨front', back', text'', start', stop', -, -⟩ := last
  have ends : (s.through t).stop = t.stop := Nat.max_eq_left (by omega)
  -- What the first span leaves behind it reaches at least up to the second one.
  obtain ⟨gap, rfl⟩ : front ++ covered <+: front' := by
    have both : front ++ covered <+: front' ∨ front' <+: front ++ covered :=
      List.prefix_or_prefix_of_prefix ⟨back, text'.symm⟩ ⟨more ++ back', by rw [text'', List.append_assoc]⟩
    rcases both with here | ⟨extra, same⟩
    · exact here
    · rw [stop, start', ← same, byteCount_append] at ordered
      have none : extra = [] := Classical.byContradiction fun some => by
        have wide := byteCount_pos some
        omega
      rw [none, List.append_nil] at same
      exact ⟨[], by rw [same, List.append_nil]⟩
  refine ⟨covered ++ gap ++ more, ⟨front, back', ?_, start, ?_, line, column⟩, ends, by simp [some]⟩
  · rw [text'']
    simp
  · rw [ends, stop']
    simp

end Span

/-! ## Layouts -/

/-- A part of a tree: its span, the spelling of what it names if it is a name or a type name, and what
stands below it. -/
inductive Layout where
  | mk (span : Span) (spelling : Option String) (below : List Layout)

namespace Layout

def span : Layout → Span
  | mk span _ _ => span

/-- The part and all that stands below it cover characters of the text, each within the other and one
behind the other. A name and a type name cover their spelling. -/
inductive Proper (text : List Char) : Layout → Prop
  | mk {span : Span} {spelling : Option String} {below : List Layout} {covered : List Char} :
      span.Covers text covered → span.start < span.stop → span.stop ≤ byteCount text →
      (∀ s ∈ spelling, covered = s.toList) →
      (∀ l ∈ below, span.start ≤ l.span.start ∧ l.span.stop ≤ span.stop) →
      below.Pairwise (fun l m => l.span.stop ≤ m.span.start) →
      (∀ l ∈ below, l.Proper text) → Proper text (.mk span spelling below)

/-- The parts are proper and stand one behind the other. -/
def AllProper (text : List Char) (layouts : List Layout) : Prop :=
  layouts.Pairwise (fun l m => l.span.stop ≤ m.span.start) ∧ ∀ l ∈ layouts, l.Proper text

variable {text : List Char} {l : Layout}

theorem Proper.start_lt_stop (proper : l.Proper text) : l.span.start < l.span.stop := by
  cases proper
  assumption

theorem Proper.covers (proper : l.Proper text) :
    ∃ covered, l.span.Covers text covered ∧ covered ≠ [] := by
  cases proper with
  | mk covers wide => exact ⟨_, covers, covers.ne_nil wide⟩

end Layout

def Identifier.layout (name : Identifier) : Layout := .mk name.span (some name.name) []

def TypeName.layout (type : TypeName) : Layout := .mk type.span (some type.text) []

def Declarator.layouts (d : Declarator) : List Layout := [d.type.layout, d.name.layout]

mutual

def Expression.layout : Expression → Layout
  | .identifier name span => .mk span none [name.layout]
  | .index array position span => .mk span none [array.layout, position.layout]
  | .fieldAccess record field span => .mk span none [record.layout, field.layout]
  | .call name arguments span => .mk span none (name.layout :: Expression.listLayouts arguments)
  | .unary _ operand span => .mk span none [operand.layout]
  | .binary _ left right span => .mk span none [left.layout, right.layout]
  | .parenthesized inner span => .mk span none [inner.layout]
  | .integer _ span | .float _ span | .str _ span | .char _ span | .boolean _ span
  | .numberArray _ span | .charArray _ span | .strArray _ span => .mk span none []

def Expression.listLayouts : List Expression → List Layout
  | [] => []
  | e :: rest => e.layout :: Expression.listLayouts rest

end

def Expression.optionLayouts : Option Expression → List Layout
  | none => []
  | some e => [e.layout]

def TypeName.optionLayouts : Option TypeName → List Layout
  | none => []
  | some type => [type.layout]

mutual

def Statement.layout : Statement → Layout
  | .variable type name initializer span =>
    .mk span none (type.layout :: name.layout :: Expression.optionLayouts initializer)
  | .assignment name value span => .mk span none [name.layout, value.layout]
  | .fieldAssignment record field value span =>
    .mk span none [record.layout, field.layout, value.layout]
  | .function name parameters returnType body span =>
    .mk span none (name.layout :: (parameters.flatMap Declarator.layouts ++
      (TypeName.optionLayouts returnType ++ [body.layout])))
  | .block body span => .mk span none [body.layout]
  | .conditional branches none span => .mk span none (Branch.listLayouts branches)
  | .conditional branches (some otherwise) span =>
    .mk span none (Branch.listLayouts branches ++ [otherwise.layout])
  | .while condition body span => .mk span none [condition.layout, body.layout]
  | .return value span => .mk span none (Expression.optionLayouts value)
  | .print value span => .mk span none [value.layout]
  | .attempt guarded recovery span => .mk span none [guarded.layout, recovery.layout]
  | .recordType name fields span =>
    .mk span none (name.layout :: fields.flatMap Declarator.layouts)
  | .recordInstance recordType name span => .mk span none [recordType.layout, name.layout]
  | .expression value span => .mk span none [value.layout]
  | .break span | .continue span => .mk span none []

def Statement.listLayouts : List Statement → List Layout
  | [] => []
  | s :: rest => s.layout :: Statement.listLayouts rest

def Block.layout : Block → Layout
  | .mk statements span => .mk span none (Statement.listLayouts statements)

/-- The conditions and the blocks of branches. -/
def Branch.listLayouts : List Branch → List Layout
  | [] => []
  | .mk condition body _ :: rest => condition.layout :: body.layout :: Branch.listLayouts rest

end

def Block.optionLayouts : Option Block → List Layout
  | none => []
  | some body => [body.layout]

theorem Statement.layout_conditional (branches : List Branch) (otherwise : Option Block)
    (span : Span) :
    (Statement.conditional branches otherwise span).layout =
      .mk span none (Branch.listLayouts branches ++ Block.optionLayouts otherwise) := by
  cases otherwise <;> simp [Statement.layout, Block.optionLayouts]

@[simp] theorem Expression.span_layout (e : Expression) : e.layout.span = e.span := by
  cases e <;> rfl

/-! ## Parts that stand between two places -/

/-- The parts are proper and stand one behind the other between two places, given by the bytes before
them. -/
def Laid (text : List Char) : (a b : Nat) → List Layout → Prop
  | a, b, [] => a ≤ b
  | a, b, l :: rest => a ≤ l.span.start ∧ l.Proper text ∧ Laid text l.span.stop b rest

namespace Laid

variable {text : List Char} {a b c : Nat} {front back : List Layout} {l : Layout}

theorem le (laid : Laid text a b front) : a ≤ b := by
  induction front generalizing a with
  | nil => exact laid
  | cons l rest ih =>
    obtain ⟨before, proper, behind⟩ := laid
    have wide := proper.start_lt_stop
    have after := ih behind
    omega

theorem append_iff :
    Laid text a c (front ++ back) ↔ ∃ b, Laid text a b front ∧ Laid text b c back := by
  induction front generalizing a with
  | nil =>
    constructor
    · exact fun laid => ⟨a, Nat.le_refl a, laid⟩
    · rintro ⟨b, early, laid⟩
      cases back with
      | nil => exact Nat.le_trans early laid
      | cons l rest => exact ⟨Nat.le_trans early laid.1, laid.2⟩
  | cons l rest ih =>
    rw [List.cons_append]
    constructor
    · rintro ⟨before, proper, behind⟩
      obtain ⟨b, first, second⟩ := ih.mp behind
      exact ⟨b, ⟨before, proper, first⟩, second⟩
    · rintro ⟨b, ⟨before, proper, first⟩, second⟩
      exact ⟨before, proper, ih.mpr ⟨b, first, second⟩⟩

theorem append (first : Laid text a b front) (second : Laid text b c back) :
    Laid text a c (front ++ back) :=
  append_iff.mpr ⟨b, first, second⟩

/-- Where more room is, the parts still stand. -/
theorem widen {a' b' : Nat} (laid : Laid text a b front) (left : a' ≤ a) (right : b ≤ b') :
    Laid text a' b' front := by
  have whole := Laid.append (show Laid text a' a [] from left)
    (laid.append (show Laid text b b' [] from right))
  rwa [List.nil_append, List.append_nil] at whole

theorem bounds (laid : Laid text a b front) :
    ∀ l ∈ front, a ≤ l.span.start ∧ l.span.stop ≤ b := by
  induction front generalizing a with
  | nil => exact List.forall_mem_nil _
  | cons l rest ih =>
    obtain ⟨before, proper, behind⟩ := laid
    have wide := proper.start_lt_stop
    have after := behind.le
    rw [List.forall_mem_cons]
    refine ⟨⟨before, after⟩, fun m listed => ?_⟩
    have inside := ih behind m listed
    omega

theorem pairwise (laid : Laid text a b front) :
    front.Pairwise fun l m => l.span.stop ≤ m.span.start := by
  induction front generalizing a with
  | nil => exact .nil
  | cons l rest ih =>
    exact .cons (fun m listed => (laid.2.2.bounds m listed).1) (ih laid.2.2)

theorem proper (laid : Laid text a b front) : ∀ l ∈ front, l.Proper text := by
  induction front generalizing a with
  | nil => exact List.forall_mem_nil _
  | cons l rest ih => exact List.forall_mem_cons.mpr ⟨laid.2.1, ih laid.2.2⟩

/-- A part whose span covers something, around parts that stand between its ends. -/
theorem around {span : Span} {spelling : Option String} {covered : List Char}
    (covers : span.Covers text covered) (some : covered ≠ [])
    (spelled : ∀ s ∈ spelling, covered = s.toList)
    (below : Laid text span.start span.stop front) :
    Laid text span.start span.stop [.mk span spelling front] :=
  ⟨Nat.le_refl _, .mk covers (covers.start_lt_stop some) covers.stop_le spelled below.bounds
    below.pairwise below.proper, Nat.le_refl _⟩

end Laid

end CheckedScript
