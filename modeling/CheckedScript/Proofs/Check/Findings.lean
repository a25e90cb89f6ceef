import CheckedScript.Check.Program
import CheckedScript.Proofs.Ast.Spans
import Mathlib.Data.List.Forall2

/-!
# Where the findings of a check are

A rule of the checker reports at a name, a type name, an operand or the whole statement that it looks
at, also where what is wrong has to do with a declaration elsewhere. So every finding of a statement
is at one of its own spans (`finds_checkStatement`), and a walk over statements finds things in their
order (`diagnostics_checkStatements`).
-/

namespace CheckedScript

variable {P : Span → Prop} {store : Store} {context : CheckContext} {span : Span}

/-! ## Expressions -/

/-- Everything found on the way to the type is at a place with the property. -/
def Typing.FindsAt (P : Span → Prop) (t : Typing) : Prop := ∀ d ∈ t.diagnostics, P d.span

namespace Typing

variable {error : SemanticError}

theorem findsAt_known (type : Ty) : (known type).FindsAt P := List.forall_mem_nil _

theorem findsAt_unknown (here : P span) : (unknown error span).FindsAt P :=
  List.forall_mem_singleton.mpr here

theorem findsAt_knownWith {type : Ty} (here : P span) : (knownWith type error span).FindsAt P :=
  List.forall_mem_singleton.mpr here

theorem FindsAt.after {earlier : List Diagnostic} {t : Typing} (later : t.FindsAt P)
    (before : ∀ d ∈ earlier, P d.span) : (t.after earlier).FindsAt P :=
  List.forall_mem_append.mpr ⟨before, later⟩

end Typing

namespace Check

open Typing

theorem finds_typeOfErrorAccessor (here : P span) : (typeOfErrorAccessor context span).FindsAt P := by
  unfold typeOfErrorAccessor
  split
  · exact findsAt_known _
  · exact findsAt_knownWith here

theorem finds_typeOfIdentifier {name : Identifier} (here : P name.span) :
    (typeOfIdentifier store context name).FindsAt P := by
  unfold typeOfIdentifier
  split
  · exact finds_typeOfErrorAccessor here
  · split
    · exact findsAt_known _
    all_goals exact findsAt_unknown here

theorem finds_elementTypeOf {name : Identifier} (here : P name.span) :
    (elementTypeOf store name).FindsAt P := by
  unfold elementTypeOf
  split
  · exact findsAt_known _
  all_goals exact findsAt_unknown here

theorem finds_typeOfIndex {array : Identifier} {index : Typing} (here : P array.span)
    (inside : P span) (found : index.FindsAt P) :
    (typeOfIndex store array index span).FindsAt P := by
  refine (finds_elementTypeOf here).after (List.forall_mem_append.mpr ⟨found, ?_⟩)
  split
  · exact List.forall_mem_nil _
  · exact List.forall_mem_nil _
  · exact List.forall_mem_singleton.mpr inside

theorem finds_typeOfField {record field : Identifier} (here : P record.span) (there : P field.span) :
    (typeOfField store record field).FindsAt P := by
  unfold typeOfField
  split
  · split
    · exact findsAt_known _
    · exact findsAt_unknown there
  all_goals exact findsAt_unknown here

theorem finds_argumentErrors {function : String} {position : Nat}
    {arguments : List (Option Ty × Span)} {parameters : List FunctionParameter}
    (inside : ∀ argument ∈ arguments, P argument.2) :
    ∀ d ∈ argumentErrors function position arguments parameters, P d.span := by
  induction arguments generalizing position parameters with
  | nil => exact List.forall_mem_nil _
  | cons argument rest ih =>
    obtain ⟨here, later⟩ := List.forall_mem_cons.mp inside
    cases parameters with
    | nil => exact List.forall_mem_nil _
    | cons parameter parameters =>
      unfold argumentErrors
      dsimp only
      split
      · split
        · exact ih later
        · exact List.forall_mem_cons.mpr ⟨here, ih later⟩
      · exact ih later

theorem finds_typeOfCall {name : Identifier} {arguments : List (Option Ty × Span)}
    (here : P name.span) (inside : ∀ argument ∈ arguments, P argument.2) :
    (typeOfCall store name arguments).FindsAt P := by
  unfold typeOfCall
  split
  · split
    · exact findsAt_knownWith here
    · exact finds_argumentErrors inside
  all_goals exact findsAt_unknown here

theorem finds_typeOfUnary {operator : UnaryOperator} {operand : Ty} (here : P span) :
    (typeOfUnary operator operand span).FindsAt P := by
  unfold typeOfUnary
  split <;> split
  · exact findsAt_known _
  · exact findsAt_unknown here
  · exact findsAt_known _
  · exact findsAt_knownWith here

theorem finds_typeOfArithmetic {operator : BinaryOperator} {left right : Ty} (here : P span) :
    (typeOfArithmetic operator left right span).FindsAt P := by
  unfold typeOfArithmetic
  split <;> split
  · exact findsAt_known _
  · exact findsAt_unknown here
  · exact findsAt_known _
  · exact findsAt_unknown here

theorem finds_typeOfBinary {operator : BinaryOperator} {left right : Option Ty} (here : P span) :
    (typeOfBinary operator left right span).FindsAt P := by
  unfold typeOfBinary
  split
  · split
    · exact List.forall_mem_singleton.mpr here
    · split
      · exact finds_typeOfArithmetic here
      · split <;> split
        · exact findsAt_known _
        · exact findsAt_knownWith here
        · exact findsAt_known _
        · exact findsAt_knownWith here
  · exact List.forall_mem_nil _

theorem spans_typesOf (arguments : List Expression)
    (inside : ∀ s ∈ Expression.listSpans arguments, P s) :
    ∀ argument ∈ (typesOf store context arguments).1, P argument.2 := by
  induction arguments with
  | nil =>
    unfold typesOf
    exact List.forall_mem_nil _
  | cons e rest ih =>
    rw [Expression.listSpans, List.forall_mem_append] at inside
    unfold typesOf
    exact List.forall_mem_cons.mpr ⟨inside.1 _ e.span_mem_spans, ih inside.2⟩

mutual

/-- What is found in an expression is at one of its spans. -/
theorem finds_typeOf : (e : Expression) → (∀ s ∈ e.spans, P s) →
    (typeOf store context e).FindsAt P
  | .integer .., _ | .float .., _ | .str .., _ | .char .., _ | .boolean .., _
  | .numberArray .., _ | .charArray .., _ | .strArray .., _ => by
    unfold typeOf
    exact findsAt_known _
  | .identifier name span, inside => by
    unfold typeOf
    simp only [Expression.spans, List.forall_mem_cons] at inside
    exact finds_typeOfIdentifier inside.1
  | .index array index span, inside => by
    unfold typeOf
    simp only [Expression.spans, List.forall_mem_cons] at inside
    obtain ⟨here, -, within⟩ := inside
    exact finds_typeOfIndex here (within _ index.span_mem_spans) (finds_typeOf index within)
  | .fieldAccess record field span, inside => by
    unfold typeOf
    simp only [Expression.spans, List.forall_mem_cons] at inside
    exact finds_typeOfField inside.1 inside.2.1
  | .call name arguments span, inside => by
    simp only [Expression.spans, List.forall_mem_cons] at inside
    obtain ⟨here, -, within⟩ := inside
    unfold typeOf
    split
    · exact finds_typeOfErrorAccessor here
    · exact (finds_typeOfCall here (spans_typesOf arguments within)).after
        (finds_typesOf arguments within)
  | .unary operator operand span, inside => by
    rw [Expression.spans, List.forall_mem_cons] at inside
    have found : (typeOf store context operand).FindsAt P := finds_typeOf operand inside.2
    unfold typeOf
    dsimp only
    split
    · exact (finds_typeOfUnary (inside.2 _ operand.span_mem_spans)).after found
    · exact found
  | .binary operator left right span, inside => by
    rw [Expression.spans, List.forall_mem_cons, List.forall_mem_append] at inside
    obtain ⟨here, first, second⟩ := inside
    unfold typeOf
    exact (finds_typeOfBinary here).after
      (List.forall_mem_append.mpr ⟨finds_typeOf left first, finds_typeOf right second⟩)
  | .parenthesized inner span, inside => by
    rw [Expression.spans, List.forall_mem_cons] at inside
    unfold typeOf
    exact finds_typeOf inner inside.2

theorem finds_typesOf : (arguments : List Expression) →
    (∀ s ∈ Expression.listSpans arguments, P s) →
    ∀ d ∈ (typesOf store context arguments).2, P d.span
  | [], _ => by
    unfold typesOf
    exact List.forall_mem_nil _
  | e :: rest, inside => by
    rw [Expression.listSpans, List.forall_mem_append] at inside
    unfold typesOf
    exact List.forall_mem_append.mpr ⟨finds_typeOf e inside.1, finds_typesOf rest inside.2⟩

end

end Check

/-! ## Rules for statements -/

namespace Checking

variable {s t u : Checking}

/-- Everything found on the walk from `s` to `t` is at a place with the property. -/
def FindsAt (P : Span → Prop) (s t : Checking) : Prop :=
  ∃ found, t.diagnostics = s.diagnostics ++ found ∧ ∀ d ∈ found, P d.span

theorem FindsAt.of_eq (same : t.diagnostics = s.diagnostics) : s.FindsAt P t :=
  ⟨[], by rw [same, List.append_nil], List.forall_mem_nil _⟩

theorem FindsAt.refl (s : Checking) : s.FindsAt P s := .of_eq rfl

theorem FindsAt.trans (first : s.FindsAt P t) (second : t.FindsAt P u) : s.FindsAt P u := by
  obtain ⟨found, noted, here⟩ := first
  obtain ⟨later, noted', there⟩ := second
  exact ⟨found ++ later, by rw [noted', noted, List.append_assoc],
    List.forall_mem_append.mpr ⟨here, there⟩⟩

theorem finds_note {found : List Diagnostic} (inside : ∀ d ∈ found, P d.span) (s : Checking) :
    s.FindsAt P (s.note found) :=
  ⟨found, rfl, inside⟩

theorem finds_report (s : Checking) (error : SemanticError) (here : P span) :
    s.FindsAt P (s.report error span) :=
  finds_note (List.forall_mem_singleton.mpr here) s

theorem finds_declare (s : Checking) {name : Identifier} (symbol : Symbol) (atRuntime : Bool)
    (here : P name.span) : s.FindsAt P (s.declare name symbol atRuntime) := by
  unfold declare
  split
  · split <;> exact .of_eq rfl
  · exact finds_report s _ here

theorem finds_bindErrorAccessor (s : Checking) : s.FindsAt P s.bindErrorAccessor := by
  unfold bindErrorAccessor
  split <;> exact .of_eq rfl

/-- What is found in a scope that is opened and closed again. -/
theorem FindsAt.scoped {name : String} {kind : ScopeKind} (inner : (s.push name kind).FindsAt P t)
    (depth : Nat) : s.FindsAt P (t.backTo depth) :=
  inner

theorem finds_typeOf (s : Checking) {e : Expression} (inside : ∀ s ∈ e.spans, P s) :
    s.FindsAt P (s.typeOf context e).2 :=
  finds_note (Check.finds_typeOf e inside) s

theorem finds_expect (s : Checking) (found : Option Ty) (expected : Ty) (what : String)
    (here : P span) : s.FindsAt P (s.expect found expected span what) := by
  unfold expect
  split
  · exact .refl s
  · split
    · exact .refl s
    · exact finds_report s _ here

theorem finds_condition (s : Checking) (construct : String) {e : Expression}
    (inside : ∀ s ∈ e.spans, P s) : s.FindsAt P (s.condition context construct e) := by
  unfold condition
  dsimp only
  split
  · exact finds_typeOf s inside
  · exact finds_typeOf s inside
  · exact (finds_typeOf s inside).trans (finds_report _ _ (inside _ e.span_mem_spans))

theorem finds_declaration (s : Checking) (type : TypeName) {name : Identifier}
    {initializer : Option Expression} (here : P name.span)
    (inside : ∀ s ∈ Expression.optionSpans initializer, P s) :
    s.FindsAt P (s.declaration context type name initializer) := by
  unfold declaration
  cases initializer with
  | none => exact finds_declare s _ _ here
  | some e =>
    exact ((finds_typeOf s inside).trans (finds_expect _ _ _ _ (inside _ e.span_mem_spans))).trans
      (finds_declare _ _ _ here)

theorem finds_assignment (s : Checking) {name : Identifier} {value : Expression}
    (here : P name.span) (inside : ∀ s ∈ value.spans, P s) :
    s.FindsAt P (s.assignment context name value) := by
  have typed : s.FindsAt P (s.typeOf context value).2 := finds_typeOf s inside
  unfold assignment
  dsimp only
  split
  · exact typed.trans (finds_report _ _ here)
  · split
    · exact typed.trans (finds_expect _ _ _ _ (inside _ value.span_mem_spans))
    · exact typed.trans (finds_report _ _ here)
    · exact typed.trans (finds_report _ _ here)

theorem finds_fieldAssignment (s : Checking) {record field : Identifier} {value : Expression}
    (here : P record.span) (there : P field.span) (inside : ∀ s ∈ value.spans, P s) :
    s.FindsAt P (s.fieldAssignment context record field value) := by
  have typed : s.FindsAt P (s.typeOf context value).2 := finds_typeOf s inside
  have read : (Check.typeOfField (s.typeOf context value).2.store record field).FindsAt P :=
    Check.finds_typeOfField here there
  have target := typed.trans (finds_note read _)
  unfold fieldAssignment
  dsimp only
  split
  · exact target.trans (finds_expect _ _ _ _ (inside _ value.span_mem_spans))
  · exact target

theorem finds_returning (s : Checking) {value : Option Expression} (here : P span)
    (inside : ∀ s ∈ Expression.optionSpans value, P s) :
    s.FindsAt P (s.returning context value span) := by
  unfold returning
  cases value with
  | none =>
    dsimp only [Option.map_none]
    split
    · exact finds_report s _ here
    · split
      · exact .refl s
      · exact finds_report s _ here
  | some e =>
    have typed : s.FindsAt P (s.typeOf context e).2 := finds_typeOf s inside
    dsimp only [Option.map_some]
    split
    · exact typed.trans (finds_report _ _ here)
    · split
      · exact typed.trans (finds_report _ _ here)
      · split
        · exact typed
        · split
          · exact typed
          · exact typed.trans (finds_report _ _ here)

theorem finds_fields (record : String) {declarators : List Declarator}
    (inside : ∀ s ∈ declarators.flatMap Declarator.spans, P s) (bound : Bindings Ty) (s : Checking) :
    s.FindsAt P (fields record declarators (bound, s)).2 := by
  induction declarators generalizing bound s with
  | nil => exact .refl s
  | cons field rest ih =>
    simp only [List.flatMap_cons, Declarator.spans, List.cons_append, List.nil_append,
      List.forall_mem_cons] at inside
    obtain ⟨-, here, later⟩ := inside
    unfold fields
    split
    · exact (finds_report s _ here).trans (ih later ..)
    · exact ih later ..

theorem finds_recordType (s : Checking) {name : Identifier} {declarators : List Declarator}
    (here : P name.span) (inside : ∀ s ∈ declarators.flatMap Declarator.spans, P s) :
    s.FindsAt P (s.recordType context name declarators) := by
  unfold recordType
  split
  · exact (finds_fields _ inside ..).trans (finds_declare _ _ _ here)
  · exact finds_report s _ here

theorem finds_recordInstance (s : Checking) {type name : Identifier} (here : P type.span)
    (there : P name.span) : s.FindsAt P (s.recordInstance type name) := by
  unfold recordInstance
  split
  · exact finds_declare s _ _ there
  · exact finds_report s _ here

theorem finds_parameters {parameters : List Declarator}
    (inside : ∀ s ∈ parameters.flatMap Declarator.spans, P s) (s : Checking) :
    s.FindsAt P (parameters.foldl parameter s) := by
  induction parameters generalizing s with
  | nil => exact .refl s
  | cons p rest ih =>
    simp only [List.flatMap_cons, Declarator.spans, List.cons_append, List.nil_append,
      List.forall_mem_cons] at inside
    obtain ⟨-, here, later⟩ := inside
    exact (finds_declare s _ _ here).trans (ih later _)

theorem finds_function (s : Checking) {name : Identifier} (symbol : FunctionSymbol)
    (here : P name.span) : s.FindsAt P (s.function name symbol) := by
  unfold function
  split
  · exact finds_report s _ here
  · exact finds_report s _ here
  · exact finds_declare s _ _ here

end Checking

/-! ## Walks -/

namespace Check

open Checking

mutual

/-- What is found in a statement is at one of its spans. -/
theorem finds_checkStatement (context : CheckContext) : (statement : Statement) → (s : Checking) →
    (∀ span ∈ statement.spans, P span) → s.FindsAt P (checkStatement context statement s)
  | .variable type name initializer span, s, inside => by
    simp only [Statement.spans, List.forall_mem_cons] at inside
    unfold checkStatement
    exact finds_declaration s type inside.2.1 inside.2.2.2
  | .assignment name value span, s, inside => by
    simp only [Statement.spans, List.forall_mem_cons] at inside
    unfold checkStatement
    exact finds_assignment s inside.1 inside.2.2
  | .fieldAssignment record field value span, s, inside => by
    simp only [Statement.spans, List.forall_mem_cons] at inside
    unfold checkStatement
    exact finds_fieldAssignment s inside.1 inside.2.1 inside.2.2.2
  | .function name parameters returnType body span, s, inside => by
    simp only [Statement.spans, List.forall_mem_cons, List.forall_mem_append] at inside
    obtain ⟨here, -, ⟨declared, -⟩, within⟩ := inside
    unfold checkStatement
    split
    · have opened := finds_parameters declared ((s.function name (functionSymbol name parameters
        (.ofReturnType returnType) body)).push name.name .function)
      have walked := (finds_function s _ here).trans (FindsAt.scoped (opened.trans
        (finds_checkBlock (context.inFunction ⟨name.name, .ofReturnType returnType⟩) body _ within))
        s.store.depth)
      dsimp only
      split
      · exact walked
      · exact walked.trans (finds_report _ _ here)
    · exact finds_report s _ here
  | .block body span, s, inside => by
    rw [Statement.spans, List.forall_mem_cons] at inside
    unfold checkStatement
    exact (finds_checkBlock context.inBlock body _ inside.2).scoped _
  | .conditional branches none span, s, inside => by
    rw [Statement.spans, List.forall_mem_cons] at inside
    unfold checkStatement
    exact finds_checkBranches context branches s inside.2
  | .conditional branches (some otherwise) span, s, inside => by
    simp only [Statement.spans, List.forall_mem_cons, List.forall_mem_append] at inside
    unfold checkStatement
    exact (finds_checkBranches context branches s inside.2.1).trans
      ((finds_checkBlock context.inBlock otherwise _ inside.2.2).scoped _)
  | .while condition body span, s, inside => by
    simp only [Statement.spans, List.forall_mem_cons, List.forall_mem_append] at inside
    unfold checkStatement
    exact (finds_condition s "While" inside.2.1).trans
      ((finds_checkBlock context.inLoopBody body _ inside.2.2).scoped _)
  | .break span, s, inside | .continue span, s, inside => by
    rw [Statement.spans, List.forall_mem_singleton] at inside
    unfold checkStatement
    split
    · exact .refl s
    · exact finds_report s _ inside
  | .return value span, s, inside => by
    rw [Statement.spans, List.forall_mem_cons] at inside
    unfold checkStatement
    exact finds_returning s inside.1 inside.2
  | .print value span, s, inside => by
    rw [Statement.spans, List.forall_mem_cons] at inside
    have typed : s.FindsAt P (s.typeOf context value).2 := Checking.finds_typeOf s inside.2
    unfold checkStatement
    dsimp only
    split
    · exact typed.trans (finds_report _ _ (inside.2 _ value.span_mem_spans))
    · exact typed
  | .attempt guarded recovery span, s, inside => by
    simp only [Statement.spans, List.forall_mem_cons, List.forall_mem_append] at inside
    obtain ⟨-, first, second⟩ := inside
    have tried := (finds_checkBlock context.inBlock guarded (s.push "try" .guarded) first).scoped
      s.store.depth
    unfold checkStatement
    exact tried.trans (((finds_bindErrorAccessor _).trans
      (finds_checkBlock context.inRecoverBlock recovery _ second)).scoped _)
  | .recordType name declarators span, s, inside => by
    simp only [Statement.spans, List.forall_mem_cons] at inside
    unfold checkStatement
    exact finds_recordType s inside.1 inside.2.2
  | .recordInstance type name span, s, inside => by
    simp only [Statement.spans, List.forall_mem_cons] at inside
    unfold checkStatement
    exact finds_recordInstance s inside.1 inside.2.1
  | .expression value span, s, inside => by
    rw [Statement.spans, List.forall_mem_cons] at inside
    unfold checkStatement
    exact Checking.finds_typeOf s inside.2

theorem finds_checkBlock (context : CheckContext) : (block : Block) → (s : Checking) →
    (∀ span ∈ block.spans, P span) → s.FindsAt P (checkBlock context block s)
  | .mk statements span, s, inside => by
    rw [Block.spans, List.forall_mem_cons] at inside
    unfold checkBlock
    exact finds_checkStatements context statements s inside.2

theorem finds_checkStatements (context : CheckContext) : (statements : List Statement) →
    (s : Checking) → (∀ span ∈ Statement.listSpans statements, P span) →
    s.FindsAt P (checkStatements context statements s)
  | [], s, _ => by
    unfold checkStatements
    exact .refl s
  | statement :: rest, s, inside => by
    rw [Statement.listSpans, List.forall_mem_append] at inside
    unfold checkStatements
    exact (finds_checkStatement context statement s inside.1).trans
      (finds_checkStatements context rest _ inside.2)

theorem finds_checkBranches (context : CheckContext) : (branches : List Branch) → (s : Checking) →
    (∀ span ∈ Branch.listSpans branches, P span) → s.FindsAt P (checkBranches context branches s)
  | [], s, _ => by
    unfold checkBranches
    exact .refl s
  | .mk condition body span :: rest, s, inside => by
    simp only [Branch.listSpans, List.forall_mem_cons, List.forall_mem_append] at inside
    obtain ⟨-, ⟨tested, within⟩, later⟩ := inside
    unfold checkBranches
    exact ((finds_condition s "If" tested).trans
      ((finds_checkBlock context.inBlock body _ within).scoped _)).trans
        (finds_checkBranches context rest _ later)

end

/-- A finding at one of the spans of the statement with this index. -/
def IsOf (statements : List Statement) (d : Diagnostic) (index : Nat) : Prop :=
  ∃ statement, statements[index]? = some statement ∧ d.span ∈ statement.spans

/-- The findings of a walk are at spans of the statements, in their order. -/
theorem diagnostics_checkStatements (context : CheckContext) (statements : List Statement)
    (s : Checking) :
    ∃ (found : List Diagnostic) (indexes : List Nat),
      (checkStatements context statements s).diagnostics = s.diagnostics ++ found ∧
      indexes.Pairwise (· ≤ ·) ∧ List.Forall₂ (IsOf statements) found indexes := by
  induction statements generalizing s with
  | nil =>
    unfold checkStatements
    exact ⟨[], [], (List.append_nil _).symm, .nil, .nil⟩
  | cons statement rest ih =>
    obtain ⟨found, noted, here⟩ :=
      finds_checkStatement (P := (· ∈ statement.spans)) context statement s fun _ => id
    obtain ⟨later, indexes, noted', ordered, there⟩ := ih (checkStatement context statement s)
    -- The first statement has index zero, and the others have moved on by one.
    refine ⟨found ++ later, List.replicate found.length 0 ++ indexes.map (· + 1), ?_, ?_, ?_⟩
    · rw [checkStatements, noted', noted, List.append_assoc]
    · rw [List.pairwise_append]
      refine ⟨List.pairwise_replicate.mpr (.inr (Nat.le_refl 0)),
        ordered.map _ fun _ _ => Nat.succ_le_succ, fun i first j _ => ?_⟩
      rw [(List.mem_replicate.mp first).2]
      exact Nat.zero_le j
    · refine List.rel_append ?_ (List.forall₂_map_right_iff.mpr there)
      clear noted
      induction found with
      | nil => exact .nil
      | cons d found ih =>
        obtain ⟨first, others⟩ := List.forall_mem_cons.mp here
        exact .cons ⟨statement, rfl, first⟩ (ih others)

end Check

end CheckedScript
