import CheckedScript.Proofs.Check.Twins

/-!
# What only some places allow

A program is read here without checking it: which constructs stand around a `break`, a `return`, a
declaration or a read of the caught message, and which names can be seen from there
(`Program.visits`). What is misplaced follows from this alone (`Visit.finding?`), and the check of a
program reports just these places, each of them once and in the order in which they are visited
(`contextual_checkProgram`).
-/

namespace CheckedScript

/-! ## The places of a program -/

/-- What not every place allows. -/
inductive Occurrence where
  | loopControl (keyword : String) (span : Span)
  | return (span : Span)
  | function (name : Identifier)
  | recordType (name : Identifier)
  /-- A name that is read, or called without arguments. -/
  | read (name : Identifier)

/-- Those of the constructs around a place that stand in the same function as it does. -/
def inSameFunction (around : List ScopeKind) : List ScopeKind := around.takeWhile (· ≠ .function)

/-- An occurrence, the constructs around it, the innermost one first, and the names it can see. -/
structure Visit where
  around : List ScopeKind
  store : Store
  occurrence : Occurrence

namespace Visit

/-- What is to be reported of an occurrence. -/
def finding? (v : Visit) : Option Diagnostic :=
  match v.occurrence with
  | .loopControl keyword span =>
    if .loop ∈ inSameFunction v.around then none else some ⟨.loopControlOutsideLoop keyword, span⟩
  | .return span => if .function ∈ v.around then none else some ⟨.returnOutsideFunction, span⟩
  | .function name => if v.around = [] then none else some ⟨.nestedFunction name.name, name.span⟩
  | .recordType name =>
    if v.around = [] then none else some ⟨.nestedRecordType name.name, name.span⟩
  | .read name =>
    if name.name = errorAccessor ∧
        v.store.resolvingKind? name.name ∈ [some .global, some .recovery] ∧
        .recovery ∉ inSameFunction v.around then
      some ⟨.errorAccessorOutsideRecover errorAccessor, name.span⟩
    else none

end Visit

mutual

/-- The names that an expression reads as values or calls without arguments, in their order. -/
def Expression.reads : Expression → List Identifier
  | .identifier name _ => [name]
  | .index _ position _ => position.reads
  | .call name arguments _ =>
    if arguments.isEmpty then [name] else Expression.listReads arguments
  | .unary _ operand _ => operand.reads
  | .binary _ left right _ => left.reads ++ right.reads
  | .parenthesized inner _ => inner.reads
  | _ => []

def Expression.listReads : List Expression → List Identifier
  | [] => []
  | e :: rest => e.reads ++ Expression.listReads rest

end

def Expression.visits (around : List ScopeKind) (store : Store) (e : Expression) : List Visit :=
  e.reads.map fun name => ⟨around, store, .read name⟩

namespace Store

/-- Binds a name in the innermost scope, unless it is bound there already. -/
def bind (s : Store) (name : String) (symbol : Symbol) : Store :=
  (s.define name symbol).toOption.getD s

def bindFunction (s : Store) (f : FunctionSymbol) : Store :=
  if s.global.symbols.contains f.name then s else s.bind f.name (.function f)

def bindParameter (s : Store) (p : Declarator) : Store :=
  s.bind p.name.name (.variable (.ofTypeName p.type) (Ty.ofTypeName p.type).defaultValue)

end Store

/-- The fields of a record type; of several with one name only the first one counts. -/
def Declarator.fields (declarators : List Declarator) : Bindings Ty :=
  declarators.foldl (fun bound field =>
    if bound.contains field.name.name then bound
    else bound.append field.name.name (.ofTypeName field.type)) []

/-- The names that can be seen after a statement. -/
def Statement.bound (around : List ScopeKind) (store : Store) : Statement → Store
  | .variable type name _ _ =>
    store.bind name.name (.variable (.ofTypeName type) (Ty.ofTypeName type).defaultValue)
  | .function name parameters returnType body _ =>
    if around = [] then
      store.bindFunction (Checking.functionSymbol name parameters (.ofReturnType returnType) body)
    else store
  | .recordType name declarators _ =>
    if around = [] then
      store.bind name.name (.recordType ⟨name.name, Declarator.fields declarators⟩)
    else store
  | .recordInstance type name _ =>
    match store.lookup? type.name with
    | some (.recordType r) => store.bind name.name (.recordInstance r.instantiate)
    | _ => store
  | _ => store

mutual

/-- The occurrences in a statement. The body of a function is visited at the top level only. -/
def Statement.visits (around : List ScopeKind) (store : Store) : Statement → List Visit
  | .variable _ _ initializer _ => initializer.elim [] (Expression.visits around store)
  | .assignment _ value _ => value.visits around store
  | .fieldAssignment _ _ value _ => value.visits around store
  | .function name parameters returnType body _ =>
    let symbol := Checking.functionSymbol name parameters (.ofReturnType returnType) body
    ⟨around, store, .function name⟩ ::
      if around = [] then
        body.visits [.function] (parameters.foldl Store.bindParameter
          ((store.bindFunction symbol).push name.name .function))
      else []
  | .block body _ => body.visits (.block :: around) (store.push "block" .block)
  | .conditional branches none _ => Branch.visits around store branches
  | .conditional branches (some otherwise) _ =>
    Branch.visits around store branches ++
      otherwise.visits (.branch :: around) (store.push "else" .branch)
  | .while condition body _ =>
    condition.visits around store ++ body.visits (.loop :: around) (store.push "while" .loop)
  | .break span => [⟨around, store, .loopControl "Break" span⟩]
  | .continue span => [⟨around, store, .loopControl "Continue" span⟩]
  | .return value span =>
    value.elim [] (Expression.visits around store) ++ [⟨around, store, .return span⟩]
  | .print value _ => value.visits around store
  | .attempt guarded recovery _ =>
    guarded.visits (.guarded :: around) (store.push "try" .guarded) ++
      recovery.visits (.recovery :: around)
        ((store.push "recover" .recovery).bind errorAccessor (.variable .str .null))
  | .recordType name _ _ => [⟨around, store, .recordType name⟩]
  | .recordInstance _ _ _ => []
  | .expression value _ => value.visits around store

def Block.visits (around : List ScopeKind) (store : Store) : Block → List Visit
  | .mk statements _ => Statement.listVisits around store statements

def Statement.listVisits (around : List ScopeKind) (store : Store) : List Statement → List Visit
  | [] => []
  | statement :: rest =>
    statement.visits around store ++
      Statement.listVisits around (statement.bound around store) rest

def Branch.visits (around : List ScopeKind) (store : Store) : List Branch → List Visit
  | [] => []
  | .mk condition body _ :: rest =>
    condition.visits around store ++
      body.visits (.branch :: around) (store.push "if" .branch) ++ Branch.visits around store rest

end

/-- The occurrences in a program whose names are looked up in a store first. -/
def Program.visits (program : Program) (store : Store) : List Visit :=
  Statement.listVisits [] store program.statements

/-- Whether an error is about the place where something stands. -/
def SemanticError.isContextual : SemanticError → Bool
  | loopControlOutsideLoop _ | returnOutsideFunction | nestedFunction _ | nestedRecordType _
  | errorAccessorOutsideRecover _ => true
  | _ => false

/-- The findings that are about places. -/
def Diagnostics.contextual (ds : List Diagnostic) : List Diagnostic :=
  ds.filter (·.error.isContextual)

/-! ## Contexts -/

/-- The context of a part says which constructs stand around it. -/
structure CheckContext.Reflects (c : CheckContext) (around : List ScopeKind) : Prop where
  top : c.isTopLevel = true ↔ around = []
  function : c.function = none ↔ .function ∉ around
  loop : c.inLoop = true ↔ .loop ∈ inSameFunction around
  recovery : c.inRecovery = true ↔ .recovery ∈ inSameFunction around

theorem inSameFunction_cons {kind : ScopeKind} (ordinary : kind ≠ .function)
    (around : List ScopeKind) :
    inSameFunction (kind :: around) = kind :: inSameFunction around := by
  simp [inSameFunction, ordinary]

namespace CheckContext.Reflects

variable {c : CheckContext} {around : List ScopeKind}

theorem topLevel : CheckContext.topLevel.Reflects [] := by
  constructor <;> simp [CheckContext.topLevel, isTopLevel, inLoop, inRecovery, inSameFunction]

theorem inBlock (reflects : c.Reflects around) {kind : ScopeKind}
    (ordinary : kind ∉ [.function, .loop, .recovery]) : c.inBlock.Reflects (kind :: around) := by
  obtain ⟨-, function, loop, recovery⟩ := reflects
  simp only [List.mem_cons, List.not_mem_nil, or_false, not_or] at ordinary
  obtain ⟨noFunction, noLoop, noRecovery⟩ := ordinary
  refine ⟨?_, ?_, ?_, ?_⟩
  · simp [CheckContext.inBlock, isTopLevel]
  · simpa [CheckContext.inBlock, Ne.symm noFunction] using function
  · rw [inSameFunction_cons noFunction, List.mem_cons, or_iff_right (Ne.symm noLoop)]
    exact loop
  · rw [inSameFunction_cons noFunction, List.mem_cons, or_iff_right (Ne.symm noRecovery)]
    exact recovery

theorem inLoopBody (reflects : c.Reflects around) : c.inLoopBody.Reflects (.loop :: around) := by
  obtain ⟨-, function, -, recovery⟩ := reflects
  refine ⟨?_, ?_, ?_, ?_⟩
  · simp [CheckContext.inLoopBody, isTopLevel]
  · simpa [CheckContext.inLoopBody] using function
  · simp [CheckContext.inLoopBody, inLoop, inSameFunction_cons]
  · rw [inSameFunction_cons (by decide), List.mem_cons, or_iff_right (by decide)]
    exact recovery

theorem inRecoverBlock (reflects : c.Reflects around) :
    c.inRecoverBlock.Reflects (.recovery :: around) := by
  obtain ⟨-, function, loop, -⟩ := reflects
  refine ⟨?_, ?_, ?_, ?_⟩
  · simp [CheckContext.inRecoverBlock, isTopLevel]
  · simpa [CheckContext.inRecoverBlock] using function
  · rw [inSameFunction_cons (by decide), List.mem_cons, or_iff_right (by decide)]
    exact loop
  · simp [CheckContext.inRecoverBlock, inRecovery, inSameFunction_cons]

/-- What stands around a function does not count inside it. -/
theorem inFunction (c : CheckContext) (f : FunctionContext) :
    (c.inFunction f).Reflects [.function] := by
  constructor <;> simp [CheckContext.inFunction, isTopLevel, inLoop, inRecovery, inSameFunction]

end CheckContext.Reflects

/-! ## Expressions -/

namespace Diagnostics

theorem contextual_append (ds es : List Diagnostic) :
    contextual (ds ++ es) = contextual ds ++ contextual es :=
  List.filter_append ..

end Diagnostics

namespace Check

open Diagnostics

variable {c : CheckContext} {around : List ScopeKind} {store : Store}

theorem finding?_read (reflects : c.Reflects around) (name : Identifier) :
    Visit.finding? ⟨around, store, .read name⟩ =
      if store.isErrorAccessor name.name = true ∧ c.inRecovery = false then
        some ⟨.errorAccessorOutsideRecover errorAccessor, name.span⟩
      else none := by
  have accessor : store.isErrorAccessor name.name = true ↔
      name.name = errorAccessor ∧
        store.resolvingKind? name.name ∈ [some .global, some .recovery] := by
    unfold Store.isErrorAccessor
    rw [Bool.and_eq_true, beq_iff_eq]
    cases store.resolvingKind? name.name with
    | none => simp
    | some kind => cases kind <;> simp
  have outside := not_congr reflects.recovery
  rw [Bool.not_eq_true] at outside
  unfold Visit.finding?
  refine if_congr ?_ rfl rfl
  rw [accessor, outside, and_assoc]

/-- A name that is read is reported for its place if it stands for the caught message. -/
theorem filterMap_finding?_read (reflects : c.Reflects around) (name : Identifier) :
    [⟨around, store, .read name⟩].filterMap Visit.finding? =
      if store.isErrorAccessor name.name then
        contextual (typeOfErrorAccessor c name.span).diagnostics
      else [] := by
  rw [List.filterMap_cons, finding?_read reflects, typeOfErrorAccessor]
  cases store.isErrorAccessor name.name <;> cases c.inRecovery <;> rfl

theorem contextual_typeOfIdentifier (reflects : c.Reflects around) (name : Identifier) :
    contextual (typeOfIdentifier store c name).diagnostics =
      [⟨around, store, .read name⟩].filterMap Visit.finding? := by
  rw [filterMap_finding?_read reflects, typeOfIdentifier]
  split
  · rfl
  · split <;> rfl

theorem contextual_elementTypeOf (name : Identifier) :
    contextual (elementTypeOf store name).diagnostics = [] := by
  unfold elementTypeOf
  split <;> rfl

theorem contextual_typeOfField (record field : Identifier) :
    contextual (typeOfField store record field).diagnostics = [] := by
  unfold typeOfField
  split
  · split <;> rfl
  · rfl
  · rfl

theorem contextual_argumentErrors (function : String) (position : Nat)
    (arguments : List (Option Ty × Span)) (parameters : List FunctionParameter) :
    contextual (argumentErrors function position arguments parameters) = [] := by
  induction arguments generalizing position parameters with
  | nil => rfl
  | cons argument rest ih =>
    cases parameters with
    | nil => rfl
    | cons parameter parameters =>
      unfold argumentErrors
      dsimp only
      split
      · split
        · exact ih ..
        · exact ih ..
      · exact ih ..

theorem contextual_typeOfCall (name : Identifier) (arguments : List (Option Ty × Span)) :
    contextual (typeOfCall store name arguments).diagnostics = [] := by
  unfold typeOfCall
  split
  · split
    · rfl
    · exact contextual_argumentErrors ..
  · rfl
  · rfl

theorem contextual_typeOfUnary (operator : UnaryOperator) (operand : Ty) (span : Span) :
    contextual (typeOfUnary operator operand span).diagnostics = [] := by
  unfold typeOfUnary
  split <;> split <;> rfl

theorem contextual_typeOfBinary (operator : BinaryOperator) (left right : Option Ty) (span : Span) :
    contextual (typeOfBinary operator left right span).diagnostics = [] := by
  unfold typeOfBinary typeOfArithmetic
  repeat' split
  all_goals rfl

mutual

/-- What an expression is reported for besides its types: the caught message is read in the wrong
place. -/
theorem contextual_typeOf (reflects : c.Reflects around) : (e : Expression) →
    contextual (typeOf store c e).diagnostics = (e.visits around store).filterMap Visit.finding?
  | .identifier name _ => by
    unfold typeOf
    exact contextual_typeOfIdentifier reflects name
  | .index array position _ => by
    unfold typeOf typeOfIndex Typing.after
    dsimp only
    rw [contextual_append, contextual_append, contextual_typeOf reflects position,
      contextual_elementTypeOf, List.append_nil]
    split <;> exact List.append_nil _
  | .fieldAccess record field _ => by
    unfold typeOf
    exact contextual_typeOfField ..
  | .call name arguments _ => by
    have inner : contextual (typesOf store c arguments).2 = _ :=
      contextual_typesOf reflects arguments
    unfold Expression.visits Expression.reads typeOf
    cases arguments with
    | nil =>
      rw [if_pos List.isEmpty_nil, List.map_singleton, filterMap_finding?_read reflects,
        List.isEmpty_nil, Bool.true_and]
      split
      · rfl
      · exact contextual_typeOfCall ..
    | cons first rest =>
      rw [List.isEmpty_cons, Bool.false_and, if_neg Bool.false_ne_true, if_neg Bool.false_ne_true,
        ← inner]
      dsimp only [Typing.after]
      rw [contextual_append, contextual_typeOfCall, List.append_nil]
  | .unary operator operand _ => by
    have inner : contextual (typeOf store c operand).diagnostics = _ :=
      contextual_typeOf reflects operand
    unfold typeOf
    dsimp only
    split
    · rw [Typing.after, contextual_append, contextual_typeOfUnary, List.append_nil]
      exact inner
    · exact inner
  | .binary operator left right _ => by
    unfold typeOf Typing.after Expression.visits Expression.reads
    dsimp only
    rw [contextual_append, contextual_append, contextual_typeOf reflects left,
      contextual_typeOf reflects right, contextual_typeOfBinary, List.append_nil, List.map_append,
      List.filterMap_append]
    rfl
  | .parenthesized inner _ => by
    unfold typeOf
    exact contextual_typeOf reflects inner
  | .integer .. | .float .. | .str .. | .char .. | .boolean .. | .numberArray .. | .charArray ..
  | .strArray .. => rfl

theorem contextual_typesOf (reflects : c.Reflects around) : (es : List Expression) →
    contextual (typesOf store c es).2 =
      ((Expression.listReads es).map fun name => ⟨around, store, .read name⟩).filterMap
        Visit.finding?
  | [] => rfl
  | e :: rest => by
    unfold typesOf Expression.listReads
    dsimp only
    rw [contextual_append, contextual_typeOf reflects e, contextual_typesOf reflects rest,
      List.map_append, List.filterMap_append]
    rfl

end

end Check

/-! ## Statements -/

theorem Store.bind_of_fresh {s : Store} {name : String} (symbol : Symbol)
    (fresh : s.current.symbols.contains name = false) :
    s.bind name symbol = s.extend [(name, symbol)] := by
  rw [bind, define_of_fresh symbol fresh]
  rfl

theorem Store.bind_of_taken {s : Store} {name : String} (symbol : Symbol)
    (taken : s.current.symbols.contains name = true) : s.bind name symbol = s := by
  rw [bind, define_of_taken symbol taken]
  rfl

/-- The check has come to a place where the names of `t` can be seen, and has reported what is to be
reported of the occurrences so far. -/
structure Checking.Tracks (s : Checking) (visited : List Visit) (t : Store) : Prop where
  store : s.store.DeclaresAs t
  found : Diagnostics.contextual s.diagnostics = visited.filterMap Visit.finding?

namespace Checking.Tracks

open Diagnostics

variable {s u : Checking} {visited more : List Visit} {t : Store} {c : CheckContext}
  {around : List ScopeKind}

theorem note (tracks : s.Tracks visited t) {found : List Diagnostic}
    (same : contextual found = more.filterMap Visit.finding?) :
    (s.note found).Tracks (visited ++ more) t := by
  refine ⟨tracks.store, ?_⟩
  rw [Checking.note, contextual_append, tracks.found, same, List.filterMap_append]

/-- Findings about something else than places. -/
theorem noteOther (tracks : s.Tracks visited t) {found : List Diagnostic}
    (other : contextual found = []) : (s.note found).Tracks visited t := by
  rw [← List.append_nil visited]
  exact tracks.note other

theorem report (tracks : s.Tracks visited t) {error : SemanticError}
    (other : error.isContextual = false) (span : Span) : (s.report error span).Tracks visited t :=
  tracks.noteOther (by simp [contextual, other])

theorem placed (tracks : s.Tracks visited t) {v : Visit} (allowed : v.finding? = none) :
    s.Tracks (visited ++ [v]) t := by
  refine ⟨tracks.store, ?_⟩
  rw [tracks.found, List.filterMap_append, List.filterMap_cons_none allowed, List.filterMap_nil,
    List.append_nil]

theorem misplaced (tracks : s.Tracks visited t) {v : Visit} {error : SemanticError} {span : Span}
    (about : error.isContextual = true) (reported : v.finding? = some ⟨error, span⟩) :
    (s.report error span).Tracks (visited ++ [v]) t := by
  refine tracks.note ?_
  rw [List.filterMap_cons_some reported, List.filterMap_nil]
  simp [contextual, about]

/-- What follows a place and declares nothing leads back to the names of that place. -/
theorem settle (tracks : s.Tracks visited t) (grown : s.Grows [] u)
    (found : contextual u.diagnostics = more.filterMap Visit.finding?) : u.Tracks more t :=
  ⟨tracks.store.of_sameScopes grown.sameScopes (.refl t), found⟩

theorem push (tracks : s.Tracks visited t) (name : String) (kind : ScopeKind) :
    (s.push name kind).Tracks visited (t.push name kind) :=
  ⟨tracks.store.push name kind, tracks.found⟩

theorem declare (tracks : s.Tracks visited t) (name : Identifier) (symbol : Symbol)
    (atRuntime : Bool) : (s.declare name symbol atRuntime).Tracks visited (t.bind name.name symbol) := by
  have contained := tracks.store.contains_current name.name
  cases taken : s.store.current.symbols.contains name.name with
  | true =>
    rw [declare_of_taken symbol atRuntime taken, Store.bind_of_taken symbol (contained.trans taken)]
    exact tracks.report rfl _
  | false =>
    rw [declare_of_fresh symbol atRuntime taken, Store.bind_of_fresh symbol (contained.trans taken)]
    exact ⟨tracks.store.extend _, tracks.found⟩

theorem typeOf (tracks : s.Tracks visited t) (reflects : c.Reflects around) (e : Expression) :
    (s.typeOf c e).2.Tracks (visited ++ e.visits around t) t := by
  have same := Check.typeOf_of_looksAlike (c := c) e ((tracks.store.toMatches e.names).looksAlike)
  refine tracks.note ?_
  rw [← same]
  exact Check.contextual_typeOf reflects e

theorem expect (tracks : s.Tracks visited t) (found : Option Ty) (expected : Ty) (span : Span)
    (what : String) : (s.expect found expected span what).Tracks visited t := by
  unfold Checking.expect
  split
  · exact tracks
  · split
    · exact tracks
    · exact tracks.report rfl _

theorem condition (tracks : s.Tracks visited t) (reflects : c.Reflects around) (construct : String)
    (e : Expression) : (s.condition c construct e).Tracks (visited ++ e.visits around t) t := by
  have typed := tracks.typeOf reflects e
  unfold Checking.condition
  dsimp only
  split
  · exact typed
  · exact typed
  · exact typed.report rfl _

theorem declaration (tracks : s.Tracks visited t) (reflects : c.Reflects around) (type : TypeName)
    (name : Identifier) (initializer : Option Expression) :
    (s.declaration c type name initializer).Tracks
      (visited ++ initializer.elim [] (Expression.visits around t))
      (t.bind name.name (.variable (.ofTypeName type) (Ty.ofTypeName type).defaultValue)) := by
  unfold Checking.declaration
  cases initializer with
  | none =>
    rw [Option.elim_none, List.append_nil]
    exact tracks.declare ..
  | some e => exact ((tracks.typeOf reflects e).expect ..).declare ..

theorem assignment (tracks : s.Tracks visited t) (reflects : c.Reflects around) (name : Identifier)
    (value : Expression) :
    (s.assignment c name value).Tracks (visited ++ value.visits around t) t := by
  have typed := tracks.typeOf reflects value
  unfold Checking.assignment
  dsimp only
  split
  · exact typed.report rfl _
  · split
    · exact typed.expect ..
    · exact typed.report rfl _
    · exact typed.report rfl _

theorem fieldAssignment (tracks : s.Tracks visited t) (reflects : c.Reflects around)
    (record field : Identifier) (value : Expression) :
    (s.fieldAssignment c record field value).Tracks (visited ++ value.visits around t) t := by
  have typed := tracks.typeOf reflects value
  have noted : ((s.typeOf c value).2.note
      (Check.typeOfField (s.typeOf c value).2.store record field).diagnostics).Tracks _ t :=
    typed.noteOther (Check.contextual_typeOfField ..)
  unfold Checking.fieldAssignment
  dsimp only
  split
  · exact noted.expect ..
  · exact noted

theorem loopControl (tracks : s.Tracks visited t) (reflects : c.Reflects around)
    (keyword : String) (span : Span) :
    (if c.inLoop then s else s.report (.loopControlOutsideLoop keyword) span).Tracks
      (visited ++ [⟨around, t, .loopControl keyword span⟩]) t := by
  split
  · next inside => exact tracks.placed (if_pos (reflects.loop.mp inside))
  · next outside =>
    exact tracks.misplaced rfl (if_neg fun inside => outside (reflects.loop.mpr inside))

theorem returning (tracks : s.Tracks visited t) (reflects : c.Reflects around)
    (value : Option Expression) (span : Span) :
    (s.returning c value span).Tracks
      (visited ++ (value.elim [] (Expression.visits around t) ++ [⟨around, t, .return span⟩])) t := by
  rw [← List.append_assoc]
  unfold Checking.returning
  cases inside : c.function with
  | none =>
    have outside : Visit.finding? ⟨around, t, .return span⟩ = some ⟨.returnOutsideFunction, span⟩ :=
      if_neg (reflects.function.mp inside)
    cases value with
    | none =>
      rw [Option.elim_none, List.append_nil]
      exact tracks.misplaced rfl outside
    | some e => exact (tracks.typeOf reflects e).misplaced rfl outside
  | some f =>
    have allowed : Visit.finding? ⟨around, t, .return span⟩ = none := by
      refine if_pos (Decidable.not_not.mp fun outside => ?_)
      simp [reflects.function.mpr outside] at inside
    cases value with
    | none =>
      rw [Option.elim_none, List.append_nil]
      dsimp only [Option.map_none]
      split
      · exact tracks.placed allowed
      · exact (tracks.placed allowed).report rfl _
    | some e =>
      have typed := (tracks.typeOf reflects e).placed allowed
      dsimp only [Option.map_some]
      split
      · exact typed.report rfl _
      · split
        · exact typed
        · split
          · exact typed
          · exact typed.report rfl _

theorem fields (tracks : s.Tracks visited t) (record : String) (declarators : List Declarator)
    (bound : Bindings Ty) :
    (fields record declarators (bound, s)).2.Tracks visited t ∧
      (fields record declarators (bound, s)).1 = declarators.foldl (fun bound field =>
        if bound.contains field.name.name then bound
        else bound.append field.name.name (.ofTypeName field.type)) bound := by
  induction declarators generalizing bound s with
  | nil => exact ⟨tracks, rfl⟩
  | cons field rest ih =>
    unfold Checking.fields
    rw [List.foldl_cons]
    split
    · exact ih (tracks.report rfl _) bound
    · exact ih tracks _

theorem recordType (tracks : s.Tracks visited t) (reflects : c.Reflects around) (name : Identifier)
    (declarators : List Declarator) (span : Span) :
    (s.recordType c name declarators).Tracks (visited ++ [⟨around, t, .recordType name⟩])
      (Statement.bound around t (.recordType name declarators span)) := by
  unfold Checking.recordType Statement.bound
  dsimp only
  split
  · next top =>
    obtain ⟨walked, same⟩ := tracks.fields name.name declarators []
    rw [if_pos (reflects.top.mp top), same]
    exact (walked.declare ..).placed (if_pos (reflects.top.mp top))
  · next nested =>
    have inside : around ≠ [] := fun top => nested (reflects.top.mpr top)
    rw [if_neg inside]
    exact tracks.misplaced rfl (if_neg inside)

theorem recordInstance (tracks : s.Tracks visited t) (type name : Identifier) (span : Span) :
    (s.recordInstance type name).Tracks visited
      (Statement.bound around t (.recordInstance type name span)) := by
  have alike := (tracks.store.toMatches [type.name]).alike (List.mem_singleton_self _)
  unfold Checking.recordInstance Statement.bound
  dsimp only
  generalize s.store.lookup? type.name = found at alike ⊢
  generalize t.lookup? type.name = found' at alike ⊢
  cases alike with
  | recordType r => exact tracks.declare name _ true
  | _ => exact tracks.report rfl _

theorem parameters (tracks : s.Tracks visited t) (parameters : List Declarator) :
    (parameters.foldl parameter s).Tracks visited (parameters.foldl Store.bindParameter t) := by
  induction parameters generalizing s t with
  | nil => exact tracks
  | cons p rest ih => exact ih (tracks.declare p.name _ false)

theorem function (tracks : s.Tracks visited t) (name : Identifier) (symbol : FunctionSymbol)
    (named : symbol.name = name.name) :
    (s.function name symbol).Tracks visited (t.bindFunction symbol) := by
  have alike := Symbol.alike_of_declaration_eq (tracks.store.global name.name)
  unfold Checking.function Store.bindFunction Bindings.contains
  rw [named]
  generalize s.store.global.symbols.find? name.name = found at alike ⊢
  generalize t.global.symbols.find? name.name = found' at alike ⊢
  cases alike with
  | none => exact tracks.declare name _ false
  | _ => exact tracks.report rfl _

theorem bindErrorAccessor (tracks : s.Tracks visited t) :
    s.bindErrorAccessor.Tracks visited (t.bind errorAccessor (.variable .str .null)) := by
  have contained := tracks.store.contains_current errorAccessor
  unfold Checking.bindErrorAccessor
  cases taken : s.store.current.symbols.contains errorAccessor with
  | true =>
    rw [Store.define_of_taken _ taken, Store.bind_of_taken _ (contained.trans taken)]
    exact tracks
  | false =>
    rw [Store.define_of_fresh _ taken, Store.bind_of_fresh _ (contained.trans taken)]
    exact ⟨tracks.store.extend _, tracks.found⟩

end Checking.Tracks

namespace Check

open Checking

mutual

/-- The check of a statement visits the occurrences in it. -/
theorem tracks_checkStatement : (statement : Statement) → {c : CheckContext} →
    {around : List ScopeKind} → {s : Checking} → {visited : List Visit} → {t : Store} →
    c.Reflects around → s.Tracks visited t →
    (checkStatement c statement s).Tracks (visited ++ statement.visits around t)
      (statement.bound around t)
  | .variable .., _, _, _, _, _, reflects, tracks => by
    unfold checkStatement Statement.visits
    exact tracks.declaration reflects ..
  | .assignment .., _, _, _, _, _, reflects, tracks => by
    unfold checkStatement Statement.visits
    exact tracks.assignment reflects ..
  | .fieldAssignment .., _, _, _, _, _, reflects, tracks => by
    unfold checkStatement Statement.visits
    exact tracks.fieldAssignment reflects ..
  | .function name parameters returnType body span, c, around, s, visited, t, reflects, tracks => by
    unfold Statement.visits Statement.bound
    dsimp only
    by_cases top : c.isTopLevel = true
    · have outside : around = [] := reflects.top.mp top
      let symbol := functionSymbol name parameters (.ofReturnType returnType) body
      have grown : (s.function name symbol).Grows []
          (checkStatement c (.function name parameters returnType body span) s) :=
        grows_checkFunction top fun c s => continues_checkBlock c body s
      have placed := tracks.placed (v := ⟨around, t, .function name⟩) (if_pos outside)
      have declared := placed.function name symbol rfl
      have walked := contextual_checkBlock body (.inFunction c ⟨name.name, .ofReturnType returnType⟩)
        ((declared.push name.name .function).parameters parameters)
      rw [if_pos outside, if_pos outside, List.append_cons]
      -- The names of the body are gone behind it, and what was reported there stays.
      refine declared.settle grown ?_
      unfold checkStatement
      rw [if_pos top]
      dsimp only
      split
      · exact walked
      · rw [Checking.report, Checking.note, Diagnostics.contextual_append]
        exact (List.append_nil _).trans walked
    · have inside : around ≠ [] := fun outside => top (reflects.top.mpr outside)
      unfold checkStatement
      rw [if_neg top, if_neg inside, if_neg inside]
      exact tracks.misplaced rfl (if_neg inside)
  | .block body _, _, _, _, _, _, reflects, tracks => by
    unfold checkStatement Statement.visits
    exact tracks_scopedBlock body "block" .block (reflects.inBlock (by decide)) tracks
  | .conditional branches none _, _, _, _, _, _, reflects, tracks => by
    unfold checkStatement Statement.visits
    exact tracks_checkBranches branches reflects tracks
  | .conditional branches (some otherwise) _, _, _, _, _, _, reflects, tracks => by
    have tried := tracks_checkBranches branches reflects tracks
    unfold checkStatement Statement.visits
    rw [← List.append_assoc]
    exact tracks_scopedBlock otherwise "else" .branch (reflects.inBlock (by decide)) tried
  | .while condition body _, _, _, _, _, _, reflects, tracks => by
    have tested := tracks.condition reflects "While" condition
    unfold checkStatement Statement.visits
    rw [← List.append_assoc]
    exact tracks_scopedBlock body "while" .loop reflects.inLoopBody tested
  | .break _, _, _, _, _, _, reflects, tracks => by
    unfold checkStatement Statement.visits
    exact tracks.loopControl reflects ..
  | .continue _, _, _, _, _, _, reflects, tracks => by
    unfold checkStatement Statement.visits
    exact tracks.loopControl reflects ..
  | .return .., _, _, _, _, _, reflects, tracks => by
    unfold checkStatement Statement.visits
    exact tracks.returning reflects ..
  | .print value _, _, _, _, _, _, reflects, tracks => by
    have typed := tracks.typeOf reflects value
    unfold checkStatement Statement.visits
    dsimp only
    split
    · exact typed.report rfl _
    · exact typed
  | .attempt guarded recovery span, c, _, s, _, _, reflects, tracks => by
    have grown := (declares_checkStatement c (.attempt guarded recovery span) s).grows_of_none
    have tried := tracks_scopedBlock guarded "try" .guarded (reflects.inBlock (by decide)) tracks
    have walked := contextual_checkBlock recovery reflects.inRecoverBlock
      (tried.push "recover" .recovery).bindErrorAccessor
    refine tracks.settle grown ?_
    unfold checkStatement Statement.visits
    rw [← List.append_assoc]
    exact walked
  | .recordType .., _, _, _, _, _, reflects, tracks => by
    unfold checkStatement Statement.visits
    exact tracks.recordType reflects ..
  | .recordInstance .., _, _, _, _, _, reflects, tracks => by
    unfold checkStatement Statement.visits
    rw [List.append_nil]
    exact tracks.recordInstance ..
  | .expression value _, _, _, _, _, _, reflects, tracks => by
    unfold checkStatement Statement.visits
    exact tracks.typeOf reflects value

/-- A block in a scope of its own leads back to the names that could be seen before. -/
theorem tracks_scopedBlock (body : Block) {c : CheckContext} {around : List ScopeKind}
    {s : Checking} {visited : List Visit} {t : Store} (name : String) (kind : ScopeKind)
    (reflects : c.Reflects (kind :: around)) (tracks : s.Tracks visited t) :
    ((checkBlock c body (s.push name kind)).backTo s.store.depth).Tracks
      (visited ++ body.visits (kind :: around) (t.push name kind)) t := by
  exact tracks.settle (grows_scopedBlock ..)
    (contextual_checkBlock body reflects (tracks.push name kind))

theorem contextual_checkBlock : (body : Block) → {c : CheckContext} →
    {around : List ScopeKind} → {s : Checking} → {visited : List Visit} → {t : Store} →
    c.Reflects around → s.Tracks visited t →
    Diagnostics.contextual (checkBlock c body s).diagnostics =
      (visited ++ body.visits around t).filterMap Visit.finding?
  | .mk statements _, _, _, _, _, _, reflects, tracks => by
    unfold checkBlock Block.visits
    exact contextual_checkStatements statements reflects tracks

theorem contextual_checkStatements : (statements : List Statement) → {c : CheckContext} →
    {around : List ScopeKind} → {s : Checking} → {visited : List Visit} → {t : Store} →
    c.Reflects around → s.Tracks visited t →
    Diagnostics.contextual (checkStatements c statements s).diagnostics =
      (visited ++ Statement.listVisits around t statements).filterMap Visit.finding?
  | [], _, _, _, _, _, _, tracks => by
    unfold checkStatements Statement.listVisits
    rw [List.append_nil]
    exact tracks.found
  | statement :: rest, _, _, _, _, _, reflects, tracks => by
    unfold checkStatements Statement.listVisits
    rw [← List.append_assoc]
    exact contextual_checkStatements rest reflects
      (tracks_checkStatement statement reflects tracks)

theorem tracks_checkBranches : (branches : List Branch) → {c : CheckContext} →
    {around : List ScopeKind} → {s : Checking} → {visited : List Visit} → {t : Store} →
    c.Reflects around → s.Tracks visited t →
    (checkBranches c branches s).Tracks (visited ++ Branch.visits around t branches) t
  | [], _, _, _, _, t, _, tracks => by
    unfold checkBranches Branch.visits
    rw [List.append_nil]
    exact tracks
  | .mk condition body _ :: rest, c, _, _, _, _, reflects, tracks => by
    unfold checkBranches Branch.visits
    rw [← List.append_assoc, ← List.append_assoc]
    have tested := tracks.condition reflects "If" condition
    exact tracks_checkBranches rest reflects
      (tracks_scopedBlock body "if" .branch (reflects.inBlock (by decide)) tested)

end

end Check

/-- A check reports misplaced loop controls, returns, declarations and reads of the caught message
just where the program has them, each of them once and in the order of the program. -/
theorem contextual_checkProgram (program : Program) (store : Store) :
    Diagnostics.contextual (checkProgram program store).diagnostics =
      (program.visits store).filterMap Visit.finding? := by
  have start : (Checking.start store).Tracks [] store := ⟨⟨rfl, rfl, fun _ => rfl⟩, rfl⟩
  rw [diagnostics_checkProgram]
  exact Check.contextual_checkStatements program.statements .topLevel start

end CheckedScript
