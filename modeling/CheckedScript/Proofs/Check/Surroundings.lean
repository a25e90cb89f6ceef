import CheckedScript.Proofs.Check.Growth
import Mathlib.Data.Nat.PSub

/-!
# What stands around a statement

The checker hands the context of a statement down, so nothing has to be taken back. A checker that
keeps the context in registers counts the blocks, loops and recover blocks around it up and down again,
and puts the context aside while it is in the body of a function. Both do the same
(`Walker.follows_checkStatement`): no counter is ever counted below zero, and after a statement the
registers and the scopes around it are the old ones (`surroundings_restored`).
-/

namespace CheckedScript

/-- A number in the context of a statement that a walk counts up and down. -/
structure Counter where
  get : CheckContext → Nat
  set : Nat → CheckContext → CheckContext
  get_set : ∀ n context, get (set n context) = n
  set_get : ∀ n context, set (get context) (set n context) = context

namespace Counter

def blocks : Counter where
  get context := context.nesting
  set n context := { context with nesting := n }
  get_set _ _ := rfl
  set_get _ _ := rfl

def loops : Counter where
  get context := context.loopDepth
  set n context := { context with loopDepth := n }
  get_set _ _ := rfl
  set_get _ _ := rfl

def recoveries : Counter where
  get context := context.recoverDepth
  set n context := { context with recoverDepth := n }
  get_set _ _ := rfl
  set_get _ _ := rfl

def next (counter : Counter) (context : CheckContext) : CheckContext :=
  counter.set (counter.get context + 1) context

end Counter

/-- A check that keeps the context of the next statement in registers. -/
structure Walker where
  context : CheckContext
  checking : Checking

namespace Walker

/-- Follows a rule of the checker in the context that the registers hold. -/
def step (rule : CheckContext → Checking → Checking) (w : Walker) : Walker :=
  { w with checking := rule w.context w.checking }

def up (counter : Counter) (w : Walker) : Walker := { w with context := counter.next w.context }

/-- Counts down, unless the counter is at zero. -/
def down? (counter : Counter) (w : Walker) : Option Walker :=
  (counter.get w.context).ppred.map fun n => { w with context := counter.set n w.context }

/-- Counts one more during the walk. -/
def counting (counter : Counter) (walk : Walker → Option Walker) (w : Walker) : Option Walker :=
  (walk (w.up counter)).bind (down? counter)

/-- Walks in a block with a scope of its own, which is closed afterwards. -/
def inScope (name : String) (kind : ScopeKind) (walk : Walker → Option Walker) (w : Walker) :
    Option Walker :=
  let entered := (w.step fun _ s => s.push name kind).up .blocks
  ((walk entered).bind (down? .blocks)).map (step fun _ s => s.backTo w.checking.store.depth)

/-- Replaces the whole context during the walk, and closes the scopes above `depth` after it. -/
def inFunction (function : FunctionContext) (depth : Nat) (walk : Walker → Option Walker)
    (w : Walker) : Option Walker :=
  (walk { w with context := w.context.inFunction function }).map fun walked =>
    ⟨w.context, walked.checking.backTo depth⟩

/-! ## The checker with registers -/

mutual

/-- Checks a statement, unless a counter would fall below zero. -/
def checkStatement : Statement → Walker → Option Walker
  | .variable type name initializer _, w =>
    some (w.step fun context s => s.declaration context type name initializer)
  | .assignment name value _, w => some (w.step fun context s => s.assignment context name value)
  | .fieldAssignment record field value _, w =>
    some (w.step fun context s => s.fieldAssignment context record field value)
  | .function name parameters returnType body _, w =>
    if w.context.isTopLevel then
      let type := Ty.ofReturnType returnType
      let declared := w.step fun _ s =>
        s.function name (Checking.functionSymbol name parameters type body)
      let opened := declared.step fun _ s =>
        parameters.foldl Checking.parameter (s.push name.name .function)
      (inFunction ⟨name.name, type⟩ declared.checking.store.depth (checkBlock body) opened).map
        (step fun _ s =>
          if type = .void ∨ body.alwaysReturns then s
          else s.report (.missingReturn name.name type) name.span)
    else some (w.step fun _ s => s.report (.nestedFunction name.name) name.span)
  | .block body _, w => inScope "block" .block (checkBlock body) w
  | .conditional branches none _, w => checkBranches branches w
  | .conditional branches (some otherwise) _, w =>
    (checkBranches branches w).bind (inScope "else" .branch (checkBlock otherwise))
  | .while condition body _, w =>
    counting .loops (inScope "while" .loop (checkBlock body))
      (w.step fun context s => s.condition context "While" condition)
  | .break span, w =>
    some (w.step fun context s =>
      if context.inLoop then s else s.report (.loopControlOutsideLoop "Break") span)
  | .continue span, w =>
    some (w.step fun context s =>
      if context.inLoop then s else s.report (.loopControlOutsideLoop "Continue") span)
  | .return value span, w => some (w.step fun context s => s.returning context value span)
  | .print value _, w =>
    some (w.step fun context s =>
      let (type, s) := s.typeOf context value
      if type = some .void then s.report (.voidValue "print") value.span else s)
  | .attempt guarded recovery _, w =>
    (inScope "try" .guarded (checkBlock guarded) w).bind <|
      counting .recoveries <| inScope "recover" .recovery fun w =>
        checkBlock recovery (w.step fun _ s => s.bindErrorAccessor)
  | .recordType name declarators _, w =>
    some (w.step fun context s => s.recordType context name declarators)
  | .recordInstance type name _, w => some (w.step fun _ s => s.recordInstance type name)
  | .expression value _, w => some (w.step fun context s => (s.typeOf context value).2)

def checkBlock : Block → Walker → Option Walker
  | .mk statements _, w => checkStatements statements w

def checkStatements : List Statement → Walker → Option Walker
  | [], w => some w
  | statement :: rest, w => (checkStatement statement w).bind (checkStatements rest)

def checkBranches : List Branch → Walker → Option Walker
  | [], w => some w
  | .mk condition body _ :: rest, w =>
    (inScope "if" .branch (checkBlock body)
      (w.step fun context s => s.condition context "If" condition)).bind (checkBranches rest)

end

/-! ## Both do the same -/

/-- A counter that was counted up can be counted down again, and then the context is the old one. -/
theorem down?_up (counter : Counter) (rule : CheckContext → Checking → Checking) (w : Walker) :
    ((w.up counter).step rule).down? counter =
      some (w.step fun context s => rule (counter.next context) s) := by
  have counted : counter.get (counter.next w.context) = counter.get w.context + 1 :=
    counter.get_set ..
  have restored : counter.set (counter.get w.context) (counter.next w.context) = w.context :=
    counter.set_get ..
  simp only [down?, step, up, counted, Nat.ppred_succ, Option.map_some, restored]

/-- The walk does what the rule does in the context of the registers, and leaves the registers as they
were. -/
def Follows (walk : Walker → Option Walker) (rule : CheckContext → Checking → Checking) : Prop :=
  ∀ w, walk w = some (w.step rule)

namespace Follows

variable {walk next : Walker → Option Walker} {rule rule' : CheckContext → Checking → Checking}

theorem bind (first : Follows walk rule) (second : Follows next rule') :
    Follows (fun w => (walk w).bind next) fun context s => rule' context (rule context s) := by
  intro w
  dsimp only
  rw [first w, Option.bind_some, second]
  rfl

theorem after (second : Follows walk rule') (rule : CheckContext → Checking → Checking) :
    Follows (fun w => walk (w.step rule)) fun context s => rule' context (rule context s) :=
  fun w => second (w.step rule)

theorem counting (inside : Follows walk rule) (counter : Counter) :
    Follows (Walker.counting counter walk) fun context s => rule (counter.next context) s := by
  intro w
  rw [Walker.counting, inside, Option.bind_some, down?_up]

theorem inScope (inside : Follows walk rule) (name : String) (kind : ScopeKind) :
    Follows (Walker.inScope name kind walk) fun context s =>
      (rule context.inBlock (s.push name kind)).backTo s.store.depth := by
  intro w
  unfold Walker.inScope
  dsimp only
  rw [inside, Option.bind_some, down?_up]
  rfl

end Follows

mutual

/-- The checker with registers checks a statement as in the context that they hold. -/
theorem follows_checkStatement : (statement : Statement) →
    Follows (checkStatement statement) fun context s => Check.checkStatement context statement s
  | .function name parameters returnType body span => by
    intro w
    unfold checkStatement Check.checkStatement step
    dsimp only
    split
    · -- The scope of the function is opened in the same depth, whether it was declared or not.
      have depth := (Checking.declares_function w.checking name (Checking.functionSymbol name
        parameters (.ofReturnType returnType) body)).continues.depth
      rw [inFunction, follows_checkBlock body, depth]
      rfl
    · rfl
  | .block body _ => by
    intro w
    unfold checkStatement step Check.checkStatement
    exact (follows_checkBlock body).inScope "block" .block w
  | .conditional branches none _ => by
    intro w
    unfold checkStatement step Check.checkStatement
    exact follows_checkBranches branches w
  | .conditional branches (some otherwise) _ => by
    intro w
    unfold checkStatement step Check.checkStatement
    have other := (follows_checkBlock otherwise).inScope "else" .branch
    exact (follows_checkBranches branches).bind other w
  | .while condition body _ => by
    intro w
    unfold checkStatement Check.checkStatement
    have walked := ((follows_checkBlock body).inScope "while" .loop).counting .loops
    exact walked.after (fun context s => s.condition context "While" condition) w
  | .attempt guarded recovery _ => by
    intro w
    have tried := (follows_checkBlock guarded).inScope "try" .guarded
    have recovered := ((follows_checkBlock recovery).after fun _ s => s.bindErrorAccessor).inScope
      "recover" .recovery
    -- Both blocks are closed in the depth before the first one.
    have depth := (Check.grows_scopedBlock w.context.inBlock guarded w.checking "try" .guarded).depth
    have walked := tried.bind (recovered.counting .recoveries) w
    unfold step at walked
    dsimp only at walked
    rw [depth] at walked
    unfold checkStatement step Check.checkStatement
    exact walked
  | .variable .. | .assignment .. | .fieldAssignment .. | .break _ | .continue _ | .return ..
  | .print .. | .recordType .. | .recordInstance .. | .expression .. => by
    intro w
    unfold checkStatement Check.checkStatement
    rfl

theorem follows_checkBlock : (block : Block) →
    Follows (checkBlock block) fun context s => Check.checkBlock context block s
  | .mk statements _ => by
    intro w
    unfold checkBlock Check.checkBlock
    exact follows_checkStatements statements w

theorem follows_checkStatements : (statements : List Statement) →
    Follows (checkStatements statements) fun context s => Check.checkStatements context statements s
  | [] => by
    intro w
    unfold checkStatements Check.checkStatements
    rfl
  | statement :: rest => by
    intro w
    unfold checkStatements Check.checkStatements
    exact (follows_checkStatement statement).bind (follows_checkStatements rest) w

theorem follows_checkBranches : (branches : List Branch) →
    Follows (checkBranches branches) fun context s => Check.checkBranches context branches s
  | [] => by
    intro w
    unfold checkBranches Check.checkBranches
    rfl
  | .mk condition body _ :: rest => by
    intro w
    unfold checkBranches Check.checkBranches
    have tried := ((follows_checkBlock body).inScope "if" .branch).after
      fun context s => s.condition context "If" condition
    exact tried.bind (follows_checkBranches rest) w

end

end Walker

/-- What a statement declares is one fresh name at most. -/
theorem Checking.Declares.atMostOne {s t : Checking} {name? : Option String}
    (declared : s.Declares name? t) : ∃ added : Option (String × Symbol),
      (s.store.extend added.toList).SameScopes t.store ∧
        ∀ binding ∈ added, name? = some binding.1 ∧
          binding.1 ∉ s.store.current.symbols.names := by
  obtain ⟨added, grown, only⟩ := declared
  match added, grown, only with
  | [], grown, _ => exact ⟨none, grown.scopes, nofun⟩
  | [d], grown, only =>
    refine ⟨some (d.1.name, d.2), grown.scopes, ?_⟩
    rintro _ ⟨⟩
    exact ⟨only d List.mem_cons_self, grown.fresh _ List.mem_cons_self⟩
  | d :: d' :: rest, grown, only =>
    -- Two declarations would be of one name, and a name is not declared twice.
    have same : d.1.name = d'.1.name := Option.some.inj
      ((only d List.mem_cons_self).symm.trans (only d' (List.mem_cons_of_mem _ List.mem_cons_self)))
    have apart : d.1.name ∉ Bindings.names (Declarations.bindings (d' :: rest)) :=
      (List.nodup_cons.mp grown.distinct).1
    rw [same] at apart
    exact absurd List.mem_cons_self apart

/-- Whatever is found wrong with a statement, a checker that keeps the context in registers counts
none of them below zero and holds the old context after the statement, having done what the checker
does in this context. The depth of the store is the old one; all scopes bind what they bound, in the
same order, and the innermost one binds one fresh name more at most, which is the one that the
statement declares; and the earlier findings are still there. -/
theorem surroundings_restored (context : CheckContext) (statement : Statement) (s : Checking) :
    Walker.checkStatement statement ⟨context, s⟩ =
        some ⟨context, Check.checkStatement context statement s⟩ ∧
      let t := Check.checkStatement context statement s
      t.store.depth = s.store.depth ∧
      (∃ added : Option (String × Symbol), (s.store.extend added.toList).SameScopes t.store ∧
        ∀ binding ∈ added, statement.declaredName? = some binding.1 ∧
          binding.1 ∉ s.store.current.symbols.names) ∧
      ∃ found, t.diagnostics = s.diagnostics ++ found := by
  have declared := Check.declares_checkStatement context statement s
  obtain ⟨added, grown⟩ := declared.continues
  exact ⟨Walker.follows_checkStatement statement ⟨context, s⟩, grown.depth, declared.atMostOne,
    grown.findings⟩

end CheckedScript
