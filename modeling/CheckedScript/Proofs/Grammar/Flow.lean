import CheckedScript.Proofs.Grammar.Lexical

/-!
# In which modes the rules are asked for

A pattern that is run in some mode leads to other modes, and asks for rules and marks in them on its
way. `Pattern.flow` follows it: it gives the places where the pattern can stop, or nothing if something
is asked for that the mode does not allow. `Rule.flow` says the same of the rules, and each keeps what
it says (`Rule.flow_pattern`).
-/

namespace CheckedScript.Grammar

/-- In front of a lexeme in some mode, or inside a mark, in front of the equals sign that ends it. -/
abbrev Place := Option Mode

/-- The places reached from one of several. -/
def gather (flow : Place → Option (List Place)) : List Place → Option (List Place)
  | [] => some []
  | q :: rest => do
    let here ← flow q
    let more ← gather flow rest
    return (here ++ more).eraseDups

theorem gather_eq_some {flow : Place → Option (List Place)} {qs all : List Place}
    (known : gather flow qs = some all) : ∀ q ∈ qs, ∃ here, flow q = some here ∧ here ⊆ all := by
  induction qs generalizing all with
  | nil => exact List.forall_mem_nil _
  | cons q rest ih =>
    simp only [gather, bind, Option.bind_eq_some_iff, pure, Option.some.injEq] at known
    obtain ⟨here, first, more, later, rfl⟩ := known
    refine List.forall_mem_cons.mpr ⟨⟨here, first, fun x inside => ?_⟩, fun q' inside => ?_⟩
    · exact List.mem_eraseDups.mpr (List.mem_append_left _ inside)
    · obtain ⟨here', first', within⟩ := ih later q' inside
      exact ⟨here', first', fun x inside =>
        List.mem_eraseDups.mpr (List.mem_append_right _ (within inside))⟩

namespace Rule

/-- Where a rule between whose parts blanks may stand leads to, if it may be asked for. -/
def phrase (rule : Rule) (m : Mode) : Option (List Place) :=
  match rule, m with
  | block, .fresh | block, .named | binaryOperator _, .fresh | binaryOperator _, .named =>
    if rule = binaryOperator .less ∨ rule = binaryOperator .greater then some [some .fresh, none]
    else some [some .fresh]
  | expression, .fresh | argumentList, .fresh => some [some .fresh, some .named]
  | parameterList, .fresh | parameter, .fresh | fieldAccess, .fresh => some [some .named]
  | unaryOperator .negate, .fresh | functionCall, .fresh | indexAccess, .fresh
  | parenthesized, .fresh | numberArray, .fresh | charArray, .fresh | strArray, .fresh
  | variableDeclaration, .fresh | recordInstanceDeclaration, .fresh
  | functionDeclaration, .fresh | recordTypeDeclaration, .fresh | fieldDeclaration, .fresh
  | assignment, .fresh | fieldAssignment, .fresh | ifStatement, .fresh | elseIfClause, .fresh
  | elseClause, .fresh | whileStatement, .fresh | tryStatement, .fresh | breakStatement, .fresh
  | continueStatement, .fresh | returnStatement, .fresh | printStatement, .fresh
  | expressionStatement, .fresh | endOfInput, .fresh => some [some .fresh]
  | _, _ => none

/-- The phrases that are asked for inside a mark, where they are refused. -/
def operands : List Rule :=
  [expression, unaryOperator .negate, functionCall, indexAccess, fieldAccess, parenthesized, numberArray,
    charArray, strArray]

/-- Where a rule leads to from a place where it may be asked for. -/
def flow (rule : Rule) : Place → Option (List Place)
  | some m =>
    if rule.spacing = .free then rule.phrase m else (rule.after m).map fun m' => [some m']
  | none =>
    if rule ∈ operands ∨ (rule.after .fresh).isSome ∨ (rule.after .listed).isSome then some [] else none

end Rule

/-- Where a pattern leads to from a place where it may be run. -/
def Pattern.flow : Pattern → Place → Option (List Place)
  | text s, some m =>
    if IsMark s ∧ (m = .listed → s ≠ ['-']) then
      some (some (m.next s) :: if IsHalf s then [none] else [])
    else none
  | text s, none => if s.head?.any (· != '=') then some [] else none
  | endOfText, some m => some [some m]
  | endOfText, none => some []
  | rule name, q => name.flow q
  | seq first second, q => (first.flow q).bind (gather second.flow)
  | alt first second, q => do
    let here ← first.flow q
    let there ← second.flow q
    return (here ++ there).eraseDups
  | many item, q => do
    let here ← item.flow q
    let again ← gather item.flow here
    if again ⊆ here then return q :: here else none
  | optional item, q => (item.flow q).map (q :: ·)
  | absent (text ['=']), q => some (if q = none then [] else [q])
  | satisfying _, _ | absent _, _ => none

namespace Pattern

variable {first second item : Pattern} {q : Place} {qs : List Place}

theorem flow_seq :
    (seq first second).flow q = some qs ↔
      ∃ here, first.flow q = some here ∧ gather second.flow here = some qs := by
  rw [flow, Option.bind_eq_some_iff]

theorem flow_alt :
    (alt first second).flow q = some qs ↔
      ∃ here there, first.flow q = some here ∧ second.flow q = some there ∧
        (here ++ there).eraseDups = qs := by
  simp [flow, Option.bind_eq_some_iff]

theorem flow_many :
    (many item).flow q = some qs ↔
      ∃ here again, item.flow q = some here ∧ gather item.flow here = some again ∧
        again ⊆ here ∧ q :: here = qs := by
  simp [flow, Option.bind_eq_some_iff]

theorem flow_optional :
    (optional item).flow q = some qs ↔ ∃ here, item.flow q = some here ∧ q :: here = qs := by
  rw [flow, Option.map_eq_some_iff]

theorem flow_absent (known : (absent item).flow q = some qs) :
    item = text ['='] ∧ qs = if q = none then [] else [q] := by
  unfold flow at known
  split at known
  case h_10 same =>
    cases same
    exact ⟨rfl, (Option.some.inj known).symm⟩
  case h_11 | h_12 => cases known
  all_goals contradiction

end Pattern

/-- Rules lead only where they say. -/
theorem Rule.flow_pattern {rule : Rule} {q : Place} {qs : List Place} (open' : rule.spacing = .free)
    (known : rule.flow q = some qs) : ∃ qs', rule.pattern.flow q = some qs' ∧ qs' ⊆ qs := by
  have checked : (rule.flow q).all (fun qs =>
      (rule.pattern.flow q).any fun qs' => decide (qs' ⊆ qs)) = true := by
    revert open'
    clear known
    rcases q with _ | _ | _ | _
    all_goals
      cases rule with
      | keyword word => exact nofun
      | unaryOperator operator => cases operator <;> decide +kernel
      | binaryOperator operator => cases operator <;> decide +kernel
      | _ => decide +kernel
  rw [known, Option.all_some] at checked
  cases found : rule.pattern.flow q with
  | none =>
    rw [found] at checked
    cases checked
  | some qs' =>
    rw [found, Option.any_some, decide_eq_true_iff] at checked
    exact ⟨qs', rfl, checked⟩

end CheckedScript.Grammar
