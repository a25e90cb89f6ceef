import CheckedScript.Proofs.Grammar.Derivation
import CheckedScript.Proofs.Grammar.Nodes

/-!
# Every match comes to an end

Almost every rule reads a character whenever it matches (`Rule.advances`), and between two characters
rules call each other in a fixed order (`Rule.rank`). So repetitions end, calls nest no deeper than
the text allows, and a match of the grammar is never cut off: what the matcher finds in a text is what
the grammar derives (`matchText_cases`).
-/

namespace CheckedScript

namespace Cursor

/-- How much is still to be read. -/
def size (c : Cursor) : Nat := c.rest.length

theorem LeadsTo.size_le {a b : Cursor} (reads : a.LeadsTo b) : b.size ≤ a.size := by
  obtain ⟨read, rest, -⟩ := reads
  rw [size, size, rest, List.length_append]
  exact Nat.le_add_left ..

theorem size_lt_of_takeIf {test : Char → Bool} {a b : Cursor} (taken : a.takeIf test = some b) :
    b.size < a.size := by
  obtain ⟨_ | ⟨c, rest⟩, p⟩ := a
  · cases taken
  · simp only [takeIf, Option.ite_none_right_eq_some, Option.some.injEq] at taken
    rw [← taken.2]
    exact Nat.lt_succ_self _

theorem size_takeText {text : List Char} {a b : Cursor} (taken : a.takeText text = some b) :
    a.size = b.size + text.length := by
  induction text generalizing a with
  | nil =>
    rw [takeText] at taken
    cases taken
    rfl
  | cons expected text ih =>
    obtain ⟨_ | ⟨c, rest⟩, p⟩ := a
    · cases taken
    · rw [takeText] at taken
      split at taken
      · have shorter := ih taken
        simp only [size, List.length_cons] at shorter ⊢
        omega
      · cases taken

end Cursor

namespace Grammar

/-- The rules that read a character whenever they match. -/
def Rule.advances : Rule → Bool
  | program | endOfInput | stringContent => false
  | _ => true

/-- Between two characters a rule only calls rules of a lower rank. -/
def Rule.rank : Rule → Nat
  | program => 6
  | expressionInput | argumentList | expressionStatement => 4
  | expression => 3
  | parameterList | functionCall | indexAccess | fieldAccess | assignment | fieldAssignment
  | recordInstanceDeclaration => 2
  | parameter | identifier | variableDeclaration | fieldDeclaration | functionDeclaration
  | recordTypeDeclaration | ifStatement | elseIfClause | elseClause | whileStatement | tryStatement
  | breakStatement | continueStatement | returnStatement | printStatement => 1
  | _ => 0

namespace Pattern

/-- The pattern reads a character whenever it matches. -/
def advances : Pattern → Bool
  | text characters => !characters.isEmpty
  | satisfying _ => true
  | rule name => name.advances
  | seq first second => first.advances || second.advances
  | alt first second => first.advances && second.advances
  | endOfText | many _ | optional _ | absent _ => false

/-- Before it has read a character the pattern only calls rules below `bound`, and all that it
repeats advances. -/
def callsBelow (bound : Nat) : Pattern → Bool
  | rule name => decide (name.rank < bound)
  | seq first second =>
    first.callsBelow bound && second.callsBelow (if first.advances then depthPerCharacter else bound)
  | alt first second => first.callsBelow bound && second.callsBelow bound
  | many item => item.callsBelow bound && item.advances && item.callsBelow depthPerCharacter
  | optional item | absent item => item.callsBelow bound
  | text _ | satisfying _ | endOfText => true

end Pattern

theorem Rule.rank_lt (rule : Rule) : rule.rank < depthPerCharacter := by
  cases rule <;> simp [Rule.rank, depthPerCharacter]

theorem Rule.advances_pattern (rule : Rule) (advances : rule.advances = true) :
    rule.pattern.advances = true := by
  cases rule with
  | keyword word | unaryOperator word | binaryOperator word => cases word <;> decide
  | program | endOfInput | stringContent => cases advances
  | _ => decide

theorem Rule.callsBelow_pattern (rule : Rule) : rule.pattern.callsBelow rule.rank = true := by
  cases rule with
  | keyword word | unaryOperator word | binaryOperator word => cases word <;> decide
  | _ => decide

/-! ## Readings move on -/

section

variable {spacing : Spacing} {g : Goal} {p : Pattern} {start : Cursor} {o : Option Reading}

theorem Derives.leadsTo (derived : Derives spacing g start o) : ∀ r ∈ o, start.LeadsTo r.rest := by
  induction derived with
  | text =>
    intro r found
    obtain ⟨rest, taken, rfl⟩ := Option.map_eq_some_iff.mp found
    exact Cursor.leadsTo_of_takeText taken
  | satisfying =>
    intro r found
    obtain ⟨rest, taken, rfl⟩ := Option.map_eq_some_iff.mp found
    exact Cursor.leadsTo_of_takeIf taken
  | @endOfText _ start =>
    intro r found
    split at found <;> cases found
    exact .refl start
  | rule _ ih =>
    intro r found
    obtain ⟨inside, here, rfl⟩ := Option.map_eq_some_iff.mp found
    exact ih inside here
  | @seq spacing _ _ _ r _ _ _ ihFirst ihSecond =>
    intro whole found
    obtain ⟨more, here, rfl⟩ := Option.map_eq_some_iff.mp found
    exact ((ihFirst r rfl).trans (spacing.leadsTo_gap _)).trans (ihSecond more here)
  | @many _ _ _ r _ _ _ ihFirst ihMore =>
    intro whole found
    obtain ⟨more, here, rfl⟩ := Option.map_eq_some_iff.mp found
    exact (ihFirst r rfl).trans (ihMore more here)
  | @again spacing _ start r _ _ _ ihFirst ihMore =>
    intro whole found
    obtain ⟨more, here, rfl⟩ := Option.map_eq_some_iff.mp found
    exact ((spacing.leadsTo_gap start).trans (ihFirst r rfl)).trans (ihMore more here)
  | first _ ih | optional _ ih => exact ih
  | second _ _ _ ih => exact ih
  | seqRefused | absentRefused => exact fun _ found => nomatch found
  | @manyNone _ _ start | @done _ _ start | @optionalNone _ _ start | @absent _ _ start =>
    rintro r ⟨⟩
    exact .refl start

/-- What advances reads at least one character. -/
theorem Derives.size_lt (derived : Derives spacing (.one p) start o) (advances : p.advances = true) :
    ∀ r ∈ o, r.rest.size < start.size := by
  generalize known : Goal.one p = g at derived
  induction derived generalizing p with
  | @text _ characters =>
    cases known
    intro r found
    obtain ⟨rest, taken, rfl⟩ := Option.map_eq_some_iff.mp found
    cases characters with
    | nil => cases advances
    | cons c characters =>
      rw [Cursor.size_takeText taken]
      exact Nat.lt_add_of_pos_right (Nat.succ_pos _)
  | satisfying =>
    intro r found
    obtain ⟨rest, taken, rfl⟩ := Option.map_eq_some_iff.mp found
    exact Cursor.size_lt_of_takeIf taken
  | endOfText =>
    cases known
    cases advances
  | @rule _ name _ _ _ ih =>
    cases known
    intro r found
    obtain ⟨inside, here, rfl⟩ := Option.map_eq_some_iff.mp found
    exact ih (name.advances_pattern advances) rfl inside here
  | @seq spacing first second start r _ before after ihFirst ihSecond =>
    cases known
    intro whole found
    obtain ⟨more, here, rfl⟩ := Option.map_eq_some_iff.mp found
    have skipped := (spacing.leadsTo_gap r.rest).size_le
    rw [Pattern.advances, Bool.or_eq_true] at advances
    rcases advances with early | late
    · have shorter := ihFirst early rfl r rfl
      have further := (after.leadsTo more here).size_le
      exact Nat.lt_of_le_of_lt (Nat.le_trans further skipped) shorter
    · have shorter := ihSecond late rfl more here
      have further := (before.leadsTo r rfl).size_le
      exact Nat.lt_of_lt_of_le shorter (Nat.le_trans skipped further)
  | first _ ih =>
    cases known
    rw [Pattern.advances, Bool.and_eq_true] at advances
    exact ih advances.1 rfl
  | second _ _ _ ih =>
    cases known
    rw [Pattern.advances, Bool.and_eq_true] at advances
    exact ih advances.2 rfl
  | seqRefused | absentRefused => exact fun _ found => nomatch found
  | again | done => cases known
  | many | manyNone | optional | optionalNone | absent =>
    cases known
    cases advances

end

/-! ## No match is cut off -/

namespace Match

variable {m : Match}

theorem andThen_ne_cutOff {next : Cursor → Attempts → Match} (first : m ≠ cutOff)
    (second : ∀ nodes rest attempts, m = success nodes rest attempts → next rest attempts ≠ cutOff) :
    m.andThen next ≠ cutOff := by
  cases m with
  | success nodes rest attempts =>
    have after := second _ _ _ rfl
    unfold andThen
    dsimp only
    cases known : next rest attempts with
    | cutOff => exact absurd known after
    | success | failure => nofun
  | failure => nofun
  | cutOff => exact absurd rfl first

theorem orElse_ne_cutOff {next : Attempts → Match} (first : m ≠ cutOff)
    (second : ∀ attempts, next attempts ≠ cutOff) : m.orElse next ≠ cutOff := by
  cases m with
  | success => nofun
  | failure attempts => exact second attempts
  | cutOff => exact absurd rfl first

/-- A match of what advances has read a character. -/
theorem Agrees.size_lt {spacing : Spacing} {p : Pattern} {start : Cursor}
    (agrees : m.Agrees (Derives spacing (.one p) start)) (advances : p.advances = true)
    {nodes : List Node} {rest : Cursor} {attempts : Attempts}
    (ended : m = success nodes rest attempts) : rest.size < start.size := by
  rw [ended] at agrees
  obtain ⟨tokens, derived⟩ := agrees
  exact derived.size_lt advances _ rfl

theorem Agrees.size_le {spacing : Spacing} {p : Pattern} {start : Cursor}
    (agrees : m.Agrees (Derives spacing (.one p) start)) {nodes : List Node} {rest : Cursor}
    {attempts : Attempts} (ended : m = success nodes rest attempts) : rest.size ≤ start.size := by
  rw [ended] at agrees
  obtain ⟨tokens, derived⟩ := agrees
  exact (derived.leadsTo _ rfl).size_le

end Match

/-- Repetitions of what reads a character end before the limit that the text sets. -/
theorem repeatMatch_ne_cutOff {run : Cursor → Attempts → Match} (limit : Nat) (found : List Node)
    (start : Cursor) (attempts : Attempts)
    (ends : ∀ c, c.size ≤ start.size → ∀ attempts, run c attempts ≠ .cutOff)
    (reads : ∀ c attempts nodes rest later, run c attempts = .success nodes rest later →
      rest.size < c.size)
    (fits : start.size < limit) : repeatMatch run limit found start attempts ≠ .cutOff := by
  induction limit generalizing found start attempts with
  | zero => exact absurd fits (Nat.not_lt_zero _)
  | succ limit ih =>
    rw [repeatMatch]
    cases known : run start attempts with
    | success nodes rest later =>
      have shorter := reads _ _ _ _ _ known
      exact ih _ rest later (fun c smaller => ends c (by omega)) (by omega)
    | failure later => rintro ⟨⟩
    | cutOff => exact absurd known (ends start (Nat.le_refl _) attempts)

/-- A pattern is not cut off if the rules that it can call are not. -/
theorem run_ne_cutOff {limit : Nat} {call : RuleMatcher} {spacing : Spacing}
    (agrees : ∀ rule spacing c attempts,
      (call rule spacing c attempts).Agrees (Derives spacing (.one (.rule rule)) c))
    (p : Pattern) (bound : Nat) (start : Cursor) (attempts : Attempts)
    (below : p.callsBelow bound = true) (fits : start.size < limit)
    (ends : ∀ (rule : Rule) spacing (c : Cursor) attempts,
      c.size < start.size ∨ c.size = start.size ∧ rule.rank < bound →
      call rule spacing c attempts ≠ .cutOff) :
    p.run limit call spacing start attempts ≠ .cutOff := by
  induction p generalizing bound start attempts with
  | text characters | satisfying test =>
    rw [Pattern.run, Match.ofOption.eq_def]
    split <;> rintro ⟨⟩
  | endOfText =>
    rw [Pattern.run]
    split <;> rintro ⟨⟩
  | rule name => exact ends name spacing start attempts (.inr ⟨rfl, of_decide_eq_true below⟩)
  | seq first second ihFirst ihSecond =>
    rw [Pattern.callsBelow, Bool.and_eq_true] at below
    have before : (first.run limit call spacing start attempts).Agrees
        (Derives spacing (.one first) start) := agrees_run limit agrees first start attempts
    refine Match.andThen_ne_cutOff (ihFirst bound start attempts below.1 fits ends)
      fun nodes rest later ended => ?_
    have skipped := (spacing.leadsTo_gap rest).size_le
    have smaller := before.size_le ended
    refine ihSecond _ (spacing.gap rest) later below.2 (by omega) fun rule spacing' c a within => ?_
    -- Once the first part has read a character, every rule may be called.
    refine ends rule spacing' c a ?_
    split at within
    · next advances =>
      have shorter := before.size_lt advances ended
      omega
    · omega
  | alt first second ihFirst ihSecond =>
    rw [Pattern.callsBelow, Bool.and_eq_true] at below
    exact Match.orElse_ne_cutOff (ihFirst bound start attempts below.1 fits ends)
      fun later => ihSecond bound start later below.2 fits ends
  | many item ih =>
    simp only [Pattern.callsBelow, Bool.and_eq_true] at below
    obtain ⟨⟨here, advances⟩, later⟩ := below
    rw [Pattern.run]
    cases known : item.run limit call spacing start attempts with
    | success nodes rest attempts' =>
      have first := (agrees_run limit agrees item start attempts).size_lt advances known
      refine repeatMatch_ne_cutOff limit _ rest attempts' (fun c smaller a => ?_)
        (fun c a _ _ _ ended => ?_) (by omega)
      · have skipped := (spacing.leadsTo_gap c).size_le
        exact ih depthPerCharacter (spacing.gap c) a later (by omega) fun rule spacing' c' a' within =>
          ends rule spacing' c' a' (by omega)
      · have skipped := (spacing.leadsTo_gap c).size_le
        have shorter := (agrees_run limit agrees item (spacing.gap c) a).size_lt advances ended
        omega
    | failure => rintro ⟨⟩
    | cutOff => exact absurd known (ih bound start attempts here fits ends)
  | optional item ih => exact Match.orElse_ne_cutOff (ih bound start attempts below fits ends) (by rintro _ ⟨⟩)
  | absent item ih =>
    rw [Pattern.run]
    cases known : item.run limit call spacing start attempts with
    | success | failure => rintro ⟨⟩
    | cutOff => exact absurd known (ih bound start attempts below fits ends)

theorem matchRule_ne_cutOff {limit : Nat} (depth : Nat) (rule : Rule) (outer : Spacing)
    (start : Cursor) (attempts : Attempts) (fits : start.size < limit)
    (deep : depthPerCharacter * start.size + rule.rank < depth) :
    matchRule limit depth rule outer start attempts ≠ .cutOff := by
  induction depth generalizing rule outer start attempts with
  | zero => exact absurd deep (Nat.not_lt_zero _)
  | succ depth ih =>
    have inside : rule.pattern.run limit (matchRule limit depth) (rule.innerSpacing outer) start
        attempts ≠ .cutOff := by
      refine run_ne_cutOff (agrees_matchRule limit depth) rule.pattern rule.rank start attempts
        rule.callsBelow_pattern fits ?_
      intro called spacing c a within
      have low := called.rank_lt
      refine ih called spacing c a (by omega) ?_
      rcases within with shorter | ⟨same, lower⟩
      · have room : depthPerCharacter * (c.size + 1) ≤ depthPerCharacter * start.size :=
          Nat.mul_le_mul_left _ shorter
        rw [Nat.mul_add] at room
        omega
      · rw [same]
        omega
    rw [matchRule]
    cases known : rule.pattern.run limit (matchRule limit depth) (rule.innerSpacing outer) start
        attempts with
    | success | failure => rintro ⟨⟩
    | cutOff => exact absurd known inside

theorem matchText_ne_cutOff (rule : Rule) (text : List Char) : matchText rule text ≠ .cutOff := by
  refine matchRule_ne_cutOff _ rule .free _ _ (Nat.lt_succ_self _) ?_
  have low := rule.rank_lt
  show depthPerCharacter * text.length + rule.rank < depthPerCharacter * (text.length + 1)
  rw [Nat.mul_add]
  omega

/-- A rule comes to something at every place. -/
theorem exists_derives (spacing : Spacing) (rule : Rule) (start : Cursor) :
    ∃ o, Derives spacing (.one (.rule rule)) start o := by
  let depth := depthPerCharacter * start.size + rule.rank + 1
  have ends : matchRule (start.size + 1) depth rule spacing start .empty ≠ .cutOff :=
    matchRule_ne_cutOff depth rule spacing start .empty (Nat.lt_succ_self _) (Nat.lt_succ_self _)
  have agrees := agrees_matchRule (start.size + 1) depth rule spacing start .empty
  cases known : matchRule (start.size + 1) depth rule spacing start .empty with
  | success nodes rest attempts =>
    rw [known] at agrees
    obtain ⟨tokens, derived⟩ := agrees
    exact ⟨_, derived⟩
  | failure attempts =>
    rw [known] at agrees
    exact ⟨_, agrees⟩
  | cutOff => exact absurd known ends

/-- The matcher finds in a text what the grammar reads in it, and nothing where it reads nothing. -/
theorem matchText_cases (rule : Rule) (text : List Char) :
    (∃ r attempts, Reads rule text r ∧ matchText rule text = .success r.nodes r.rest attempts) ∨
      ∃ attempts, (∀ r, ¬ Reads rule text r) ∧ matchText rule text = .failure attempts := by
  have agrees : (matchText rule text).Agrees (Derives .free (.one (.rule rule)) (.ofText text)) :=
    agrees_matchRule _ _ _ _ _ _
  cases known : matchText rule text with
  | success nodes rest attempts =>
    rw [known] at agrees
    obtain ⟨tokens, derived⟩ := agrees
    exact .inl ⟨_, attempts, derived, rfl⟩
  | failure attempts =>
    rw [known] at agrees
    refine .inr ⟨attempts, fun r derived => ?_, rfl⟩
    cases Derives.unique derived agrees
  | cutOff => exact absurd known (matchText_ne_cutOff rule text)

end Grammar

end CheckedScript
