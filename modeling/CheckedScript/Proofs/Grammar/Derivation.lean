import CheckedScript.Grammar.Match

/-!
# What the grammar says

A matcher tries alternatives, counts how deep it went and remembers where it failed. `Derives` says
what a goal comes to at a place without any of this: the nodes and the tokens that it reads and the
place where it stops, or that it is refused there. It comes to one thing only (`Derives.unique`), and
a match that is not cut off comes to the same (`agrees_matchRule`).
-/

namespace CheckedScript.Grammar

/-- A stretch of text that is read in one piece. -/
structure Token where
  start : Cursor
  stop : Cursor
deriving DecidableEq

/-- What is read from a place on: the nodes kept, the tokens passed, and the place behind them. -/
structure Reading where
  nodes : List Node
  tokens : List Token
  rest : Cursor

namespace Reading

def nothing (c : Cursor) : Reading := ⟨[], [], c⟩

/-- What `r` has read, and then `more`. -/
def followedBy (r more : Reading) : Reading :=
  ⟨r.nodes ++ more.nodes, r.tokens ++ more.tokens, more.rest⟩

/-- Characters that a pattern asks for. They are a token where blanks may stand around them. -/
def ofTerminal (spacing : Spacing) (start rest : Cursor) : Reading :=
  ⟨[], if spacing = .free ∧ rest ≠ start then [⟨start, rest⟩] else [], rest⟩

/-- The match of a rule whose parts have read `inside`. A rule inside of which no blanks may stand is
one token where they may stand around it. -/
def ofRule (rule : Rule) (spacing : Spacing) (start : Cursor) (inside : Reading) : Reading :=
  ⟨if spacing = .sealed then [] else [.mk rule start inside.rest inside.nodes],
    if spacing = .free ∧ rule.spacing ≠ .free then [⟨start, inside.rest⟩] else inside.tokens,
    inside.rest⟩

end Reading

/-- What is to be read: a pattern, or further repetitions of one. -/
inductive Goal where
  | one (p : Pattern)
  | further (item : Pattern)

/-- What a goal comes to at a place, given the spacing around it; `none` if it is refused. -/
inductive Derives : Spacing → Goal → Cursor → Option Reading → Prop
  | text {spacing : Spacing} {characters : List Char} {start : Cursor} :
      Derives spacing (.one (.text characters)) start
        ((start.takeText characters).map (.ofTerminal spacing start))
  | satisfying {spacing : Spacing} {test : Char → Bool} {start : Cursor} :
      Derives spacing (.one (.satisfying test)) start
        ((start.takeIf test).map (.ofTerminal spacing start))
  | endOfText {spacing : Spacing} {start : Cursor} :
      Derives spacing (.one .endOfText) start
        (if start.rest.isEmpty then some (.nothing start) else none)
  | rule {spacing : Spacing} {rule : Rule} {start : Cursor} {inside : Option Reading} :
      Derives (rule.innerSpacing spacing) (.one rule.pattern) start inside →
      Derives spacing (.one (.rule rule)) start (inside.map (.ofRule rule spacing start))
  | seq {spacing : Spacing} {first second : Pattern} {start : Cursor} {r : Reading}
      {more : Option Reading} :
      Derives spacing (.one first) start (some r) →
      Derives spacing (.one second) (spacing.gap r.rest) more →
      Derives spacing (.one (.seq first second)) start (more.map r.followedBy)
  | seqRefused {spacing : Spacing} {first second : Pattern} {start : Cursor} :
      Derives spacing (.one first) start none →
      Derives spacing (.one (.seq first second)) start none
  | first {spacing : Spacing} {first second : Pattern} {start : Cursor} {r : Reading} :
      Derives spacing (.one first) start (some r) →
      Derives spacing (.one (.alt first second)) start (some r)
  | second {spacing : Spacing} {first second : Pattern} {start : Cursor} {o : Option Reading} :
      Derives spacing (.one first) start none →
      Derives spacing (.one second) start o →
      Derives spacing (.one (.alt first second)) start o
  | many {spacing : Spacing} {item : Pattern} {start : Cursor} {r : Reading}
      {more : Option Reading} :
      Derives spacing (.one item) start (some r) →
      Derives spacing (.further item) r.rest more →
      Derives spacing (.one (.many item)) start (more.map r.followedBy)
  | manyNone {spacing : Spacing} {item : Pattern} {start : Cursor} :
      Derives spacing (.one item) start none →
      Derives spacing (.one (.many item)) start (some (.nothing start))
  | again {spacing : Spacing} {item : Pattern} {start : Cursor} {r : Reading}
      {more : Option Reading} :
      Derives spacing (.one item) (spacing.gap start) (some r) →
      Derives spacing (.further item) r.rest more →
      Derives spacing (.further item) start (more.map r.followedBy)
  | done {spacing : Spacing} {item : Pattern} {start : Cursor} :
      Derives spacing (.one item) (spacing.gap start) none →
      Derives spacing (.further item) start (some (.nothing start))
  | optional {spacing : Spacing} {item : Pattern} {start : Cursor} {r : Reading} :
      Derives spacing (.one item) start (some r) →
      Derives spacing (.one (.optional item)) start (some r)
  | optionalNone {spacing : Spacing} {item : Pattern} {start : Cursor} :
      Derives spacing (.one item) start none →
      Derives spacing (.one (.optional item)) start (some (.nothing start))
  | absent {spacing : Spacing} {item : Pattern} {start : Cursor} :
      Derives spacing (.one item) start none →
      Derives spacing (.one (.absent item)) start (some (.nothing start))
  | absentRefused {spacing : Spacing} {item : Pattern} {start : Cursor} {r : Reading} :
      Derives spacing (.one item) start (some r) →
      Derives spacing (.one (.absent item)) start none

/-- The rule matches the text from its beginning on. -/
def Reads (rule : Rule) (text : List Char) (r : Reading) : Prop :=
  Derives .free (.one (.rule rule)) (.ofText text) (some r)

section

variable {spacing : Spacing} {start : Cursor} {o o' : Option Reading} {first second item : Pattern}
  {g : Goal}

/-- A goal comes to one thing at a place. -/
theorem Derives.unique (one : Derives spacing g start o) (other : Derives spacing g start o') :
    o = o' := by
  induction one generalizing o' with
  | text | satisfying | endOfText =>
    cases other
    rfl
  | rule _ ih =>
    cases other with
    | rule inside => rw [ih inside]
  | seq _ _ ihFirst ihSecond =>
    cases other with
    | seq before after =>
      cases ihFirst before
      rw [ihSecond after]
    | seqRefused before => cases ihFirst before
  | seqRefused _ ih =>
    cases other with
    | seq before _ => cases ih before
    | seqRefused _ => rfl
  | first _ ih =>
    cases other with
    | first found => exact ih found
    | second refused _ => cases ih refused
  | second _ _ ihFirst ihSecond =>
    cases other with
    | first found => cases ihFirst found
    | second _ found => exact ihSecond found
  | many _ _ ihFirst ihMore =>
    cases other with
    | many before after =>
      cases ihFirst before
      rw [ihMore after]
    | manyNone refused => cases ihFirst refused
  | manyNone _ ih =>
    cases other with
    | many before _ => cases ih before
    | manyNone _ => rfl
  | again _ _ ihFirst ihMore =>
    cases other with
    | again before after =>
      cases ihFirst before
      rw [ihMore after]
    | done refused => cases ihFirst refused
  | done _ ih =>
    cases other with
    | again before _ => cases ih before
    | done _ => rfl
  | optional _ ih =>
    cases other with
    | optional found => exact ih found
    | optionalNone refused => cases ih refused
  | optionalNone _ ih =>
    cases other with
    | optional found => cases ih found
    | optionalNone _ => rfl
  | absent _ ih =>
    cases other with
    | absent _ => rfl
    | absentRefused found => cases ih found
  | absentRefused _ ih =>
    cases other with
    | absent refused => cases ih refused
    | absentRefused _ => rfl

/-! ## What each goal comes to -/

theorem derives_text_iff {characters : List Char} :
    Derives spacing (.one (.text characters)) start o ↔
      o = (start.takeText characters).map (.ofTerminal spacing start) := by
  constructor
  · intro derived
    cases derived
    rfl
  · rintro rfl
    exact .text

theorem derives_satisfying_iff {test : Char → Bool} :
    Derives spacing (.one (.satisfying test)) start o ↔
      o = (start.takeIf test).map (.ofTerminal spacing start) := by
  constructor
  · intro derived
    cases derived
    rfl
  · rintro rfl
    exact .satisfying

theorem derives_endOfText_iff :
    Derives spacing (.one .endOfText) start o ↔
      o = if start.rest.isEmpty then some (.nothing start) else none := by
  constructor
  · intro derived
    cases derived
    rfl
  · rintro rfl
    exact .endOfText

theorem derives_rule_iff {rule : Rule} :
    Derives spacing (.one (.rule rule)) start o ↔
      ∃ inside, Derives (rule.innerSpacing spacing) (.one rule.pattern) start inside ∧
        o = inside.map (.ofRule rule spacing start) := by
  constructor
  · intro derived
    cases derived with
    | rule inside => exact ⟨_, inside, rfl⟩
  · rintro ⟨inside, derived, rfl⟩
    exact .rule derived

theorem derives_seq_some_iff {r : Reading} :
    Derives spacing (.one (first ++ second)) start (some r) ↔
      ∃ front back, Derives spacing (.one first) start (some front) ∧
        Derives spacing (.one second) (spacing.gap front.rest) (some back) ∧
        r = front.followedBy back := by
  constructor
  · generalize known : some r = o
    intro derived
    cases derived with
    | seq before after =>
      obtain ⟨back, rfl, same⟩ := Option.map_eq_some_iff.mp known.symm
      exact ⟨_, back, before, after, same.symm⟩
    | seqRefused _ => cases known
  · rintro ⟨front, back, before, after, rfl⟩
    exact .seq before after

end

/-! ## Matching comes to what is derived -/

/-- Where the match is not cut off, it ends as `goal` allows. -/
def Match.Agrees (m : Match) (goal : Option Reading → Prop) : Prop :=
  match m with
  | .success nodes rest _ => ∃ tokens, goal (some ⟨nodes, tokens, rest⟩)
  | .failure _ => goal none
  | .cutOff => True

namespace Match

variable {m : Match} {before goal : Option Reading → Prop}

theorem agrees_ofOption {stop : Option Cursor} {tokens : Cursor → List Token} (attempts : Attempts)
    (same : goal (stop.map fun rest => ⟨[], tokens rest, rest⟩)) :
    (Match.ofOption stop attempts).Agrees goal := by
  cases stop with
  | none => exact same
  | some rest => exact ⟨_, same⟩

theorem Agrees.mono (agrees : m.Agrees before) (allowed : ∀ o, before o → goal o) :
    m.Agrees goal := by
  cases m with
  | success nodes rest attempts =>
    obtain ⟨tokens, found⟩ := agrees
    exact ⟨tokens, allowed _ found⟩
  | failure attempts => exact allowed _ agrees
  | cutOff => trivial

theorem Agrees.andThen {next : Cursor → Attempts → Match} (first : m.Agrees before)
    (refused : before none → goal none)
    (second : ∀ r, before (some r) → ∀ attempts,
      (next r.rest attempts).Agrees fun o => goal (o.map r.followedBy)) :
    (m.andThen next).Agrees goal := by
  cases m with
  | success nodes rest attempts =>
    obtain ⟨tokens, found⟩ := first
    have after := second _ found attempts
    unfold Match.andThen
    dsimp only at after ⊢
    cases known : next rest attempts with
    | success more stop later =>
      rw [known] at after
      obtain ⟨tokens', found'⟩ := after
      exact ⟨_, found'⟩
    | failure later =>
      rw [known] at after
      exact after
    | cutOff => trivial
  | failure attempts => exact refused first
  | cutOff => trivial

theorem Agrees.orElse {next : Attempts → Match} (first : m.Agrees before)
    (found : ∀ r, before (some r) → goal (some r))
    (second : before none → ∀ attempts, (next attempts).Agrees goal) : (m.orElse next).Agrees goal := by
  cases m with
  | success nodes rest attempts =>
    obtain ⟨tokens, derived⟩ := first
    exact ⟨tokens, found _ derived⟩
  | failure attempts => exact second first attempts
  | cutOff => trivial

end Match

section

variable {spacing : Spacing} {item : Pattern} {run : Cursor → Attempts → Match}

/-- Repetitions go on from those that were found before. -/
theorem agrees_repeatMatch
    (agrees : ∀ c attempts, (run c attempts).Agrees (Derives spacing (.one item) (spacing.gap c)))
    (limit : Nat) (found : List Node) (tokens : List Token) (start : Cursor) (attempts : Attempts) :
    (repeatMatch run limit found start attempts).Agrees fun o =>
      ∃ more, Derives spacing (.further item) start more ∧
        o = more.map (Reading.followedBy ⟨found.reverse, tokens, start⟩) := by
  induction limit generalizing found tokens start attempts with
  | zero => trivial
  | succ limit ih =>
    have here := agrees start attempts
    rw [repeatMatch]
    cases known : run start attempts with
    | success nodes rest later =>
      rw [known] at here
      obtain ⟨tokens', derived⟩ := here
      have next := ih (nodes.reverse ++ found) (tokens ++ tokens') rest later
      dsimp only
      cases known' : repeatMatch run limit (nodes.reverse ++ found) rest later with
      | success nodes' rest' later' =>
        rw [known'] at next
        obtain ⟨tokens'', more, derived', same⟩ := next
        refine ⟨tokens'', _, .again derived derived', ?_⟩
        rw [same, Option.map_map]
        congr 1
        funext r
        simp [Reading.followedBy]
      | failure later' =>
        rw [known'] at next
        obtain ⟨more, derived', same⟩ := next
        refine ⟨_, .again derived derived', ?_⟩
        rw [eq_comm, Option.map_eq_none_iff] at same
        rw [same]
        rfl
      | cutOff => trivial
    | failure later =>
      rw [known] at here
      exact ⟨tokens, _, .done here, by simp [Reading.nothing, Reading.followedBy]⟩
    | cutOff => trivial

/-- A pattern comes to what it should if the rules in it do. -/
theorem agrees_run (limit : Nat) {call : RuleMatcher}
    (agrees : ∀ rule spacing c attempts,
      (call rule spacing c attempts).Agrees (Derives spacing (.one (.rule rule)) c))
    (p : Pattern) (start : Cursor) (attempts : Attempts) :
    (p.run limit call spacing start attempts).Agrees (Derives spacing (.one p) start) := by
  induction p generalizing start attempts with
  | text characters => exact Match.agrees_ofOption attempts .text
  | satisfying test => exact Match.agrees_ofOption attempts .satisfying
  | endOfText =>
    rw [Pattern.run]
    split
    · next ended => exact ⟨[], derives_endOfText_iff.mpr (by rw [if_pos ended]; rfl)⟩
    · next more => exact derives_endOfText_iff.mpr (by rw [if_neg more])
  | rule name => exact agrees name spacing start attempts
  | seq first second ihFirst ihSecond =>
    exact (ihFirst start attempts).andThen .seqRefused fun r derived later =>
      (ihSecond (spacing.gap r.rest) later).mono fun o => .seq derived
  | alt first second ihFirst ihSecond =>
    exact (ihFirst start attempts).orElse (fun r => .first) fun refused later =>
      (ihSecond start later).mono fun o => .second refused
  | many item ih =>
    have here := ih start attempts
    rw [Pattern.run]
    cases known : item.run limit call spacing start attempts with
    | success nodes rest later =>
      rw [known] at here
      obtain ⟨tokens, derived⟩ := here
      refine (agrees_repeatMatch (fun c a => ih (spacing.gap c) a) limit nodes.reverse tokens rest
        later).mono ?_
      rintro _ ⟨more, derived', rfl⟩
      rw [List.reverse_reverse]
      exact .many derived derived'
    | failure later =>
      rw [known] at here
      exact ⟨_, .manyNone here⟩
    | cutOff => trivial
  | optional item ih =>
    exact (ih start attempts).orElse (fun r => .optional) fun refused later =>
      ⟨_, .optionalNone refused⟩
  | absent item ih =>
    have here := ih start attempts
    rw [Pattern.run]
    cases known : item.run limit call spacing start attempts with
    | success nodes rest later =>
      rw [known] at here
      obtain ⟨tokens, derived⟩ := here
      exact .absentRefused derived
    | failure later =>
      rw [known] at here
      exact ⟨_, .absent here⟩
    | cutOff => trivial

end

theorem agrees_matchRule (limit depth : Nat) (rule : Rule) (outer : Spacing) (start : Cursor)
    (attempts : Attempts) :
    (matchRule limit depth rule outer start attempts).Agrees
      (Derives outer (.one (.rule rule)) start) := by
  induction depth generalizing rule outer start attempts with
  | zero => trivial
  | succ depth ih =>
    have inside : (rule.pattern.run limit (matchRule limit depth) (rule.innerSpacing outer) start
        attempts).Agrees (Derives (rule.innerSpacing outer) (.one rule.pattern) start) :=
      agrees_run limit ih rule.pattern start attempts
    rw [matchRule]
    cases known : rule.pattern.run limit (matchRule limit depth) (rule.innerSpacing outer) start
        attempts with
    | success nodes rest later =>
      rw [known] at inside
      obtain ⟨tokens, derived⟩ := inside
      have whole := Derives.rule derived
      cases outer <;> exact ⟨_, whole⟩
    | failure later =>
      rw [known] at inside
      exact .rule inside
    | cutOff => trivial

end CheckedScript.Grammar
