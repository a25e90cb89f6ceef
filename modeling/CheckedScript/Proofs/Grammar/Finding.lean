import CheckedScript.Proofs.Grammar.Lexical
import Mathlib.Data.List.Forall2

/-!
# What is found in a given text

What the grammar reads in a text that is known is found by following its patterns from the outside in:
`Pattern.Finds` says what a pattern leaves and where it stops, `Pattern.Misses` that it is refused, both
where blanks may stand between the parts. Of several alternatives the first that is not refused counts
(`Pattern.finds_of_alternatives`), and a list is found item by item (`Pattern.finds_commaSeparated`).
-/

namespace CheckedScript

/-! ## Gaps in front of a text -/

namespace Cursor

variable {c : Cursor} {gap text : List Char}

/-- A text that begins with something else than a blank or a slash does not begin with a gap. -/
theorem pastGap_of_head (solid : text.head?.all (fun d => !isBlank d && d != '/') = true) :
    pastGap text = text := by
  cases text with
  | nil => exact pastGap_nil
  | cons d rest =>
    rw [List.head?_cons, Option.all_some, Bool.and_eq_true, Bool.not_eq_true', bne_iff_ne] at solid
    exact pastGap_solid solid.1 fun slash => absurd slash solid.2

/-- Behind what is unread first, the rest is unread. -/
theorem rest_skip_of_append {read : List Char} (whole : c.rest = read ++ text) :
    (c.skip read).rest = text := by
  rw [rest_skip, whole, List.drop_left]

theorem rest_skip_of_cons {d : Char} (whole : c.rest = d :: text) : (c.skip [d]).rest = text :=
  rest_skip_of_append whole

theorem skipGap_of_settled (settled : pastGap c.rest = c.rest) : c.skipGap = c := by
  obtain ⟨read, ⟨rest, whole⟩, same⟩ := leadsTo_iff.mp c.leadsTo_skipGap
  have behind := rest_skipGap c
  rw [same, rest_skip, settled, ← whole, List.drop_left, List.self_eq_append_left] at behind
  rw [same, behind, skip_nil]

theorem skipGap_of_gap (isGap : Gap gap) (rest : c.rest = gap ++ text)
    (settled : pastGap text = text) : c.skipGap = c.skip gap := by
  obtain ⟨read, ⟨behind, whole⟩, same⟩ := leadsTo_iff.mp c.leadsTo_skipGap
  have left := rest_skipGap c
  rw [same, rest_skip, ← whole, List.drop_left, whole, rest, isGap.pastGap_append, settled] at left
  rw [left, rest] at whole
  rw [same, List.append_cancel_right whole]

end Cursor

namespace Grammar

open Cursor

/-- Further repetitions of the pattern leave these nodes and stop here. -/
def Pattern.Repeats (item : Pattern) (c : Cursor) (nodes : List Node) (stop : Cursor) : Prop :=
  ∃ tokens, Derives .free (.further item) c (some ⟨nodes, tokens, stop⟩)

/-- The pattern leaves these nodes and stops here, where blanks may stand between its parts. -/
def Pattern.Finds (p : Pattern) (c : Cursor) (nodes : List Node) (stop : Cursor) : Prop :=
  ∃ tokens, Derives .free (.one p) c (some ⟨nodes, tokens, stop⟩)

/-- The pattern is refused, where blanks may stand between its parts. -/
def Pattern.Misses (p : Pattern) (c : Cursor) : Prop := Derives .free (.one p) c none

namespace Pattern

variable {p first second item : Pattern} {c middle stop : Cursor} {nodes more : List Node}
  {s rest : List Char} {name : Rule}

/-! ## One pattern -/

theorem Finds.seq (before : first.Finds c nodes middle) (after : second.Finds middle.skipGap more stop) :
    (first ++ second).Finds c (nodes ++ more) stop := by
  obtain ⟨tokens, derived⟩ := before
  obtain ⟨tokens', derived'⟩ := after
  exact ⟨_, .seq derived derived'⟩

/-- Where no gap is behind the first part, the second one follows at once. -/
theorem Finds.next (before : first.Finds c nodes middle) (settled : pastGap middle.rest = middle.rest)
    (after : second.Finds middle more stop) : (first ++ second).Finds c (nodes ++ more) stop :=
  before.seq ((skipGap_of_settled settled).symm ▸ after)

theorem Misses.seq (refused : first.Misses c) : (first ++ second).Misses c := Derives.seqRefused refused

theorem Finds.seq_misses (before : first.Finds c nodes middle) (refused : second.Misses middle.skipGap) :
    (first ++ second).Misses c := by
  obtain ⟨tokens, derived⟩ := before
  exact Derives.seq derived refused

theorem Finds.left (found : first.Finds c nodes stop) : (first.alt second).Finds c nodes stop := by
  obtain ⟨tokens, derived⟩ := found
  exact ⟨tokens, .first derived⟩

theorem Misses.right (refused : first.Misses c) (found : second.Finds c nodes stop) :
    (first.alt second).Finds c nodes stop := by
  obtain ⟨tokens, derived⟩ := found
  exact ⟨tokens, .second refused derived⟩

theorem Misses.alt (refused : first.Misses c) (refused' : second.Misses c) :
    (first.alt second).Misses c :=
  Derives.second refused refused'

theorem Finds.optional (found : item.Finds c nodes stop) : (optional item).Finds c nodes stop := by
  obtain ⟨tokens, derived⟩ := found
  exact ⟨tokens, .optional derived⟩

theorem Misses.optional (refused : item.Misses c) : (optional item).Finds c [] c :=
  ⟨[], .optionalNone refused⟩

theorem Finds.many (found : item.Finds c nodes middle) (repeated : item.Repeats middle more stop) :
    (many item).Finds c (nodes ++ more) stop := by
  obtain ⟨tokens, derived⟩ := found
  obtain ⟨tokens', derived'⟩ := repeated
  exact ⟨_, .many derived derived'⟩

theorem Misses.many (refused : item.Misses c) : (many item).Finds c [] c := ⟨[], .manyNone refused⟩

theorem Finds.again (found : item.Finds c.skipGap nodes middle) (repeated : item.Repeats middle more stop) :
    item.Repeats c (nodes ++ more) stop := by
  obtain ⟨tokens, derived⟩ := found
  obtain ⟨tokens', derived'⟩ := repeated
  exact ⟨_, .again derived derived'⟩

theorem Misses.done (refused : item.Misses c.skipGap) : item.Repeats c [] c := ⟨[], .done refused⟩

/-- Where no gap is in front, further repetitions are all of them. -/
theorem Repeats.many (repeated : item.Repeats c nodes stop) (settled : c.skipGap = c) :
    (many item).Finds c nodes stop := by
  obtain ⟨tokens, derived⟩ := repeated
  generalize known : some (⟨nodes, tokens, stop⟩ : Reading) = o at derived
  have same : Spacing.free.gap c = c := settled
  cases derived with
  | again before after =>
    rw [same] at before
    exact ⟨tokens, known ▸ .many before after⟩
  | done refused =>
    cases known
    rw [same] at refused
    exact Misses.many refused

theorem finds_text (within : s <+: c.rest) : (text s).Finds c [] (c.skip s) := by
  refine ⟨(Reading.ofTerminal .free c (c.skip s)).tokens, derives_text_iff.mpr ?_⟩
  rw [Cursor.takeText_eq, if_pos within]
  rfl

theorem misses_text (without : ¬ s <+: c.rest) : (text s).Misses c := by
  refine derives_text_iff.mpr ?_
  rw [Cursor.takeText_eq, if_neg without]
  rfl

theorem misses_text_singleton {d : Char} (other : c.rest.head? ≠ some d) : (text [d]).Misses c := by
  refine misses_text ?_
  rintro ⟨rest, whole⟩
  exact other (by rw [← whole]; rfl)

/-! ## One rule -/

theorem Finds.rule (found : name.pattern.Finds c nodes stop) (free : name.spacing = .free) :
    (rule name).Finds c [.mk name c stop nodes] stop := by
  obtain ⟨tokens, derived⟩ := found
  have inner : name.innerSpacing .free = .free := by rw [Rule.innerSpacing, free]
  have inside : Derives (name.innerSpacing .free) (.one name.pattern) c _ := inner ▸ derived
  exact ⟨_, .rule inside⟩

theorem Misses.rule (refused : name.pattern.Misses c) (free : name.spacing = .free) :
    (rule name).Misses c := by
  have inner : name.innerSpacing .free = .free := by rw [Rule.innerSpacing, free]
  have inside : Derives (name.innerSpacing .free) (.one name.pattern) c none := by
    rw [inner]
    exact refused
  have whole : Derives .free (.one (.rule name)) c (none.map (.ofRule name .free c)) := .rule inside
  exact whole

theorem finds_sealed (closed : name.spacing = .sealed) (read : name.scan c.rest = some s) :
    (rule name).Finds c [.mk name c (c.skip s) []] (c.skip s) := by
  have derived := derives_sealed closed .free c
  rw [read] at derived
  exact ⟨_, derived⟩

theorem misses_sealed (closed : name.spacing = .sealed) (refused : name.scan c.rest = none) :
    (rule name).Misses c := by
  have derived := derives_sealed closed .free c
  rw [refused] at derived
  exact derived

section

variable {content : Rule} {quote : Char}

theorem finds_quoted (shape : name.pattern = text [quote] ++ rule content ++ text [quote])
    (tight : name.spacing = .tight) (closed : content.spacing = .sealed)
    (whole : c.rest = quote :: (s ++ quote :: rest)) (read : content.scan (s ++ quote :: rest) = some s) :
    (rule name).Finds c
      [.mk name c (c.skip (quote :: (s ++ [quote])))
        [.mk content (c.skip [quote]) (c.skip (quote :: s)) []]]
      (c.skip (quote :: (s ++ [quote]))) := by
  have derived := derives_quoted shape tight closed .free c
  have known : quotedOf quote content.scan c.rest = some s :=
    (quotedOf_eq_some_iff (content.scans_pattern closed).within).mpr ⟨rest, whole, read⟩
  rw [known] at derived
  exact ⟨_, derived⟩

theorem misses_quoted (shape : name.pattern = text [quote] ++ rule content ++ text [quote])
    (tight : name.spacing = .tight) (closed : content.spacing = .sealed)
    (other : c.rest.head? ≠ some quote) : (rule name).Misses c := by
  have derived := derives_quoted shape tight closed .free c
  have known : quotedOf quote content.scan c.rest = none := by
    refine Option.eq_none_iff_forall_ne_some.mpr fun read found => other ?_
    obtain ⟨behind, whole, -⟩ :=
      (quotedOf_eq_some_iff (content.scans_pattern closed).within).mp found
    rw [whole, List.head?_cons]
  rw [known] at derived
  exact derived

end

/-! ## Several patterns -/

/-- The alternatives of a choice in the order in which they are tried. -/
def alternatives : Pattern → List Pattern
  | alt first second => first.alternatives ++ second.alternatives
  | p => [p]

theorem misses_of_alternatives (refused : ∀ q ∈ p.alternatives, q.Misses c) : p.Misses c := by
  induction p with
  | alt first second ihFirst ihSecond =>
    rw [alternatives, List.forall_mem_append] at refused
    exact (ihFirst refused.1).alt (ihSecond refused.2)
  | _ => exact refused _ (List.mem_singleton_self _)

/-- A choice comes to the alternative before which all others are refused. -/
theorem finds_of_alternatives (before after : List Pattern) {q : Pattern}
    (listed : p.alternatives = before ++ q :: after) (refused : ∀ q ∈ before, q.Misses c)
    (found : q.Finds c nodes stop) : p.Finds c nodes stop := by
  induction p generalizing before after with
  | alt first second ihFirst ihSecond =>
    rw [alternatives] at listed
    rcases List.append_eq_append_iff.mp listed with ⟨extra, rfl, behind⟩ | ⟨extra, whole, behind⟩
    · rw [List.forall_mem_append] at refused
      exact (misses_of_alternatives refused.1).right (ihSecond extra after behind refused.2)
    · cases extra with
      | nil =>
        -- All of the first choice are refused, and what is found leads the second.
        rw [List.append_nil] at whole
        have second := ihSecond [] after behind.symm (List.forall_mem_nil _)
        exact (misses_of_alternatives (whole ▸ refused)).right second
      | cons q' extra =>
        obtain ⟨rfl, -⟩ := List.cons.inj behind
        exact (ihFirst before extra whole refused).left
  | _ =>
    rcases List.singleton_eq_append_iff.mp listed with ⟨rfl, same⟩ | ⟨-, none⟩
    · obtain ⟨rfl, -⟩ := List.cons.inj same
      exact found
    · cases none

theorem misses_of_rules {rules : List Rule} (listed : p.alternatives = rules.map rule)
    (refused : ∀ r ∈ rules, (rule r).Misses c) : p.Misses c :=
  misses_of_alternatives (listed ▸ List.forall_mem_map.mpr refused)

theorem finds_of_rules (before after : List Rule)
    (listed : p.alternatives = (before ++ name :: after).map rule)
    (refused : ∀ r ∈ before, (rule r).Misses c) (found : (rule name).Finds c nodes stop) :
    p.Finds c nodes stop := by
  rw [List.map_append, List.map_cons] at listed
  exact finds_of_alternatives _ _ listed (List.forall_mem_map.mpr refused) found

/-! ## Items between commas -/

section

variable {α : Type} {spell : α → List Char} {gap : List Char} {follows : List Char → Prop}
  {leaves : α → Node → Prop} {xs : List α}

theorem intercalate_map_cons (separator : List Char) (x : α) (xs : List α) :
    separator.intercalate ((x :: xs).map spell) = spell x ++ xs.flatMap fun y => separator ++ spell y := by
  induction xs generalizing x with
  | nil => simp
  | cons y xs ih =>
    rw [List.map_cons, List.map_cons, List.intercalate_cons_cons, ← List.map_cons, ih]
    simp

/-- Each item is found where its text is followed by what may follow it. -/
abbrev FindsEach (item : Pattern) (spell : α → List Char) (follows : List Char → Prop)
    (leaves : α → Node → Prop) (xs : List α) : Prop :=
  ∀ x ∈ xs, ∀ (c : Cursor) (rest : List Char), c.rest = spell x ++ rest → follows rest →
    ∃ n, item.Finds c [n] (c.skip (spell x)) ∧ leaves x n

theorem repeats_behindCommas (each : FindsEach item spell follows leaves xs) (isGap : Gap gap)
    (settled : ∀ x ∈ xs, ∀ rest, pastGap (spell x ++ rest) = spell x ++ rest)
    (comma : ∀ rest, follows (',' :: rest)) (ended : follows rest) (solid : pastGap rest = rest)
    (other : rest.head? ≠ some ',')
    (whole : c.rest = (xs.flatMap fun x => ',' :: gap ++ spell x) ++ rest) :
    ∃ nodes, (word "," ++ item).Repeats c nodes (c.skip (xs.flatMap fun x => ',' :: gap ++ spell x)) ∧
      List.Forall₂ leaves xs nodes := by
  induction xs generalizing c with
  | nil =>
    refine ⟨[], Misses.done (Misses.seq (misses_text_singleton ?_)), .nil⟩
    rwa [rest_skipGap, whole, List.flatMap_nil, List.nil_append, solid]
  | cons x xs ih =>
    obtain ⟨each, later⟩ := List.forall_mem_cons.mp each
    rw [List.forall_mem_cons] at settled
    rw [List.flatMap_cons] at whole ⊢
    generalize others : (xs.flatMap fun x => ',' :: gap ++ spell x) = text at *
    have here : c.rest = ',' :: (gap ++ (spell x ++ (text ++ rest))) := by simp [whole]
    -- A gap may stand before a comma, but here it stands behind it.
    have still : c.skipGap = c := by
      refine skipGap_of_settled ?_
      rw [here]
      exact pastGap_solid (by decide) nofun
    have behind : (c.skip [',']).skipGap = (c.skip [',']).skip gap :=
      skipGap_of_gap isGap (rest_skip_of_cons here) (settled.1 _)
    obtain ⟨n, found, left⟩ := each ((c.skip [',']).skip gap) (text ++ rest)
      (by rw [rest_skip, rest_skip, here]; simp) (by
        cases xs with
        | nil => rwa [← others]
        | cons y ys => rw [← others]; exact comma _)
    rw [← behind] at found
    have first : (word "," ++ item).Finds c.skipGap ([] ++ [n])
        ((c.skip [',']).skipGap.skip (spell x)) := by
      rw [still]
      exact (finds_text ⟨_, here.symm⟩).seq found
    obtain ⟨nodes, repeated, all⟩ := ih later settled.2 (c := c.skip (',' :: gap ++ spell x)) (by
      rw [rest_skip, here]
      simp [List.drop_append])
    refine ⟨n :: nodes, ?_, .cons left all⟩
    rw [behind, ← skip_append, ← skip_append] at first
    rw [skip_append]
    exact first.again repeated

/-- One item alone is a list. -/
theorem finds_single (found : item.Finds c nodes stop) (solid : pastGap stop.rest = stop.rest)
    (other : stop.rest.head? ≠ some ',') : (commaSeparated item).Finds c nodes stop := by
  have refused : (word "," ++ item).Misses stop := .seq (misses_text_singleton other)
  have whole := found.next solid refused.many
  rwa [List.append_nil] at whole

/-- A list is found item by item. -/
theorem finds_commaSeparated (each : FindsEach item spell follows leaves xs) (isGap : Gap gap)
    (settled : ∀ x ∈ xs, ∀ rest, pastGap (spell x ++ rest) = spell x ++ rest)
    (comma : ∀ rest, follows (',' :: rest)) (ended : follows rest) (solid : pastGap rest = rest)
    (other : rest.head? ≠ some ',') (some : xs ≠ [])
    (whole : c.rest = (',' :: gap).intercalate (xs.map spell) ++ rest) :
    ∃ nodes, (commaSeparated item).Finds c nodes (c.skip ((',' :: gap).intercalate (xs.map spell))) ∧
      List.Forall₂ leaves xs nodes := by
  obtain ⟨x, xs, rfl⟩ := List.exists_cons_of_ne_nil some
  obtain ⟨each, later⟩ := List.forall_mem_cons.mp each
  rw [List.forall_mem_cons] at settled
  rw [intercalate_map_cons] at whole ⊢
  rw [List.append_assoc] at whole
  obtain ⟨n, found, left⟩ := each c _ whole (by
    cases xs with
    | nil => exact ended
    | cons y ys => exact comma _)
  have behind : (c.skip (spell x)).rest = (xs.flatMap fun x => ',' :: gap ++ spell x) ++ rest :=
    rest_skip_of_append whole
  have still : (c.skip (spell x)).skipGap = c.skip (spell x) := by
    refine skipGap_of_settled ?_
    rw [behind]
    cases xs with
    | nil => exact solid
    | cons y ys => exact pastGap_solid (by decide) nofun
  obtain ⟨nodes, repeated, all⟩ :=
    repeats_behindCommas later isGap settled.2 comma ended solid other behind
  refine ⟨n :: nodes, ?_, .cons left all⟩
  rw [skip_append]
  exact found.seq (still.symm ▸ repeated.many still)

end

end Pattern

end Grammar

end CheckedScript
