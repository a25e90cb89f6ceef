import CheckedScript.Proofs.Grammar.Alike

/-!
# Filling in blanks and comments

Blanks and comments between two lexemes of a text leave its lexemes as they are, if they begin with a
blank: no lexeme reaches beyond one (`alike_insert`).
-/

namespace CheckedScript.Grammar

open Cursor (Gap pastGap pastGap_eq_self_iff)

section

variable {m m' : Mode} {l l' u w y y' : List Char}

theorem Alike.refl (m : Mode) (l : List Char) : Alike m l l := by
  induction long : l.length using Nat.strongRecOn generalizing m l with
  | ind size ih =>
    by_cases more : ∃ u, Lexeme m l u
    · obtain ⟨u, isLexeme⟩ := more
      obtain ⟨within, some⟩ := isLexeme.within
      refine .lexeme isLexeme isLexeme (ih _ ?_ _ _ rfl)
      have passed := (Cursor.pastGapFrom_suffix false (l.drop u.length)).length_le
      have shorter := List.length_pos_iff.mpr some
      have fits := within.length_le
      rw [List.length_drop] at passed
      show (Cursor.pastGapFrom false _).length < size
      omega
    · rw [not_exists] at more
      exact .stuck more more rfl

theorem Breaks.append (front : List Char) (breaks : Breaks y y') :
    Breaks (front ++ y) (front ++ y') := by
  obtain ⟨same, back, back', rfl, rfl, blank⟩ := breaks
  exact ⟨front ++ same, back, back', by simp, by simp, blank⟩

/-- What does not begin with a gap does not do so either if it is broken off later. -/
theorem Breaks.pastGap_eq_self (breaks : Breaks y y') (some : w ≠ [])
    (settled : pastGap (w ++ y) = w ++ y) : pastGap (w ++ y') = w ++ y' := by
  cases w with
  | nil => exact absurd rfl some
  | cons c w =>
    obtain ⟨solid, other⟩ := pastGap_eq_self_iff.mp settled
    refine pastGap_eq_self_iff.mpr ⟨solid, fun slash begins => other slash ?_⟩
    obtain ⟨more, whole⟩ := List.head?_eq_some_iff.mp begins
    have both := breaks.append w
    rw [show w ++ y' = '/' :: more from whole] at both
    obtain ⟨more', whole', -⟩ := both.uncons (by decide)
    rw [show w.append y = '/' :: more' from whole']
    rfl

/-- A text that is broken off behind a lexeme of it, and whose rest is the same but for the gap in front
of it, has the same lexemes. -/
theorem alike_of_passes (passes : Passes m l m' l') (isLexeme : Lexeme m' l' u)
    (settled : pastGap l = l) (rest : l'.drop u.length = y) (breaks : Breaks y y')
    (same : pastGap y' = pastGap y) : ∃ w, w ≠ [] ∧ l = w ++ y ∧ Alike m l (w ++ y') := by
  induction passes with
  | @here m l =>
    obtain ⟨⟨y, rfl⟩, some⟩ := isLexeme.within
    rw [List.drop_left] at rest
    subst rest
    refine ⟨u, some, rfl, .lexeme isLexeme (isLexeme.breaks breaks) ?_⟩
    rw [List.drop_left, List.drop_left, same]
    exact .refl _ _
  | @step m m' l l' v first passes ih =>
    obtain ⟨w, some, whole, alike⟩ := ih isLexeme (Cursor.pastGap_pastGap _) rest
    obtain ⟨⟨t, rfl⟩, some'⟩ := first.within
    rw [List.drop_left] at whole alike passes
    have more : pastGap t ≠ [] := by
      rw [whole]
      exact fun none => some (List.append_eq_nil_iff.mp none).1
    obtain ⟨gap, isGap, split⟩ := Cursor.exists_gap more
    have settled' : pastGap (w ++ y') = w ++ y' :=
      breaks.pastGap_eq_self some (by rw [← whole, Cursor.pastGap_pastGap])
    rw [whole] at split
    refine ⟨v ++ gap ++ w, by simp [some'], by rw [split]; simp, ?_⟩
    have second : Lexeme m (v ++ (gap ++ w ++ y')) v := first.breaks (by
      rw [split, ← List.append_assoc]
      exact breaks.append _)
    rw [List.append_assoc, List.append_assoc, ← List.append_assoc gap]
    refine .lexeme first second ?_
    rwa [List.drop_left, List.drop_left, List.append_assoc, isGap.pastGap_append, settled']

/-- Where the lexemes end the last of them does, if there is one. -/
theorem Passes.last (passes : Passes m l m' l') :
    l' = l ∨ ∃ n k u, Passes m l n k ∧ Lexeme n k u ∧ l' = pastGap (k.drop u.length) := by
  induction passes with
  | here => exact .inl rfl
  | @step _ _ l _ u first passes ih =>
    right
    rcases ih with rfl | ⟨n, k, v, before, isLexeme, rfl⟩
    · exact ⟨_, l, u, .here, first, rfl⟩
    · exact ⟨n, k, v, .step first before, isLexeme, rfl⟩

end

/-! ## Tokens of a tree -/

mutual

/-- The matches in which no blanks may stand, as they stand in a node from left to right. -/
def Node.tokens : Node → List Token
  | .mk rule start stop children =>
    if rule.spacing = .free then Node.listTokens children else [⟨start, stop⟩]

def Node.listTokens : List Node → List Token
  | [] => []
  | n :: rest => n.tokens ++ Node.listTokens rest

end

theorem Node.listTokens_append (front back : List Node) :
    listTokens (front ++ back) = listTokens front ++ listTokens back := by
  induction front with
  | nil => rfl
  | cons n rest ih => rw [List.cons_append, listTokens, listTokens, ih, List.append_assoc]

/-- A match in which no blanks may stand is a token of what was read. -/
theorem Derives.listTokens_subset {g : Goal} {c : Cursor} {r : Reading}
    (derived : Derives .free g c (some r)) : Node.listTokens r.nodes ⊆ r.tokens := by
  have joined {r more : Reading} (first : Node.listTokens r.nodes ⊆ r.tokens)
      (second : Node.listTokens more.nodes ⊆ more.tokens) :
      Node.listTokens (r.followedBy more).nodes ⊆ (r.followedBy more).tokens := by
    rw [Reading.followedBy, Node.listTokens_append]
    exact List.append_subset.mpr ⟨List.Subset.trans first (List.subset_append_left ..),
      List.Subset.trans second (List.subset_append_right ..)⟩
  generalize spaced : Spacing.free = spacing at derived
  generalize known : some r = o at derived
  induction derived generalizing r with
  | text | satisfying =>
    obtain ⟨rest, -, rfl⟩ := Option.map_eq_some_iff.mp known.symm
    exact List.nil_subset _
  | endOfText =>
    obtain ⟨-, ⟨⟩⟩ := Option.ite_none_right_eq_some.mp known.symm
    exact List.nil_subset _
  | @rule _ rule start inside _ ih =>
    cases spaced
    obtain ⟨inner, rfl, rfl⟩ := Option.map_eq_some_iff.mp known.symm
    rw [Reading.ofRule, if_neg (by decide), Node.listTokens, Node.listTokens, List.append_nil, Node.tokens]
    by_cases free : rule.spacing = .free
    · rw [if_pos free, if_neg fun both => both.2 free]
      exact ih (by rw [Rule.innerSpacing, free]) rfl
    · rw [if_neg free, if_pos ⟨rfl, free⟩]
      exact List.Subset.refl _
  | seq _ _ ihFirst ihSecond | many _ _ ihFirst ihSecond | again _ _ ihFirst ihSecond =>
    obtain ⟨more, rfl, rfl⟩ := Option.map_eq_some_iff.mp known.symm
    exact joined (ihFirst spaced rfl) (ihSecond spaced rfl)
  | first _ ih | optional _ ih =>
    exact ih spaced known
  | second _ _ _ ih => exact ih spaced known
  | manyNone | done | optionalNone | absent =>
    cases known
    exact List.nil_subset _
  | seqRefused | absentRefused => cases known

/-! ## Filling in -/

/-- Blanks and ended comments that begin with a blank. -/
def IsFiller (filler : List Char) : Prop := Gap filler ∧ filler.head?.all Cursor.isBlank = true

/-- The text falls into two between tokens, before the first or behind the last of them. -/
def IsBoundary (text : List Char) (tokens : List Token) (front back : List Char) : Prop :=
  text = front ++ back ∧
    (back = [] ∨ ∃ gap, Gap gap ∧ (front = gap ∨ ∃ t ∈ tokens, t.stop.rest = gap ++ back))

section

variable {text front back filler y y' : List Char}

/-- A text keeps its lexemes if it is broken off behind one of them. -/
theorem alike_of_ends (ends : Ends text y) (breaks : Breaks y y') (same : pastGap y' = pastGap y) :
    ∃ front, text = front ++ y ∧ Alike .fresh (pastGap text) (pastGap (front ++ y')) := by
  obtain ⟨m, l, u, passes, isLexeme, rfl⟩ := ends
  obtain ⟨w, some, whole, alike⟩ :=
    alike_of_passes passes isLexeme (Cursor.pastGap_pastGap text) rfl breaks same
  have more : pastGap text ≠ [] := by
    rw [whole]
    exact fun none => some (List.append_eq_nil_iff.mp none).1
  obtain ⟨gap, isGap, split⟩ := Cursor.exists_gap more
  have settled : pastGap (w ++ y') = w ++ y' :=
    breaks.pastGap_eq_self some (by rw [← whole, Cursor.pastGap_pastGap])
  refine ⟨gap ++ w, by rw [List.append_assoc, ← whole]; exact split, ?_⟩
  rwa [List.append_assoc, isGap.pastGap_append, settled]

/-- A filler between tokens leaves the lexemes as they are. -/
theorem alike_insert {tokens : List Token} (boundary : IsBoundary text tokens front back)
    (isFiller : IsFiller filler) (ends : ∀ t ∈ tokens, Ends text t.stop.rest)
    (whole : Passes .fresh (pastGap text) .fresh []) :
    Alike .fresh (pastGap text) (pastGap (front ++ (filler ++ back))) := by
  obtain ⟨rfl, place⟩ := boundary
  obtain ⟨isGap, blank⟩ := isFiller
  rcases place with rfl | ⟨gap, isGap', rfl | ⟨t, listed, behind⟩⟩
  · rw [List.append_nil] at whole ⊢
    rw [List.append_nil]
    have passed (y : List Char) (ended : pastGap y = []) : pastGap (y ++ filler) = [] :=
      isGap.pastGapFrom_append false y ended
    rcases whole.last with none | ⟨m, l, u, passes, isLexeme, ended⟩
    · rw [← none, passed front none.symm]
      exact .refl _ _
    · have breaks : Breaks (l.drop u.length) (l.drop u.length ++ filler) :=
        ⟨_, [], filler, (List.append_nil _).symm, rfl, blank⟩
      obtain ⟨first, whole, alike⟩ := alike_of_ends ⟨m, l, u, passes, isLexeme, rfl⟩ breaks
        (by rw [passed _ ended.symm, ended])
      rwa [← List.append_assoc, ← whole] at alike
  · rw [isGap'.pastGap_append, isGap'.pastGap_append, isGap.pastGap_append]
    exact .refl _ _
  · cases filler with
    | nil => exact .refl _ _
    | cons c filler =>
      have ends := ends t listed
      rw [behind] at ends
      have breaks : Breaks (gap ++ back) (gap ++ (c :: filler ++ back)) :=
        ⟨gap, back, _, rfl, rfl, blank⟩
      obtain ⟨first, whole, alike⟩ := alike_of_ends ends breaks
        (by rw [isGap'.pastGap_append, isGap'.pastGap_append, isGap.pastGap_append])
      rw [← List.append_assoc] at whole
      rwa [← List.append_assoc, ← List.append_cancel_right whole] at alike

end

end CheckedScript.Grammar
