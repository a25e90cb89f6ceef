import CheckedScript.Source.Cursor

/-!
# Blanks and comments

What the cursor passes over between two tokens, told of the unread text alone. A gap of blanks and
ended comments leaves what stands behind it as it is (`Gap.pastGap_append`), and all that is ever
passed over in front of something else is such a gap (`exists_gap`).
-/

namespace CheckedScript.Cursor

/-- What is left of a text behind the blanks and comments that it begins with; `inComment` says
whether it begins inside of one. -/
def pastGapFrom (inComment : Bool) (text : List Char) : List Char :=
  (skipGapFrom inComment text .origin).rest

def pastGap (text : List Char) : List Char := pastGapFrom false text

theorem rest_skipGapFrom (inComment : Bool) (text : List Char) (p : Position) :
    (skipGapFrom inComment text p).rest = pastGapFrom inComment text := by
  rw [pastGapFrom]
  generalize Position.origin = q
  induction inComment, text, p using skipGapFrom.induct generalizing q with
  | case1 => rw [skipGapFrom, skipGapFrom]
  | case2 p c rest ih =>
    rw [skipGapFrom, skipGapFrom]
    exact ih _
  | case3 p c rest blank ih =>
    unfold skipGapFrom
    rw [if_pos blank, if_pos blank]
    exact ih _
  | case4 p rest solid ih =>
    rw [skipGapFrom, skipGapFrom, if_neg solid, if_neg solid]
    exact ih _
  | case5 p c rest other solid =>
    rw [skipGapFrom.eq_4 p c rest other, skipGapFrom.eq_4 q c rest other, if_neg solid, if_neg solid]

@[simp] theorem rest_skipGap (c : Cursor) : c.skipGap.rest = pastGap c.rest :=
  rest_skipGapFrom false c.rest c.position

section

variable {c : Char} {rest text : List Char}

@[simp] theorem pastGapFrom_nil (inComment : Bool) : pastGapFrom inComment [] = [] := by
  rw [pastGapFrom, skipGapFrom]

@[simp] theorem pastGap_nil : pastGap [] = [] := pastGapFrom_nil false

theorem pastGapFrom_true_cons :
    pastGapFrom true (c :: rest) = pastGapFrom (decide (c ≠ '\n')) rest := by
  rw [pastGapFrom, skipGapFrom, rest_skipGapFrom]

theorem pastGap_blank (blank : isBlank c = true) : pastGap (c :: rest) = pastGap rest := by
  rw [pastGap, pastGapFrom]
  unfold skipGapFrom
  rw [if_pos blank, rest_skipGapFrom, pastGap]

theorem pastGap_slashes : pastGap ('/' :: '/' :: rest) = pastGapFrom true rest := by
  rw [pastGap, pastGapFrom, skipGapFrom, if_neg (by decide), rest_skipGapFrom]

theorem pastGap_solid (solid : isBlank c = false) (other : c = '/' → rest.head? ≠ some '/') :
    pastGap (c :: rest) = c :: rest := by
  rw [pastGap, pastGapFrom, skipGapFrom.eq_4, if_neg (by simp [solid])]
  rintro more rfl rfl
  exact other rfl rfl

/-- A text is passed over character by character, up to what is neither blank nor a comment. -/
@[elab_as_elim]
theorem pastGap_induction {motive : Bool → List Char → Prop}
    (ended : ∀ inComment, motive inComment [])
    (inside : ∀ c rest, motive (decide (c ≠ '\n')) rest → motive true (c :: rest))
    (blank : ∀ c rest, isBlank c = true → motive false rest → motive false (c :: rest))
    (opens : ∀ rest, motive true rest → motive false ('/' :: '/' :: rest))
    (solid : ∀ c rest, isBlank c = false → (c = '/' → rest.head? ≠ some '/') →
      motive false (c :: rest))
    (inComment : Bool) (text : List Char) : motive inComment text := by
  induction inComment, text, Position.origin using skipGapFrom.induct with
  | case1 => exact ended _
  | case2 c rest p ih => exact inside c rest ih
  | case3 c rest p isBlank ih => exact blank c rest isBlank ih
  | case4 p rest _ ih => exact opens rest ih
  | case5 p c rest other isSolid =>
    refine solid c rest (by simpa using isSolid) ?_
    rintro rfl begins
    obtain ⟨more, rfl⟩ := List.head?_eq_some_iff.mp begins
    exact other more rfl rfl

/-- What is left does not begin with a gap again. -/
theorem pastGap_pastGapFrom (inComment : Bool) (text : List Char) :
    pastGap (pastGapFrom inComment text) = pastGapFrom inComment text := by
  induction inComment, text using pastGap_induction with
  | ended inComment => rw [pastGapFrom_nil, pastGap_nil]
  | inside c rest ih => rwa [pastGapFrom_true_cons]
  | blank c rest blank ih => rwa [← pastGap, pastGap_blank blank]
  | opens rest ih => rwa [← pastGap, pastGap_slashes]
  | solid c rest solid other => rw [← pastGap, pastGap_solid solid other, pastGap_solid solid other]

@[simp] theorem pastGap_pastGap (text : List Char) : pastGap (pastGap text) = pastGap text :=
  pastGap_pastGapFrom false text

end

/-- What is left is an end of the text. -/
theorem pastGapFrom_suffix (inComment : Bool) (text : List Char) :
    pastGapFrom inComment text <:+ text := by
  induction inComment, text using pastGap_induction with
  | ended inComment => exact List.suffix_rfl
  | inside c rest ih =>
    rw [pastGapFrom_true_cons]
    exact ih.trans (List.suffix_cons ..)
  | blank c rest blank ih =>
    rw [← pastGap, pastGap_blank blank]
    exact ih.trans (List.suffix_cons ..)
  | opens rest ih =>
    rw [← pastGap, pastGap_slashes]
    exact ih.trans ((List.suffix_cons ..).trans (List.suffix_cons ..))
  | solid c rest solid other =>
    have same : pastGapFrom false (c :: rest) = c :: rest := pastGap_solid solid other
    simp only [same, List.suffix_rfl]

/-- A text that does not begin with a gap. -/
theorem pastGap_eq_self_iff {c : Char} {rest : List Char} :
    pastGap (c :: rest) = c :: rest ↔ isBlank c = false ∧ (c = '/' → rest.head? ≠ some '/') := by
  constructor
  · intro settled
    have long {text : List Char} (same : pastGap (c :: rest) = text) (short : text.length ≤ rest.length) :
        False := by
      rw [settled] at same
      rw [← same, List.length_cons] at short
      omega
    refine ⟨Bool.eq_false_iff.mpr fun blank => ?_, ?_⟩
    · exact long (pastGap_blank blank) (pastGapFrom_suffix false rest).length_le
    · rintro rfl begins
      obtain ⟨more, rfl⟩ := List.head?_eq_some_iff.mp begins
      exact long pastGap_slashes
        (Nat.le_succ_of_le (pastGapFrom_suffix true more).length_le)
  · exact fun both => pastGap_solid both.1 both.2

/-- Blanks, and comments up to the ends of their lines. -/
inductive Gap : List Char → Prop
  | nil : Gap []
  | blank {c : Char} {rest : List Char} : isBlank c = true → Gap rest → Gap (c :: rest)
  | comment {words rest : List Char} :
      '\n' ∉ words → Gap rest → Gap ('/' :: '/' :: (words ++ '\n' :: rest))

section

variable {gap text words : List Char}

/-- A comment lasts up to the end of its line. -/
theorem pastGapFrom_line (line : '\n' ∉ words) :
    pastGapFrom true (words ++ '\n' :: text) = pastGap text := by
  induction words with
  | nil => exact pastGapFrom_true_cons
  | cons c words ih =>
    rw [List.mem_cons, not_or] at line
    rw [List.cons_append, pastGapFrom_true_cons, decide_eq_true (Ne.symm line.1)]
    exact ih line.2

theorem Gap.pastGap_append (isGap : Gap gap) (text : List Char) :
    pastGap (gap ++ text) = pastGap text := by
  induction isGap with
  | nil => rfl
  | blank blank _ ih => exact (pastGap_blank blank).trans ih
  | comment line _ ih =>
    rw [List.cons_append, List.cons_append, pastGap_slashes, List.append_assoc, List.cons_append,
      pastGapFrom_line line, ih]

/-- What is passed over in front of something else is a gap, behind the end of the line if it begins
in a comment. -/
theorem exists_gapFrom (inComment : Bool) (text : List Char)
    (more : pastGapFrom inComment text ≠ []) :
    ∃ words gap, Gap gap ∧ text = words ++ gap ++ pastGapFrom inComment text ∧
      if inComment then ∃ line, '\n' ∉ line ∧ words = line ++ ['\n'] else words = [] := by
  induction inComment, text using pastGap_induction with
  | ended => simp at more
  | inside c rest ih =>
    rw [pastGapFrom_true_cons] at more ⊢
    obtain ⟨words, gap, isGap, same, open'⟩ := ih more
    refine ⟨c :: words, gap, isGap, congrArg _ same, ?_⟩
    rw [if_pos rfl]
    by_cases ends : c = '\n'
    · subst ends
      rw [if_neg (by decide)] at open'
      exact ⟨[], List.not_mem_nil, congrArg _ open'⟩
    · rw [if_pos (decide_eq_true ends)] at open'
      obtain ⟨line, noEnd, rfl⟩ := open'
      exact ⟨c :: line, by simp [noEnd, Ne.symm ends], rfl⟩
  | blank c rest blank ih =>
    rw [← pastGap, pastGap_blank blank] at more ⊢
    obtain ⟨_, gap, isGap, same, rfl⟩ := ih more
    exact ⟨[], c :: gap, .blank blank isGap, congrArg _ same, rfl⟩
  | opens rest ih =>
    rw [← pastGap, pastGap_slashes] at more ⊢
    obtain ⟨words, gap, isGap, same, line, noEnd, rfl⟩ := ih more
    refine ⟨[], _, .comment noEnd isGap, ?_, rfl⟩
    simpa using same
  | solid c rest solid other => exact ⟨[], [], .nil, (pastGap_solid solid other).symm, rfl⟩

theorem exists_gap (more : pastGap text ≠ []) : ∃ gap, Gap gap ∧ text = gap ++ pastGap text := by
  obtain ⟨_, gap, isGap, same, rfl⟩ := exists_gapFrom false text more
  exact ⟨gap, isGap, same⟩

theorem Gap.pastGapFrom_eq_nil (isGap : Gap gap) (inComment : Bool) :
    pastGapFrom inComment gap = [] := by
  cases inComment with
  | false =>
    have alone := isGap.pastGap_append []
    rwa [List.append_nil, pastGap_nil] at alone
  | true =>
    induction isGap with
    | nil => exact pastGapFrom_nil true
    | @blank c rest blank isGap ih =>
      rw [pastGapFrom_true_cons]
      by_cases ends : c = '\n'
      · rw [decide_eq_false (not_not_intro ends)]
        have alone := isGap.pastGap_append []
        rwa [List.append_nil, pastGap_nil] at alone
      · rwa [decide_eq_true ends]
    | @comment words rest line isGap ih =>
      have longer : '\n' ∉ '/' :: '/' :: words := by simp [line]
      have alone := isGap.pastGap_append []
      rw [List.append_nil, pastGap_nil] at alone
      exact Eq.trans (pastGapFrom_line longer) alone

/-- Where nothing but a gap is left, no more is left with a further gap behind it, even if the last
comment is open. -/
theorem Gap.pastGapFrom_append (isGap : Gap gap) (inComment : Bool) (text : List Char)
    (ended : pastGapFrom inComment text = []) : pastGapFrom inComment (text ++ gap) = [] := by
  induction inComment, text using pastGap_induction with
  | ended inComment => exact isGap.pastGapFrom_eq_nil inComment
  | inside c rest ih =>
    rw [pastGapFrom_true_cons] at ended
    rw [List.cons_append, pastGapFrom_true_cons]
    exact ih ended
  | blank c rest blank ih =>
    rw [← pastGap, pastGap_blank blank] at ended
    rw [List.cons_append, ← pastGap, pastGap_blank blank]
    exact ih ended
  | opens rest ih =>
    rw [← pastGap, pastGap_slashes] at ended
    rw [List.cons_append, List.cons_append, ← pastGap, pastGap_slashes]
    exact ih ended
  | solid c rest solid other =>
    rw [← pastGap, pastGap_solid solid other] at ended
    cases ended

end

end CheckedScript.Cursor
