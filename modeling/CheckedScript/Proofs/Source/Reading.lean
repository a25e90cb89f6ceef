import CheckedScript.Source.Cursor
import CheckedScript.Source.Span

/-!
# Reading on in a text

Whatever reads a text only moves forward in it: `LeadsTo` says that one cursor is found from another
by reading the characters between them, with the position that this reading gives. What lies between
two such cursors is a stretch of the text, whose span `LiesIn` it.
-/

namespace CheckedScript

namespace Position

theorem offset_le_advanceBy (p : Position) (text : List Char) :
    p.offset ≤ (p.advanceBy text).offset := by
  induction text generalizing p with
  | nil => exact Nat.le_refl _
  | cons c text ih =>
    have first : p.offset ≤ (p.advance c).offset := by
      rw [advance_offset]
      exact Nat.le_add_right ..
    exact Nat.le_trans first (ih _)

theorem offset_advanceBy_le_of_prefix (p : Position) {front text : List Char}
    (within : front <+: text) : (p.advanceBy front).offset ≤ (p.advanceBy text).offset := by
  obtain ⟨back, rfl⟩ := within
  rw [advanceBy_append]
  exact offset_le_advanceBy ..

end Position

namespace Cursor

/-- Reading on from the first cursor comes to the second one. -/
def LeadsTo (a b : Cursor) : Prop :=
  ∃ read, a.rest = read ++ b.rest ∧ b.position = a.position.advanceBy read

namespace LeadsTo

variable {a b c : Cursor}

theorem refl (a : Cursor) : a.LeadsTo a := ⟨[], rfl, rfl⟩

theorem trans (first : a.LeadsTo b) (second : b.LeadsTo c) : a.LeadsTo c := by
  obtain ⟨read, rest, place⟩ := first
  obtain ⟨more, rest', place'⟩ := second
  exact ⟨read ++ more, by rw [rest, rest', List.append_assoc],
    by rw [place', place, Position.advanceBy_append]⟩

/-- Reading one character. -/
theorem character (c : Char) (rest : List Char) (p : Position) :
    LeadsTo ⟨c :: rest, p⟩ ⟨rest, p.advance c⟩ :=
  ⟨[c], rfl, rfl⟩

theorem offset_le (reads : a.LeadsTo b) : a.offset ≤ b.offset := by
  obtain ⟨read, -, place⟩ := reads
  rw [offset, offset, place]
  exact Position.offset_le_advanceBy ..

end LeadsTo

theorem leadsTo_of_takeIf {test : Char → Bool} {a b : Cursor} (taken : a.takeIf test = some b) :
    a.LeadsTo b := by
  obtain ⟨_ | ⟨c, rest⟩, p⟩ := a
  · cases taken
  · simp only [takeIf, Option.ite_none_right_eq_some, Option.some.injEq] at taken
    rw [← taken.2]
    exact .character c rest p

theorem leadsTo_of_takeText {text : List Char} {a b : Cursor} (taken : a.takeText text = some b) :
    a.LeadsTo b := by
  induction text generalizing a with
  | nil =>
    rw [takeText] at taken
    cases taken
    exact .refl _
  | cons expected text ih =>
    obtain ⟨_ | ⟨c, rest⟩, p⟩ := a
    · cases taken
    · rw [takeText] at taken
      split at taken
      · exact (LeadsTo.character c rest p).trans (ih taken)
      · cases taken

theorem leadsTo_skipGapFrom (inComment : Bool) (rest : List Char) (p : Position) :
    LeadsTo ⟨rest, p⟩ (skipGapFrom inComment rest p) := by
  induction inComment, rest, p using skipGapFrom.induct with
  | case1 => exact .refl _
  | case2 c rest p ih =>
    rw [skipGapFrom]
    exact (LeadsTo.character c rest p).trans ih
  | case3 c rest p blank ih =>
    unfold skipGapFrom
    rw [if_pos blank]
    exact (LeadsTo.character c rest p).trans ih
  | case4 p rest solid ih =>
    rw [skipGapFrom, if_neg solid]
    exact ((LeadsTo.character '/' _ p).trans (.character '/' rest _)).trans ih
  | case5 p c rest other solid =>
    rw [skipGapFrom.eq_4 p c rest other, if_neg solid]
    exact .refl _

theorem leadsTo_skipGap (a : Cursor) : a.LeadsTo a.skipGap := leadsTo_skipGapFrom false a.rest a.position

/-! ## Reading given characters -/

/-- The cursor behind `read`, the characters that are unread first. -/
def skip (a : Cursor) (read : List Char) : Cursor :=
  ⟨a.rest.drop read.length, a.position.advanceBy read⟩

@[simp] theorem skip_nil (a : Cursor) : a.skip [] = a := rfl

@[simp] theorem rest_skip (a : Cursor) (read : List Char) :
    (a.skip read).rest = a.rest.drop read.length := rfl

theorem skip_append (a : Cursor) (front back : List Char) :
    a.skip (front ++ back) = (a.skip front).skip back := by
  simp only [skip, List.length_append, List.drop_drop, Position.advanceBy_append]

theorem leadsTo_iff {a b : Cursor} : a.LeadsTo b ↔ ∃ read, read <+: a.rest ∧ b = a.skip read := by
  constructor
  · rintro ⟨read, rest, place⟩
    refine ⟨read, ⟨b.rest, rest.symm⟩, ?_⟩
    rw [skip, rest, List.drop_left, ← place]
  · rintro ⟨read, ⟨rest, whole⟩, rfl⟩
    refine ⟨read, ?_, rfl⟩
    rw [rest_skip, ← whole, List.drop_left]

theorem takeIf_eq (test : Char → Bool) (a : Cursor) :
    a.takeIf test = (a.rest.head?.filter test).map fun c => a.skip [c] := by
  obtain ⟨_ | ⟨c, rest⟩, p⟩ := a
  · rfl
  · rw [takeIf]
    split
    · next passes => simp [Option.filter, passes, skip]
    · next fails => simp [Option.filter, fails]

theorem takeText_eq (text : List Char) (a : Cursor) :
    a.takeText text = if text <+: a.rest then some (a.skip text) else none := by
  induction text generalizing a with
  | nil =>
    rw [takeText, if_pos List.nil_prefix]
    rfl
  | cons expected text ih =>
    obtain ⟨_ | ⟨c, rest⟩, p⟩ := a
    · rw [takeText, if_neg (by simp)]
    · rw [takeText, ih]
      by_cases same : c = expected
      · simp [same, List.cons_prefix_cons, skip]
      · rw [if_neg same, if_neg (by simp [List.cons_prefix_cons, Ne.symm same])]

theorem takeBytes_advanceBy (p : Position) (read rest : List Char) :
    takeBytes ((p.advanceBy read).offset - p.offset) (read ++ rest) = read := by
  induction read generalizing p with
  | nil =>
    rw [Position.advanceBy_nil, Nat.sub_self]
    cases rest <;> rfl
  | cons c read ih =>
    have later := ih (p.advance c)
    have behind := Position.offset_le_advanceBy (p.advance c) read
    have wide := c.utf8Size_pos
    rw [Position.advance_offset] at later behind
    rw [Position.advanceBy_cons, List.cons_append]
    obtain ⟨bytes, more⟩ : ∃ bytes, ((p.advance c).advanceBy read).offset - p.offset = bytes + 1 :=
      ⟨((p.advance c).advanceBy read).offset - p.offset - 1, by omega⟩
    rw [more, takeBytes, ← more, Nat.sub_sub, later]

/-- The text up to a cursor is what was read on the way to it. -/
theorem textUpTo_skip {a : Cursor} {read : List Char} (within : read <+: a.rest) :
    a.textUpTo (a.skip read) = read := by
  obtain ⟨rest, whole⟩ := within
  rw [textUpTo, ← whole]
  exact takeBytes_advanceBy a.position read rest

end Cursor

namespace Span

/-- The span covers a stretch of the text from one character to another, and names the line and
column where it begins. -/
def LiesIn (s : Span) (text : List Char) : Prop :=
  ∃ front upTo, front <+: upTo ∧ upTo <+: text ∧
    s = .between (Position.origin.advanceBy front) (Position.origin.advanceBy upTo)

/-- What is read between two places of a text lies in it. -/
theorem liesIn_of_leadsTo {text : List Char} {a b : Cursor} (before : (Cursor.ofText text).LeadsTo a)
    (inside : a.LeadsTo b) : (Span.between a.position b.position).LiesIn text := by
  obtain ⟨front, whole, place⟩ := before
  obtain ⟨read, rest, place'⟩ := inside
  refine ⟨front, front ++ read, List.prefix_append .., ⟨b.rest, ?_⟩, ?_⟩
  · rw [List.append_assoc, ← rest]
    exact whole.symm
  · rw [place', place, Position.advanceBy_append]
    rfl

theorem LiesIn.stop_le {s : Span} {text : List Char} (within : s.LiesIn text) :
    s.stop ≤ (Position.origin.advanceBy text).offset := by
  obtain ⟨front, upTo, -, ends, rfl⟩ := within
  exact Position.offset_advanceBy_le_of_prefix .origin ends

theorem LiesIn.through {a b : Span} {text : List Char} (first : a.LiesIn text)
    (last : b.LiesIn text) : (a.through b).LiesIn text := by
  obtain ⟨front, upTo, begins, ends, rfl⟩ := first
  obtain ⟨front', upTo', -, ends', rfl⟩ := last
  rcases Nat.lt_or_ge (Position.origin.advanceBy upTo).offset
    (Position.origin.advanceBy upTo').offset with further | enough
  · -- What begins before `upTo` ends begins within the longer text.
    have within : front <+: upTo' := by
      rcases List.prefix_or_prefix_of_prefix (begins.trans ends) ends' with here | beyond
      · exact here
      · have short := Position.offset_advanceBy_le_of_prefix .origin (beyond.trans begins)
        omega
    refine ⟨front, upTo', within, ends', ?_⟩
    simp only [Span.through, between, Nat.max_eq_left (Nat.le_of_lt further)]
  · refine ⟨front, upTo, begins, ends, ?_⟩
    simp only [Span.through, between, Nat.max_eq_right enough]

end Span

end CheckedScript
