import CheckedScript.Proofs.Listing.Escapes

/-!
# The words of a nested list

A text of nested lists is read as parentheses and words, with any number of blanks and line breaks
between them (`Writes`). A text reads as one sequence of tokens only (`Writes.unique`), and these
tokens are those of one tree only (`Tree.tokens_inj`).
-/

namespace CheckedScript.Listing

open Text Grammar

/-! ## Words -/

/-- What is asked of every character of a text is tried on these alone, and not on every character
there is. -/
scoped instance (priority := 2000) decidableForallMem {p : Char → Prop} [DecidablePred p] (text : List Char) :
    Decidable (∀ c ∈ text, p c) := List.decidableBAll p text

/-- What may stand between two words. -/
def IsBlank (c : Char) : Prop := c = ' ' ∨ c = '\n'

instance (c : Char) : Decidable (IsBlank c) := inferInstanceAs (Decidable (_ ∨ _))

/-- Blanks that keep two words apart. -/
structure IsGap (gap : List Char) : Prop where
  some : gap ≠ []
  blank : ∀ c ∈ gap, IsBlank c

/-- A character that may open a word. -/
def IsSolid (c : Char) : Prop := ¬ IsBlank c ∧ c ≠ '(' ∧ c ≠ ')'

instance (c : Char) : Decidable (IsSolid c) := inferInstanceAs (Decidable (_ ∧ _))

/-- The word that a text begins with: a quoted text, or all up to a blank or a parenthesis. -/
def wordOf : List Char → List Char
  | [] => []
  | c :: rest =>
    if IsQuote c then c :: unitsOf c rest ++ [c]
    else (c :: rest).takeWhile fun d => decide (IsSolid d)

/-- A word may end in front of this text. -/
def Ended (rest : List Char) : Prop := ∀ c ∈ rest.head?, IsBlank c ∨ c = ')'

/-- The text is a word, wherever it may end. -/
structure IsWord (text : List Char) : Prop where
  solid : text.head?.any (fun c => decide (IsSolid c)) = true
  alone : ∀ rest, Ended rest → wordOf (text ++ rest) = text

section

variable {text rest rest' : List Char} {c : Char}

theorem ended_nil : Ended [] := nofun

theorem ended_cons : Ended (c :: rest) ↔ IsBlank c ∨ c = ')' :=
  ⟨fun ended => ended c rfl, fun here _ same => Option.some.inj same ▸ here⟩

theorem Ended.append (first : Ended rest) (second : Ended rest') : Ended (rest ++ rest') := by
  cases rest with
  | nil => exact second
  | cons c rest => exact ended_cons.mpr (ended_cons.mp first)

theorem not_isSolid_of_ended (ended : Ended (c :: rest)) : ¬ IsSolid c := by
  rintro ⟨noBlank, -, noClosing⟩
  exact (ended_cons.mp ended).elim noBlank noClosing

/-- A word does not begin like anything else. -/
theorem IsWord.append_ne (isWord : IsWord text) (other : ¬ IsSolid c) :
    text ++ rest ≠ c :: rest' := by
  rintro same
  have solid := isWord.solid
  cases text with
  | nil => cases solid
  | cons d text =>
    cases (List.cons.inj same).1
    exact other (by simpa using solid)

theorem IsWord.ne_nil (isWord : IsWord text) : text ≠ [] := by
  rintro rfl
  cases isWord.solid

/-- A text without quotes, blanks and parentheses is a word. -/
theorem isWord_of_bare (some : text ≠ []) (all : ∀ c ∈ text, IsSolid c ∧ ¬ IsQuote c) :
    IsWord text := by
  cases text with
  | nil => exact absurd rfl some
  | cons c text =>
    refine ⟨by simpa using (all c List.mem_cons_self).1, fun rest ended => ?_⟩
    have solid : ∀ d ∈ c :: text, decide (IsSolid d) = true := fun d inside =>
      decide_eq_true (all d inside).1
    have stops : rest.takeWhile (fun d => decide (IsSolid d)) = [] := by
      cases rest with
      | nil => rfl
      | cons d rest =>
        exact List.takeWhile_cons_of_neg (by simpa using not_isSolid_of_ended ended)
    rw [List.cons_append, wordOf, if_neg (all c List.mem_cons_self).2, ← List.cons_append,
      List.takeWhile_append_of_pos solid, stops, List.append_nil]

theorem isSolid_of_isQuote (quotes : IsQuote c) : IsSolid c := by
  rcases quotes with rfl | rfl <;> decide

/-- Text between quotes is a word if nothing in it closes the quotes. -/
theorem isWord_of_quoted (quotes : IsQuote c) (content : List Char)
    (inside : ∀ rest, unitsOf c (content ++ c :: rest) = content) :
    IsWord (c :: content ++ [c]) := by
  refine ⟨by simpa using isSolid_of_isQuote quotes, fun rest _ => ?_⟩
  rw [List.append_assoc, List.cons_append, List.singleton_append, wordOf, if_pos quotes, inside]

end

/-! ## Texts as tokens -/

inductive Token where
  | opening
  | closing
  | word (text : String)
deriving DecidableEq

/-- The text is read as these tokens. -/
inductive Writes : List Token → List Char → Prop
  | done : Writes [] []
  | blank {tokens : List Token} {text : List Char} {c : Char} :
      IsBlank c → Writes tokens text → Writes tokens (c :: text)
  | opening {tokens : List Token} {text : List Char} :
      Writes tokens text → Writes (.opening :: tokens) ('(' :: text)
  | closing {tokens : List Token} {text : List Char} :
      Writes tokens text → Writes (.closing :: tokens) (')' :: text)
  | word {tokens : List Token} {w : String} {text : List Char} :
      IsWord w.toList → Ended text → Writes tokens text →
      Writes (.word w :: tokens) (w.toList ++ text)

namespace Writes

variable {tokens more : List Token} {text later gap : List Char}

/-- A text is read in one way. -/
theorem unique (one : Writes tokens text) (other : Writes more text) : tokens = more := by
  have blank {c : Char} (isBlank : IsBlank c) : ¬ IsSolid c := fun solid => solid.1 isBlank
  have opens : ¬ IsSolid '(' ∧ ¬ IsBlank '(' := by decide
  have closes : ¬ IsSolid ')' ∧ ¬ IsBlank ')' := by decide
  generalize same : text = text' at other
  induction one generalizing more text' with
  | done =>
    cases other with
    | done => rfl
    | word isWord _ _ => exact absurd same.symm (by simp [isWord.ne_nil])
    | blank | opening | closing => cases same
  | blank isBlank _ ih =>
    cases other with
    | blank _ after => exact ih _ (List.cons.inj same).2 after
    | opening _ => exact absurd ((List.cons.inj same).1 ▸ isBlank) opens.2
    | closing _ => exact absurd ((List.cons.inj same).1 ▸ isBlank) closes.2
    | word isWord _ _ => exact absurd same.symm (isWord.append_ne (blank isBlank))
    | done => cases same
  | opening _ ih =>
    cases other with
    | opening after => rw [ih _ (List.cons.inj same).2 after]
    | blank isBlank _ => exact absurd ((List.cons.inj same).1 ▸ isBlank) opens.2
    | word isWord _ _ => exact absurd same.symm (isWord.append_ne opens.1)
    | done | closing => cases same
  | closing _ ih =>
    cases other with
    | closing after => rw [ih _ (List.cons.inj same).2 after]
    | blank isBlank _ => exact absurd ((List.cons.inj same).1 ▸ isBlank) closes.2
    | word isWord _ _ => exact absurd same.symm (isWord.append_ne closes.1)
    | done | opening => cases same
  | @word tokens w text isWord ended _ ih =>
    cases other with
    | @word _ w' text' isWord' ended' after =>
      have words : w.toList = w'.toList := by
        rw [← isWord.alone text ended, same, isWord'.alone text' ended']
      rw [words, List.append_cancel_left_eq] at same
      rw [String.toList_inj.mp words, ih _ same after]
    | blank isBlank _ => exact absurd same (isWord.append_ne (blank isBlank))
    | opening _ => exact absurd same (isWord.append_ne opens.1)
    | closing _ => exact absurd same (isWord.append_ne closes.1)
    | done => exact absurd same (by simp [isWord.ne_nil])

theorem append (first : Writes tokens text) (second : Writes more later) (ended : Ended later) :
    Writes (tokens ++ more) (text ++ later) := by
  induction first with
  | done => exact second
  | blank isBlank _ ih => exact .blank isBlank ih
  | opening _ ih => exact .opening ih
  | closing _ ih => exact .closing ih
  | word isWord here _ ih =>
    rw [List.append_assoc]
    exact .word isWord (here.append ended) ih

theorem blanks (all : ∀ c ∈ gap, IsBlank c) (after : Writes tokens text) :
    Writes tokens (gap ++ text) := by
  induction gap with
  | nil => exact after
  | cons c gap ih =>
    rw [List.forall_mem_cons] at all
    exact .blank all.1 (ih all.2)

/-- Blanks between two texts keep their words apart. -/
theorem spaced (first : Writes tokens text) (isGap : IsGap gap) (second : Writes more later) :
    Writes (tokens ++ more) (text ++ gap ++ later) := by
  rw [List.append_assoc]
  refine first.append (second.blanks isGap.blank) ?_
  cases gap with
  | nil => exact absurd rfl isGap.some
  | cons c gap => exact ended_cons.mpr (.inl (isGap.blank c List.mem_cons_self))

theorem parenthesized (inside : Writes tokens text) :
    Writes (.opening :: tokens ++ [.closing]) ('(' :: text ++ [')']) :=
  .opening (inside.append (.closing .done) (ended_cons.mpr (.inr rfl)))

theorem one {w : String} (isWord : IsWord w.toList) : Writes [.word w] w.toList := by
  have alone := Writes.word isWord ended_nil .done
  rwa [List.append_nil] at alone

end Writes

/-! ## Trees -/

/-- A nested list without its layout. -/
inductive Tree where
  | word (text : String)
  | list (items : List Tree)

namespace Tree

mutual

def tokens : Tree → List Token
  | word text => [.word text]
  | list items => .opening :: listTokens items ++ [.closing]

def listTokens : List Tree → List Token
  | [] => []
  | t :: rest => t.tokens ++ listTokens rest

end

@[simp] theorem listTokens_append (ts us : List Tree) :
    listTokens (ts ++ us) = listTokens ts ++ listTokens us := by
  induction ts with
  | nil => rfl
  | cons t ts ih => rw [List.cons_append, listTokens, listTokens, ih, List.append_assoc]

theorem tokens_append_ne_closing (t : Tree) (more rest : List Token) :
    t.tokens ++ more ≠ .closing :: rest := by
  cases t <;> simp [tokens]

mutual

/-- The tokens of a tree tell the tree and where it ends. -/
theorem tokens_append_inj : (t t' : Tree) → {rest rest' : List Token} →
    t.tokens ++ rest = t'.tokens ++ rest' → t = t' ∧ rest = rest'
  | word _, word _, _, _, same => by
    simp only [tokens, List.cons_append, List.nil_append, List.cons.injEq, Token.word.injEq] at same
    exact ⟨congrArg word same.1, same.2⟩
  | list items, list items', _, _, same => by
    simp only [tokens, List.cons_append, List.append_assoc, List.nil_append, List.cons.injEq,
      true_and] at same
    obtain ⟨rfl, rest⟩ := listTokens_append_inj items items' same
    exact ⟨rfl, rest⟩
  | word _, list _, _, _, same => by simp [tokens] at same
  | list _, word _, _, _, same => by simp [tokens] at same

theorem listTokens_append_inj : (ts ts' : List Tree) → {rest rest' : List Token} →
    listTokens ts ++ .closing :: rest = listTokens ts' ++ .closing :: rest' →
    ts = ts' ∧ rest = rest'
  | [], [], _, _, same => ⟨rfl, (List.cons.inj same).2⟩
  | [], t' :: ts', _, _, same => by
    rw [listTokens, listTokens, List.append_assoc] at same
    exact absurd same.symm (t'.tokens_append_ne_closing _ _)
  | t :: ts, [], _, _, same => by
    rw [listTokens, listTokens, List.append_assoc] at same
    exact absurd same (t.tokens_append_ne_closing _ _)
  | t :: ts, t' :: ts', _, _, same => by
    rw [listTokens, listTokens, List.append_assoc, List.append_assoc] at same
    obtain ⟨rfl, later⟩ := tokens_append_inj t t' same
    obtain ⟨rfl, rest⟩ := listTokens_append_inj ts ts' later
    exact ⟨rfl, rest⟩

end

theorem tokens_inj {t t' : Tree} (same : t.tokens = t'.tokens) : t = t' :=
  (tokens_append_inj t t' (congrArg (· ++ []) same)).1

end Tree

end CheckedScript.Listing
