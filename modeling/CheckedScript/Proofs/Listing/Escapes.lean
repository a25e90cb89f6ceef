import CheckedScript.Parsing.Literal
import CheckedScript.Proofs.Grammar.Scan
import CheckedScript.Text.Quoted
import Mathlib.Tactic.SplitIfs

/-!
# Escapes can be read back

Between quotes, what stands for one character is never the beginning of what stands for another
(`Escaped.append_inj`), and the quote that closes a text cannot be mistaken for a part of it
(`Escaped.unitsOf_append`). So a quoted text tells where it ends and what it quotes
(`quotedBy_append_inj`).
-/

namespace CheckedScript.Text

open Grammar Parsing

/-- The characters that a listing puts around quoted text. -/
def IsQuote (c : Char) : Prop := c = '"' ∨ c = '\''

instance (c : Char) : Decidable (IsQuote c) := inferInstanceAs (Decidable (_ ∨ _))

/-- The first occurrence of a separator splits a text in one way. -/
theorem split_inj {separator : Char} {front front' back back' : List Char}
    (free : separator ∉ front) (free' : separator ∉ front')
    (same : front ++ separator :: back = front' ++ separator :: back') :
    front = front' ∧ back = back' := by
  induction front generalizing front' with
  | nil =>
    cases front' with
    | nil => exact ⟨rfl, (List.cons.inj same).2⟩
    | cons c front' => exact absurd (List.cons.inj same).1 (List.ne_of_not_mem_cons free')
  | cons c front ih =>
    cases front' with
    | nil => exact absurd (List.cons.inj same).1.symm (List.ne_of_not_mem_cons free)
    | cons c' front' =>
      obtain ⟨rfl, rest⟩ := List.cons.inj same
      obtain ⟨rfl, rfl⟩ :=
        ih (List.not_mem_of_not_mem_cons free) (List.not_mem_of_not_mem_cons free') rest
      exact ⟨rfl, rfl⟩

/-! ## Code points -/

theorem digitChar_inj {m n : Nat} (hm : m < 16) (hn : n < 16)
    (same : m.digitChar = n.digitChar) : m = n := by
  have all : ∀ a b : Fin 16, a.val.digitChar = b.val.digitChar → a.val = b.val := by decide
  exact all ⟨m, hm⟩ ⟨n, hn⟩ same

theorem hexDigits_eq (n : Nat) :
    hexDigits n =
      if n < 16 then [n.digitChar] else hexDigits (n / 16) ++ [(n % 16).digitChar] :=
  Nat.toDigits_eq_if (by decide)

theorem hexDigits_ne_nil (n : Nat) : hexDigits n ≠ [] := Nat.toDigits_ne_nil

theorem hexDigits_inj {m n : Nat} (same : hexDigits m = hexDigits n) : m = n := by
  induction m using Nat.strongRecOn generalizing n with
  | ind m ih =>
    rw [hexDigits_eq m, hexDigits_eq n] at same
    split at same <;> split at same
    · next hm hn => exact digitChar_inj hm hn (List.singleton_inj.mp same)
    · exact absurd (List.append_eq_singleton_iff.mp same.symm) (by simp [hexDigits_ne_nil])
    · exact absurd (List.append_eq_singleton_iff.mp same) (by simp [hexDigits_ne_nil])
    · obtain ⟨front, last⟩ := List.append_inj' same rfl
      have quotients := ih (m / 16) (by omega) front
      have remainders := digitChar_inj (Nat.mod_lt m (by decide)) (Nat.mod_lt n (by decide))
        (List.singleton_inj.mp last)
      omega

/-- No hexadecimal digit closes a text or its escape. -/
theorem isPlain_of_mem_hexDigits {quote : Char} (quotes : IsQuote quote) {n : Nat} :
    ∀ c ∈ hexDigits n, isPlain quote c = true ∧ c ≠ '\x7d' := by
  have digit : ∀ a : Fin 16,
      isPlain quote a.val.digitChar = true ∧ a.val.digitChar ≠ '\x7d' := by
    rcases quotes with rfl | rfl <;> decide
  induction n using Nat.strongRecOn with
  | ind n ih =>
    rw [hexDigits_eq]
    split
    · next small => exact List.forall_mem_singleton.mpr (digit ⟨n, small⟩)
    · rw [List.forall_mem_append, List.forall_mem_singleton]
      exact ⟨ih (n / 16) (by omega), digit ⟨n % 16, Nat.mod_lt n (by decide)⟩⟩

/-! ## What stands for a character -/

/-- The characters stand for `c` between two characters `quote`. -/
inductive Escaped (quote c : Char) : List Char → Prop
  | plain : isPlain quote c = true → Escaped quote c [c]
  | letter {l : Char} : escapeValue? l = some c → Escaped quote c ['\\', l]
  | codePoint : Escaped quote c (codePointEscape c)

theorem escaped_escapeChar {quote : Char} (quotes : IsQuote quote) (c : Char) :
    Escaped quote c (escapeChar quote c) := by
  unfold escapeChar
  split_ifs with null tab carriage newline itself hidden
  · exact .letter (by rw [null]; rfl)
  · exact .letter (by rw [tab]; rfl)
  · exact .letter (by rw [carriage]; rfl)
  · exact .letter (by rw [newline]; rfl)
  · refine .letter ?_
    rcases itself with rfl | rfl
    · rfl
    · rcases quotes with rfl | rfl <;> rfl
  · exact .codePoint
  · rw [not_or] at itself
    exact .plain (by simp [isPlain, itself, newline])

theorem escaped_escapeStrict (c : Char) : Escaped '\'' c (escapeStrict c) := by
  unfold escapeStrict
  split_ifs with tab carriage newline itself visible
  · exact .letter (by rw [tab]; rfl)
  · exact .letter (by rw [carriage]; rfl)
  · exact .letter (by rw [newline]; rfl)
  · refine .letter ?_
    rcases itself with rfl | rfl | rfl <;> rfl
  · simp only [not_or] at itself
    exact .plain (by simp [isPlain, itself, newline])
  · exact .codePoint

namespace Escaped

variable {quote c c' : Char} {text text' rest rest' : List Char}

theorem codePointEscape_append_inj
    (same : codePointEscape c ++ rest = codePointEscape c' ++ rest') : c = c' ∧ rest = rest' := by
  have free {c : Char} : '\x7d' ∉ hexDigits c.toNat := fun inside =>
    (isPlain_of_mem_hexDigits (.inl rfl) _ inside).2 rfl
  simp only [codePointEscape, List.append_assoc, List.cons_append, List.nil_append, List.cons.injEq,
    true_and] at same
  obtain ⟨digits, behind⟩ := split_inj free free same
  exact ⟨Char.toNat_inj.mp (hexDigits_inj digits), behind⟩

/-- What stands for one character tells this character and where it ends. -/
theorem append_inj (escaped : Escaped quote c text) (escaped' : Escaped quote c' text')
    (same : text ++ rest = text' ++ rest') : c = c' ∧ rest = rest' := by
  have noUnit : escapeValue? 'u' = none := rfl
  have solid {c : Char} (plain : isPlain quote c = true) : c ≠ '\\' := by
    rintro rfl
    simp [isPlain] at plain
  cases escaped with
  | plain isPlain =>
    cases escaped' with
    | plain _ =>
      cases same
      exact ⟨rfl, rfl⟩
    | letter _ | codePoint => exact absurd (List.cons.inj same).1 (solid isPlain)
  | letter known =>
    cases escaped' with
    | plain isPlain => exact absurd (List.cons.inj same).1.symm (solid isPlain)
    | letter known' =>
      cases same
      exact ⟨Option.some.inj (known.symm.trans known'), rfl⟩
    | codePoint =>
      cases (List.cons.inj (List.cons.inj same).2).1
      rw [noUnit] at known
      cases known
  | codePoint =>
    cases escaped' with
    | plain isPlain => exact absurd (List.cons.inj same).1.symm (solid isPlain)
    | letter known =>
      cases (List.cons.inj (List.cons.inj same).2).1
      rw [noUnit] at known
      cases known
    | codePoint => exact codePointEscape_append_inj same

theorem unitsOf_plain {quote : Char} {plain : List Char} (all : ∀ c ∈ plain, isPlain quote c = true)
    (rest : List Char) : unitsOf quote (plain ++ rest) = plain ++ unitsOf quote rest := by
  induction plain with
  | nil => rfl
  | cons c plain ih =>
    rw [List.forall_mem_cons] at all
    rw [List.cons_append, unitsOf.eq_2, if_pos all.1, ih all.2, List.cons_append]
    rintro _ _ rfl
    simp [isPlain] at all

/-- What stands for a character is read as a whole between the quotes. -/
theorem unitsOf_append (quotes : IsQuote quote) (escaped : Escaped quote c text) :
    unitsOf quote (text ++ rest) = text ++ unitsOf quote rest := by
  cases escaped with
  | plain isPlain => exact unitsOf_plain (List.forall_mem_singleton.mpr isPlain) rest
  | letter _ => rfl
  | codePoint =>
    have plain : ∀ d ∈ '\x7b' :: (hexDigits c.toNat ++ ['\x7d']), isPlain quote d = true := by
      rw [List.forall_mem_cons, List.forall_mem_append, List.forall_mem_singleton]
      refine ⟨?_, fun d digit => (isPlain_of_mem_hexDigits quotes d digit).1, ?_⟩
      all_goals rcases quotes with rfl | rfl <;> decide
    exact congrArg (['\\', 'u'] ++ ·) (unitsOf_plain plain rest)

end Escaped

/-! ## Quoted texts -/

section

variable {quote : Char} {text text' rest rest' : List Char}

/-- The quotes that close a text are those that follow what stands for its characters. -/
theorem unitsOf_quoted (quotes : IsQuote quote) (text rest : List Char) :
    unitsOf quote (text.flatMap (escapeChar quote) ++ quote :: rest) =
      text.flatMap (escapeChar quote) := by
  induction text with
  | nil =>
    rw [List.flatMap_nil, List.nil_append]
    rcases quotes with rfl | rfl <;> rfl
  | cons c text ih =>
    rw [List.flatMap_cons, List.append_assoc,
      (escaped_escapeChar quotes c).unitsOf_append quotes, ih]

theorem escapeChar_ne_nil (quotes : IsQuote quote) (c : Char) : escapeChar quote c ≠ [] := by
  intro none
  have escaped := escaped_escapeChar quotes c
  rw [none] at escaped
  cases escaped

theorem flatMap_escapeChar_inj (quotes : IsQuote quote)
    (same : text.flatMap (escapeChar quote) = text'.flatMap (escapeChar quote)) : text = text' := by
  induction text generalizing text' with
  | nil =>
    cases text' with
    | nil => rfl
    | cons c' text' => simp [escapeChar_ne_nil quotes] at same
  | cons c text ih =>
    cases text' with
    | nil => simp [escapeChar_ne_nil quotes] at same
    | cons c' text' =>
      rw [List.flatMap_cons, List.flatMap_cons] at same
      obtain ⟨rfl, behind⟩ :=
        (escaped_escapeChar quotes c).append_inj (escaped_escapeChar quotes c') same
      rw [ih behind]

/-- A quoted text tells what it quotes and where it ends. -/
theorem quotedBy_append_inj (quotes : IsQuote quote)
    (same : quotedBy quote text ++ rest = quotedBy quote text' ++ rest') :
    text = text' ∧ rest = rest' := by
  simp only [quotedBy, List.cons_append, List.append_assoc, List.nil_append, List.cons.injEq,
    true_and] at same
  have units := congrArg (unitsOf quote) same
  rw [unitsOf_quoted quotes, unitsOf_quoted quotes] at units
  rw [units] at same
  exact ⟨flatMap_escapeChar_inj quotes units, (List.cons.inj (List.append_cancel_left same)).2⟩

theorem quotedBy_inj (quotes : IsQuote quote) (same : quotedBy quote text = quotedBy quote text') :
    text = text' :=
  (quotedBy_append_inj quotes (congrArg (· ++ []) same)).1

theorem quoteString_inj {s s' : String} (same : quoteString s = quoteString s') : s = s' :=
  String.toList_inj.mp (quotedBy_inj (.inl rfl) (String.ofList_injective same))

theorem escapeStrict_inj {c c' : Char} (same : escapeStrict c = escapeStrict c') : c = c' :=
  ((escaped_escapeStrict c).append_inj (escaped_escapeStrict c') (congrArg (· ++ []) same)).1

end

end CheckedScript.Text
