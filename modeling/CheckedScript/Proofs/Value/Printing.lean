import CheckedScript.Proofs.Grammar.Finding
import CheckedScript.Proofs.Listing.Words
import CheckedScript.Proofs.Value.Order

/-!
# Printed arrays

The text of an array is read from left to right: the first character of an element tells its kind, its
kind tells where it ends, and what follows is a comma or the closing bracket of the array
(`FloatFree.legible`). So arrays without floats, nested ones included, are told apart by their texts
(`text_array_inj`).
-/

namespace CheckedScript.Value

open Grammar Listing Text

/-! ## Elements -/

/-- What is written for a value inside an array. -/
def elementText : Value → String
  | str s => quoteString s
  | char c => quoteChar c
  | other => other.text

theorem elementTexts_eq_map (vs : List Value) : elementTexts vs = vs.map elementText := by
  induction vs with
  | nil => rfl
  | cons v vs ih =>
    rw [List.map_cons, ← ih]
    cases v <;> rfl

def spelling (v : Value) : List Char := v.elementText.toList

/-- The elements of an array and what separates them. -/
def spellings (vs : List Value) : List Char := [',', ' '].intercalate (vs.map spelling)

theorem spelling_str (s : String) : spelling (str s) = quotedBy '"' s.toList := String.toList_ofList

theorem spelling_char (c : Char) : spelling (char c) = quotedBy '\'' [c] := String.toList_ofList

theorem toList_text_array (vs : List Value) :
    (array vs).text.toList = '[' :: (spellings vs ++ [']']) := by
  have inner : (", ".intercalate (vs.map elementText)).toList = spellings vs := by
    rw [String.toList_intercalate, List.map_map]
    rfl
  rw [text, elementTexts_eq_map, String.toList_append, String.toList_append, inner]
  rfl

theorem spelling_array_append (vs : List Value) (rest : List Char) :
    spelling (array vs) ++ rest = '[' :: (spellings vs ++ ']' :: rest) := by
  have whole : spelling (array vs) = '[' :: (spellings vs ++ [']']) := toList_text_array vs
  rw [whole, List.cons_append, List.append_assoc]
  rfl

/-- What is written behind the first element of an array. -/
def further (vs : List Value) : List Char := vs.flatMap fun v => [',', ' '] ++ v.spelling

theorem spellings_cons (v : Value) (vs : List Value) :
    spellings (v :: vs) = v.spelling ++ further vs :=
  Pattern.intercalate_map_cons [',', ' '] v vs

/-- What may stand behind an element. -/
def EndsElement (rest : List Char) : Prop := rest.head? = some ',' ∨ rest.head? = some ']'

theorem endsElement_further (vs : List Value) (rest : List Char) :
    EndsElement (further vs ++ ']' :: rest) := by
  cases vs with
  | nil => exact .inr rfl
  | cons v vs => exact .inl rfl

/-! ## What an element begins with -/

/-- The kind of the elements that begin with this character. -/
def kindOpenedBy? (c : Char) : Option String :=
  if IsFigure c then some "int"
  else
    match c with
    | '"' => some "str"
    | '\'' => some "char"
    | '[' => some "array"
    | 't' | 'f' => some "bool"
    | _ => none

/-- The first character of an element tells its kind. -/
theorem kindOpenedBy?_head {v : Value} (free : v.FloatFree) (rest : List Char) :
    (v.spelling ++ rest).head?.bind kindOpenedBy? = some v.kindName := by
  cases free with
  | int w =>
    cases figures : spelling (.int w) with
    | nil => exact absurd figures (toString_int_ne_nil w.toInt)
    | cons c tail =>
      have inside : c ∈ spelling (.int w) := figures ▸ List.mem_cons_self
      exact if_pos (isFigure_of_mem_toString c inside)
  | str s =>
    rw [spelling_str]
    rfl
  | char c =>
    rw [spelling_char]
    rfl
  | bool b => cases b <;> rfl
  | array _ =>
    rw [spelling_array_append]
    rfl

theorem kindName_eq_of_spelling {v w : Value} {rest rest' : List Char} (free : v.FloatFree)
    (free' : w.FloatFree) (same : v.spelling ++ rest = w.spelling ++ rest') :
    v.kindName = w.kindName := by
  have kinds := kindOpenedBy?_head free rest
  rw [same, kindOpenedBy?_head free'] at kinds
  exact (Option.some.inj kinds).symm

/-- The bracket that closes an array is not mistaken for an element. -/
theorem closing_ne_spelling {v : Value} (free : v.FloatFree) (rest more : List Char) :
    ']' :: rest ≠ v.spelling ++ more := by
  intro same
  have opened := kindOpenedBy?_head free more
  rw [← same] at opened
  cases opened

/-! ## Reading from left to right -/

/-- The text of the element is the text of no other one, and it tells where it ends. -/
def Legible (v : Value) : Prop :=
  ∀ (w : Value) (rest rest' : List Char), w.FloatFree → EndsElement rest → EndsElement rest' →
    v.spelling ++ rest = w.spelling ++ rest' → v = w ∧ rest = rest'

section

variable {vs ws : List Value} {rest rest' : List Char}

/-- A sign and digits end in front of a comma and of a bracket. -/
theorem integer_append_inj {a b : Word} (ends : EndsElement rest) (ends' : EndsElement rest')
    (same : spelling (int a) ++ rest = spelling (int b) ++ rest') : a = b ∧ rest = rest' := by
  have all (w : Word) : (spelling (int w)).all (fun c => decide (IsFigure c)) = true :=
    List.all_eq_true.mpr fun c inside => decide_eq_true (isFigure_of_mem_toString c inside)
  have ended {rest : List Char} (ends : EndsElement rest) :
      rest.head?.all (fun c => !decide (IsFigure c)) = true := by
    rcases ends with comma | bracket
    · rw [comma]
      decide
    · rw [bracket]
      decide
  have figures := congrArg (List.takeWhile fun c => decide (IsFigure c)) same
  rw [takeWhile_append_ended (all a) (ended ends), takeWhile_append_ended (all b) (ended ends')]
    at figures
  rw [figures] at same
  exact ⟨integerText_inj (String.toList_inj.mp figures), List.append_cancel_left same⟩

theorem further_append_inj (each : ∀ v ∈ vs, v.Legible) (free : ∀ w ∈ ws, w.FloatFree)
    (same : further vs ++ ']' :: rest = further ws ++ ']' :: rest') : vs = ws ∧ rest = rest' := by
  induction vs generalizing ws with
  | nil =>
    cases ws with
    | nil => exact ⟨rfl, (List.cons.inj same).2⟩
    | cons w ws => exact absurd (List.cons.inj same).1 (by decide)
  | cons v vs ih =>
    cases ws with
    | nil => exact absurd (List.cons.inj same).1 (by decide)
    | cons w ws =>
      rw [List.forall_mem_cons] at each free
      simp only [further, List.flatMap_cons, List.append_assoc, List.append_cancel_left_eq] at same
      obtain ⟨rfl, behind⟩ :=
        each.1 w _ _ free.1 (endsElement_further vs rest) (endsElement_further ws rest') same
      obtain ⟨rfl, final⟩ := ih each.2 free.2 behind
      exact ⟨rfl, final⟩

theorem spellings_append_inj (each : ∀ v ∈ vs, v.Legible) (free : ∀ v ∈ vs, v.FloatFree)
    (free' : ∀ w ∈ ws, w.FloatFree)
    (same : spellings vs ++ ']' :: rest = spellings ws ++ ']' :: rest') :
    vs = ws ∧ rest = rest' := by
  cases vs with
  | nil =>
    cases ws with
    | nil => exact ⟨rfl, (List.cons.inj same).2⟩
    | cons w ws =>
      rw [spellings_cons, List.append_assoc] at same
      exact absurd same (closing_ne_spelling (free' w List.mem_cons_self) _ _)
  | cons v vs =>
    rw [List.forall_mem_cons] at each free
    rw [spellings_cons, List.append_assoc] at same
    cases ws with
    | nil => exact absurd same.symm (closing_ne_spelling free.1 _ _)
    | cons w ws =>
      rw [List.forall_mem_cons] at free'
      rw [spellings_cons, List.append_assoc] at same
      obtain ⟨rfl, behind⟩ :=
        each.1 w _ _ free'.1 (endsElement_further vs rest) (endsElement_further ws rest') same
      obtain ⟨rfl, final⟩ := further_append_inj each.2 free'.2 behind
      exact ⟨rfl, final⟩

end

/-- What is written for an element tells the element and where it ends. -/
theorem FloatFree.legible {v : Value} (free : v.FloatFree) : v.Legible := by
  induction free with
  | int a =>
    intro w rest rest' free' ends ends' same
    have kinds := kindName_eq_of_spelling (.int a) free' same
    cases free' with
    | int b =>
      obtain ⟨rfl, behind⟩ := integer_append_inj ends ends' same
      exact ⟨rfl, behind⟩
    | _ => exact absurd kinds (by simp [kindName])
  | str s =>
    intro w rest rest' free' _ _ same
    have kinds := kindName_eq_of_spelling (.str s) free' same
    cases free' with
    | str s' =>
      rw [spelling_str, spelling_str] at same
      obtain ⟨units, behind⟩ := quotedBy_append_inj (.inl rfl) same
      obtain rfl := String.toList_inj.mp units
      exact ⟨rfl, behind⟩
    | _ => exact absurd kinds (by simp [kindName])
  | char c =>
    intro w rest rest' free' _ _ same
    have kinds := kindName_eq_of_spelling (.char c) free' same
    cases free' with
    | char c' =>
      rw [spelling_char, spelling_char] at same
      obtain ⟨units, behind⟩ := quotedBy_append_inj (.inr rfl) same
      obtain rfl := List.singleton_inj.mp units
      exact ⟨rfl, behind⟩
    | _ => exact absurd kinds (by simp [kindName])
  | bool b =>
    intro w rest rest' free' _ _ same
    have kinds := kindName_eq_of_spelling (.bool b) free' same
    cases free' with
    | bool b' =>
      match b, b', same with
      | true, true, same | false, false, same => exact ⟨rfl, List.append_cancel_left same⟩
      | true, false, same | false, true, same => exact absurd (List.cons.inj same).1 (by decide)
    | _ => exact absurd kinds (by simp [kindName])
  | array each ih =>
    intro w rest rest' free' _ _ same
    have kinds := kindName_eq_of_spelling (.array each) free' same
    cases free' with
    | array each' =>
      rw [spelling_array_append, spelling_array_append] at same
      obtain ⟨rfl, behind⟩ := spellings_append_inj ih each each' (List.cons.inj same).2
      exact ⟨rfl, behind⟩
    | _ => exact absurd kinds (by simp [kindName])

/-- Arrays without floats, such as arrays of integers, of texts or of characters, are printed alike
only if they are equal element by element, whatever their texts and characters are. -/
theorem text_array_inj {vs ws : List Value} (free : ∀ v ∈ vs, v.FloatFree)
    (free' : ∀ w ∈ ws, w.FloatFree) : (array vs).text = (array ws).text ↔ vs = ws := by
  refine ⟨fun same => ?_, congrArg fun vs => (array vs).text⟩
  have letters := congrArg String.toList same
  rw [toList_text_array, toList_text_array] at letters
  exact (spellings_append_inj (fun v inside => (free v inside).legible) free free'
    (List.cons.inj letters).2).1

/-- Quotes, commas and brackets inside a text do not make it look like several texts, and what is
written for a control or a combining character is not taken for the characters of an escape. -/
theorem text_array_inj_marksInside :
    let vs := [str "a\", \"b]\\", str "\x01\u0301"]
    let ws := [str "a", str "b]\\", str "\\u\x7b1\x7d\u0301"]
    ((∀ v ∈ vs, v.FloatFree) ∧ ∀ w ∈ ws, w.FloatFree) ∧
      (array vs).text =
        "[\"a\\\", \\\"b]\\\\\", \"\\u\x7b1\x7d\\u\x7b301\x7d\"]" ∧
      (array vs).text ≠ (array ws).text := by
  intro vs ws
  have free : ∀ v ∈ vs, v.FloatFree := by simpa [vs] using ⟨.str _, .str _⟩
  have free' : ∀ w ∈ ws, w.FloatFree := by simpa [ws] using ⟨.str _, .str _, .str _⟩
  refine ⟨⟨free, free'⟩, by decide +kernel, fun same => ?_⟩
  have equal := (text_array_inj free free').mp same
  simp [vs, ws] at equal

end CheckedScript.Value
