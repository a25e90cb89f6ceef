import CheckedScript.Listing.Program
import CheckedScript.Proofs.Listing.Tokens
import Mathlib.Data.List.Forall2

/-!
# The layout of a nested list leaves its tokens alone

Where a list is broken over lines depends on its width and its column; what is read is the same
everywhere (`SExpr.Spells`). A list spells the words of its head and then its items.
-/

namespace CheckedScript.Listing

/-- The text is read as this tree. -/
def Reads (text : String) (t : Tree) : Prop := Writes t.tokens text.toList

/-- The nested list is read as this tree, at whatever column it stands. -/
def SExpr.Spells (e : SExpr) (t : Tree) : Prop := ∀ indent, Reads (e.render indent) t

variable {words : List String} {items : List SExpr} {texts : List String} {trees : List Tree}
  {head separator : String} {tokens : List Token}

theorem isGap_blank : IsGap " ".toList := ⟨by decide, by decide⟩

theorem isGap_lineBreak (indent : Nat) : IsGap (lineBreak indent).toList := by
  rw [lineBreak, String.toList_ofList]
  refine ⟨List.cons_ne_nil _ _, List.forall_mem_cons.mpr ⟨.inr rfl, fun c inside => ?_⟩⟩
  exact .inl (List.eq_of_mem_replicate inside)

theorem isGap_separator (narrow : Bool) (indent : Nat) :
    IsGap (if narrow then " " else lineBreak indent).toList := by
  cases narrow with
  | true => exact isGap_blank
  | false => exact isGap_lineBreak indent

theorem writes_parenthesize {text : String} (inside : Writes tokens text.toList) :
    Writes (.opening :: tokens ++ [.closing]) (parenthesize text).toList := by
  simpa [parenthesize] using inside.parenthesized

theorem writes_words (all : ∀ w ∈ words, IsWord w.toList) (some : words ≠ []) :
    Writes (Tree.listTokens (words.map .word)) (" ".intercalate words).toList := by
  induction words with
  | nil => exact absurd rfl some
  | cons w words ih =>
    rw [List.forall_mem_cons] at all
    cases words with
    | nil => simpa [Tree.listTokens, Tree.tokens] using Writes.one all.1
    | cons v words =>
      have spaced := (Writes.one all.1).spaced isGap_blank (ih all.2 (List.cons_ne_nil _ _))
      simpa [Tree.listTokens, Tree.tokens, String.intercalate_cons_cons] using spaced

/-- Texts that blanks keep apart are read one after the other. -/
theorem writes_foldl (headed : Writes tokens head.toList) (isGap : IsGap separator.toList)
    (inside : List.Forall₂ Reads texts trees) :
    Writes (tokens ++ Tree.listTokens trees)
      (texts.foldl (fun front item => front ++ separator ++ item) head).toList := by
  induction inside generalizing head tokens with
  | nil => simpa [Tree.listTokens] using headed
  | @cons text t texts trees reads _ ih =>
    rw [Tree.listTokens, List.foldl_cons, ← List.append_assoc]
    refine ih ?_
    rw [String.toList_append, String.toList_append]
    exact headed.spaced isGap reads

theorem reads_renderAll (spells : List.Forall₂ SExpr.Spells items trees) (indent : Nat) :
    List.Forall₂ Reads (renderAll indent items) trees := by
  induction spells with
  | nil => exact .nil
  | cons first _ ih => exact .cons (first indent) ih

theorem SExpr.spells_atom {w : String} (isWord : IsWord w.toList) :
    (SExpr.atom w).Spells (.word w) := by
  intro indent
  rw [render]
  exact .one isWord

theorem SExpr.spells_flat (all : ∀ w ∈ words, IsWord w.toList) (some : words ≠ []) :
    (SExpr.flat words).Spells (.list (words.map .word)) := by
  intro indent
  rw [render]
  exact writes_parenthesize (writes_words all some)

/-- A list spells the words of its head, which blanks keep apart, and its items. -/
theorem SExpr.spells_list (headed : head = " ".intercalate words)
    (all : ∀ w ∈ words, IsWord w.toList) (some : words ≠ [])
    (inside : List.Forall₂ SExpr.Spells items trees) :
    (SExpr.list head items).Spells (.list (words.map .word ++ trees)) := by
  intro indent
  rw [render, layout]
  have set := reads_renderAll inside (indent + 2)
  have written := writes_foldl (headed ▸ writes_words all some)
    (isGap_separator (fitsOnLine head (renderAll (indent + 2) items)) (indent + 2)) set
  rw [← Tree.listTokens_append] at written
  exact writes_parenthesize written

/-- What is read as one tree is not read as another. -/
theorem Reads.unique {text : String} {t t' : Tree} (reads : Reads text t) (reads' : Reads text t') :
    t = t' :=
  Tree.tokens_inj (Writes.unique reads reads')

end CheckedScript.Listing
