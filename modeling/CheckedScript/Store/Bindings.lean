/-!
# Bindings

Names bound to things, in the order in which they were bound. A name is found at its first place,
and binding a name again keeps that place.
-/

namespace CheckedScript

abbrev Bindings (α : Type) := List (String × α)

namespace Bindings

variable {α β : Type}

def find? (name : String) : Bindings α → Option α
  | [] => none
  | (n, a) :: rest => if n = name then some a else find? name rest

def contains (bs : Bindings α) (name : String) : Bool := (find? name bs).isSome

def names (bs : Bindings α) : List String := bs.map Prod.fst

/-- Binds a new name after all others. -/
def append (bs : Bindings α) (name : String) (a : α) : Bindings α := bs ++ [(name, a)]

/-- Binds `name` to something else, in its old place if it was bound. -/
def insert (name : String) (a : α) : Bindings α → Bindings α
  | [] => [(name, a)]
  | (n, b) :: rest => if n = name then (n, a) :: rest else (n, b) :: insert name a rest

/-- Changes what `name` is bound to. -/
def modify (name : String) (f : α → α) : Bindings α → Bindings α
  | [] => []
  | (n, a) :: rest => if n = name then (n, f a) :: rest else (n, a) :: modify name f rest

def erase (name : String) : Bindings α → Bindings α
  | [] => []
  | (n, a) :: rest => if n = name then rest else (n, a) :: erase name rest

/-- Binds the given names one after the other. -/
def ofPairs (pairs : List (String × α)) : Bindings α :=
  pairs.foldl (fun bs pair => insert pair.1 pair.2 bs) []

def mapValues (f : α → β) (bs : Bindings α) : Bindings β := bs.map fun (n, a) => (n, f a)

theorem names_modify (name : String) (f : α → α) (bs : Bindings α) :
    names (modify name f bs) = names bs := by
  induction bs with
  | nil => rfl
  | cons b rest ih =>
    unfold modify
    split
    · rfl
    · simpa [names] using ih

theorem names_append (bs : Bindings α) (name : String) (a : α) :
    names (append bs name a) = names bs ++ [name] := by
  simp [names, append]

theorem contains_eq_true_iff {bs : Bindings α} {name : String} :
    contains bs name = true ↔ name ∈ names bs := by
  induction bs with
  | nil => simp [contains, find?, names]
  | cons b rest ih =>
    unfold contains names at *
    by_cases h : b.1 = name
    · simp [find?, h]
    · have other : ¬ name = b.1 := fun e => h e.symm
      simpa [find?, h, other] using ih

theorem find?_modify_self (name : String) (f : α → α) (bs : Bindings α) :
    find? name (modify name f bs) = (find? name bs).map f := by
  induction bs with
  | nil => rfl
  | cons b rest ih =>
    by_cases h : b.1 = name
    · simp [modify, find?, h]
    · simpa [modify, find?, h] using ih

theorem find?_modify_of_ne {name other : String} (different : other ≠ name) (f : α → α)
    (bs : Bindings α) : find? other (modify name f bs) = find? other bs := by
  induction bs with
  | nil => rfl
  | cons b rest ih =>
    by_cases h : b.1 = name
    · have unequal : ¬ b.1 = other := fun e => different (e.symm.trans h)
      simp [modify, find?, h, h ▸ unequal]
    · by_cases found : b.1 = other
      · simp [modify, find?, found, different]
      · simpa [modify, find?, h, found] using ih

end Bindings

end CheckedScript
