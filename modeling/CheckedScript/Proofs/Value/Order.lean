import CheckedScript.Proofs.Value.Typing

/-!
# The order of values

On values without floats the comparison is an order as far as it is defined: it compares equal what is
equal, turns around with its operands, and is defined and transitive along ascending values. Values of
one type all have their place in it, and the comparison operators ask for nothing else
(`compare?_coherent`).
-/

namespace CheckedScript.Value

/-- Integers, texts, characters, truth values, and arrays of such values, mixed ones included. -/
inductive FloatFree : Value → Prop
  | int (w : Word) : FloatFree (.int w)
  | str (text : String) : FloatFree (.str text)
  | char (c : Char) : FloatFree (.char c)
  | bool (b : Bool) : FloatFree (.bool b)
  | array {elements : List Value} (each : ∀ v ∈ elements, FloatFree v) : FloatFree (.array elements)

/-- Along ascending values the order is defined, and strict where one of the steps is. -/
def Ascends (v : Value) : Prop :=
  ∀ w u : Value, w.FloatFree → u.FloatFree → ∀ order order' : Ordering,
    v.compare? w = some order → order ≠ .gt → w.compare? u = some order' → order' ≠ .gt →
    v.compare? u = some (order.then order')

/-! ## Elements of arrays -/

section

variable {v w : Value} {vs ws us : List Value} {order order' : Ordering}

/-- The first elements decide unless they are equal. -/
theorem compareElements?_cons_eq_some_iff :
    compareElements? (v :: vs) (w :: ws) = some order ↔
      (v.compare? w = some .eq ∧ compareElements? vs ws = some order) ∨
        (v.compare? w = some order ∧ order ≠ .eq) := by
  rw [compareElements?]
  split
  · next equal =>
    rw [equal]
    constructor
    · exact fun known => .inl ⟨rfl, known⟩
    · rintro (⟨-, known⟩ | ⟨⟨⟩, unequal⟩)
      · exact known
      · exact absurd rfl unequal
  · next unequal =>
    constructor
    · intro known
      refine .inr ⟨known, ?_⟩
      rintro rfl
      exact unequal known
    · rintro (⟨equal, -⟩ | ⟨known, -⟩)
      · exact absurd equal unequal
      · exact known

theorem compareElements?_eq_some_eq_iff
    (each : ∀ v ∈ vs, ∀ w : Value, w.FloatFree → (v.compare? w = some .eq ↔ v = w))
    (free : ∀ w ∈ ws, w.FloatFree) : compareElements? vs ws = some .eq ↔ vs = ws := by
  induction vs generalizing ws with
  | nil => cases ws <;> simp [compareElements?]
  | cons v vs ih =>
    cases ws with
    | nil => simp [compareElements?]
    | cons w ws =>
      rw [List.forall_mem_cons] at each free
      rw [compareElements?_cons_eq_some_iff, each.1 w free.1, ih each.2 free.2, List.cons.injEq]
      simp

theorem beqElements_iff (each : ∀ v ∈ vs, ∀ w : Value, beq v w = true ↔ v = w) :
    beqElements vs ws = true ↔ vs = ws := by
  induction vs generalizing ws with
  | nil => cases ws <;> simp [beqElements]
  | cons v vs ih =>
    cases ws with
    | nil => simp [beqElements]
    | cons w ws =>
      rw [List.forall_mem_cons] at each
      rw [beqElements, Bool.and_eq_true, each.1, ih each.2, List.cons.injEq]

theorem compareElements?_swap
    (each : ∀ v ∈ vs, ∀ w : Value, w.FloatFree → w.compare? v = (v.compare? w).map Ordering.swap)
    (free : ∀ w ∈ ws, w.FloatFree) :
    compareElements? ws vs = (compareElements? vs ws).map Ordering.swap := by
  induction vs generalizing ws with
  | nil => cases ws <;> rfl
  | cons v vs ih =>
    cases ws with
    | nil => rfl
    | cons w ws =>
      rw [List.forall_mem_cons] at each free
      rw [compareElements?, compareElements?, each.1 w free.1]
      cases v.compare? w with
      | none => rfl
      | some order =>
        cases order with
        | eq => exact ih each.2 free.2
        | lt | gt => rfl

theorem compareElements?_then (ascends : ∀ v ∈ vs, v.Ascends) (free : ∀ w ∈ ws, w.FloatFree)
    (free' : ∀ u ∈ us, u.FloatFree) (first : compareElements? vs ws = some order)
    (rises : order ≠ .gt) (second : compareElements? ws us = some order') (rises' : order' ≠ .gt) :
    compareElements? vs us = some (order.then order') := by
  induction vs generalizing ws us with
  | nil =>
    cases ws with
    | nil =>
      cases first
      exact second
    | cons w ws =>
      cases first
      cases us with
      | nil =>
        cases second
        exact absurd rfl rises'
      | cons u us => rfl
  | cons v vs ih =>
    cases ws with
    | nil =>
      cases first
      exact absurd rfl rises
    | cons w ws =>
      cases us with
      | nil =>
        cases second
        exact absurd rfl rises'
      | cons u us =>
        rw [List.forall_mem_cons] at ascends free free'
        have here := ascends.1 w u free.1 free'.1
        -- A first element that differs stands in strict order, whatever follows.
        have strict {o : Ordering} (rises : o ≠ .gt) (unequal : o ≠ .eq) (more : Ordering) :
            o.then more = o := by
          cases o with
          | lt => rfl
          | eq => exact absurd rfl unequal
          | gt => exact absurd rfl rises
        rw [compareElements?_cons_eq_some_iff] at first second ⊢
        rcases first with ⟨equal, behind⟩ | ⟨differs, unequal⟩
        · rcases second with ⟨equal', behind'⟩ | ⟨differs', unequal'⟩
          · exact .inl ⟨here _ _ equal nofun equal' nofun, ih ascends.2 free.2 free'.2 behind behind'⟩
          · have outcome : order.then order' = order' := by
              cases order with
              | lt => cases order' <;> trivial
              | eq => rfl
              | gt => exact absurd rfl rises
            rw [outcome]
            exact .inr ⟨here _ _ equal nofun differs' rises', unequal'⟩
        · rw [strict rises unequal]
          rcases second with ⟨equal', -⟩ | ⟨differs', -⟩
          · have both := here _ _ differs rises equal' nofun
            rw [strict rises unequal] at both
            exact .inr ⟨both, unequal⟩
          · have both := here _ _ differs rises differs' rises'
            rw [strict rises unequal] at both
            exact .inr ⟨both, unequal⟩

end

/-! ## Values -/

theorem compare_then {α : Type} [Ord α] [Std.TransOrd α] {a b c : α} (first : compare a b ≠ .gt)
    (second : compare b c ≠ .gt) : compare a c = (compare a b).then (compare b c) := by
  cases known : compare a b with
  | lt => exact Std.TransCmp.lt_of_lt_of_isLE known (Ordering.isLE_iff_ne_gt.mpr second)
  | eq => exact Std.TransCmp.congr_left known
  | gt => exact absurd known first

namespace FloatFree

variable {v w u : Value}

theorem compare?_eq_some_eq_iff (free : v.FloatFree) (free' : w.FloatFree) :
    v.compare? w = some .eq ↔ v = w := by
  induction free generalizing w with
  | int a =>
    cases free' with
    | int b =>
      rw [compare?, Option.some.injEq, Std.LawfulEqCmp.compare_eq_iff_eq, Int64.toInt_inj, int.injEq]
    | _ => simp [compare?]
  | str s =>
    cases free' with
    | str s' => rw [compare?, Option.some.injEq, Std.LawfulEqCmp.compare_eq_iff_eq, str.injEq]
    | _ => simp [compare?]
  | char c =>
    cases free' with
    | char c' => rw [compare?, Option.some.injEq, Std.LawfulEqCmp.compare_eq_iff_eq, char.injEq]
    | _ => simp [compare?]
  | bool b =>
    cases free' with
    | bool b' => rw [compare?, Option.some.injEq, Std.LawfulEqCmp.compare_eq_iff_eq, bool.injEq]
    | _ => simp [compare?]
  | array _ ih =>
    cases free' with
    | array each' =>
      rw [compare?, array.injEq]
      exact compareElements?_eq_some_eq_iff (fun v inside w => ih v inside) each'
    | _ => simp [compare?]

/-- Equality as data is equality. -/
theorem beq_iff (free : v.FloatFree) : (v == w) = true ↔ v = w := by
  show beq v w = true ↔ v = w
  induction free generalizing w with
  | int a => cases w <;> simp [beq]
  | str s => cases w <;> simp [beq]
  | char c => cases w <;> simp [beq]
  | bool b => cases w <;> simp [beq]
  | array _ ih =>
    cases w with
    | array ws =>
      rw [beq, array.injEq]
      exact beqElements_iff fun v inside w => ih v inside
    | _ => simp [beq]

/-- Comparing in the other direction gives the reverse order, or none either. -/
theorem compare?_swap (free : v.FloatFree) (free' : w.FloatFree) :
    w.compare? v = (v.compare? w).map Ordering.swap := by
  induction free generalizing w with
  | int a =>
    cases free' with
    | int b => rw [compare?, compare?, Option.map_some, ← Std.OrientedCmp.eq_swap]
    | _ => rfl
  | str s =>
    cases free' with
    | str s' => rw [compare?, compare?, Option.map_some, ← Std.OrientedCmp.eq_swap]
    | _ => rfl
  | char c =>
    cases free' with
    | char c' => rw [compare?, compare?, Option.map_some, ← Std.OrientedCmp.eq_swap]
    | _ => rfl
  | bool b =>
    cases free' with
    | bool b' => rw [compare?, compare?, Option.map_some, ← Std.OrientedCmp.eq_swap]
    | _ => rfl
  | array _ ih =>
    cases free' with
    | array each' => exact compareElements?_swap (fun v inside w => ih v inside) each'
    | _ => rfl

theorem ascends (free : v.FloatFree) : v.Ascends := by
  induction free with
  | int a =>
    rintro w u (b | _ | _ | _ | _) (c | _ | _ | _ | _) order order' ⟨⟩ rises ⟨⟩ rises'
    exact congrArg some (compare_then rises rises')
  | str s =>
    rintro w u (_ | s' | _ | _ | _) (_ | s'' | _ | _ | _) order order' ⟨⟩ rises ⟨⟩ rises'
    exact congrArg some (compare_then rises rises')
  | char c =>
    rintro w u (_ | _ | c' | _ | _) (_ | _ | c'' | _ | _) order order' ⟨⟩ rises ⟨⟩ rises'
    exact congrArg some (compare_then rises rises')
  | bool b =>
    rintro w u (_ | _ | _ | b' | _) (_ | _ | _ | b'' | _) order order' ⟨⟩ rises ⟨⟩ rises'
    exact congrArg some (compare_then rises rises')
  | array _ ih =>
    intro w u free' free'' order order' first rises second rises'
    cases free' with
    | array each' =>
      cases free'' with
      | array each'' => exact compareElements?_then ih each' each'' first rises second rises'
      | _ => cases second
    | _ => cases first

/-- No comparison meets a NaN where there are no floats. -/
theorem not_meetsNaN (free : v.FloatFree) : ¬ v.MeetsNaN w := by
  intro meets
  induction meets with
  | left | right => cases free
  | elements _ _ ih =>
    cases free with
    | array each => exact ih (each _ (by simp))

theorem exists_compare?_of_hasType {type : Ty} (free : v.FloatFree) (typed : v.HasType type)
    (typed' : w.HasType type) : ∃ order, v.compare? w = some order := by
  rw [← Option.isSome_iff_exists, ← Option.ne_none_iff_isSome]
  exact fun unordered => free.not_meetsNaN (meetsNaN_of_compare?_eq_none typed typed' unordered)

end FloatFree

/-! ## Comparison operators -/

/-- The operator answers that the comparison holds. -/
def Holds (operator : BinaryOperator) (v w : Value) : Prop :=
  applyBinary operator v w = .ok (.bool true)

/-- The comparison operators say of two values what their order is, and nothing else. -/
structure Decided (v w : Value) (order : Ordering) : Prop where
  answers : ∀ operator : BinaryOperator, operator.isComparison = true →
    ∃ b, applyBinary operator v w = .ok (.bool b)
  less : Holds .less v w ↔ order = .lt
  equal : Holds .equal v w ↔ order = .eq
  greater : Holds .greater v w ↔ order = .gt
  lessEqual : Holds .lessEqual v w ↔ Holds .less v w ∨ Holds .equal v w
  greaterEqual : Holds .greaterEqual v w ↔ Holds .greater v w ∨ Holds .equal v w
  notEqual : Holds .notEqual v w ↔ ¬ Holds .equal v w

theorem applyBinary_of_compare? {operator : BinaryOperator} {v w : Value} {order : Ordering}
    (comparison : operator.isComparison = true) (ordered : v.compare? w = some order) :
    applyBinary operator v w = .ok (.bool (holdsFor operator order)) := by
  rw [applyBinary_of_isComparison comparison, applyComparison, ordered]

theorem holds_iff {operator : BinaryOperator} {v w : Value} {order : Ordering}
    (comparison : operator.isComparison = true) (ordered : v.compare? w = some order) :
    Holds operator v w ↔ holdsFor operator order = true := by
  rw [Holds, applyBinary_of_compare? comparison ordered, Except.ok.injEq, bool.injEq]

theorem decided_of_compare? {v w : Value} {order : Ordering} (ordered : v.compare? w = some order) :
    Decided v w order := by
  have holds (operator : BinaryOperator) (comparison : operator.isComparison = true) :=
    holds_iff comparison ordered
  have less := holds .less rfl
  have equal := holds .equal rfl
  have greater := holds .greater rfl
  refine ⟨fun operator comparison => ⟨_, applyBinary_of_compare? comparison ordered⟩, ?_, ?_, ?_, ?_,
    ?_, ?_⟩
  · rw [less, holdsFor, beq_iff_eq]
  · rw [equal, holdsFor, beq_iff_eq]
  · rw [greater, holdsFor, beq_iff_eq]
  · rw [less, equal, holds .lessEqual rfl]
    cases order <;> decide
  · rw [greater, equal, holds .greaterEqual rfl]
    cases order <;> decide
  · rw [equal, holds .notEqual rfl]
    cases order <;> decide

/-- On values without floats the comparison is a coherent order: reflexive, equal exactly on equal
values, reversed with its operands, transitive where it is defined, and total on each type; and the
comparison operators are this order. -/
theorem compare?_coherent {v w u : Value} (free : v.FloatFree) (free' : w.FloatFree)
    (free'' : u.FloatFree) :
    v.compare? v = some .eq ∧
      (v.compare? w = some .eq ↔ (v == w) = true) ∧ ((v == w) = true ↔ v = w) ∧
      w.compare? v = (v.compare? w).map Ordering.swap ∧
      (∀ order order', v.compare? w = some order → order ≠ .gt → w.compare? u = some order' →
        order' ≠ .gt → ∃ whole, v.compare? u = some whole ∧ whole ≠ .gt ∧
          (whole = .lt ↔ order = .lt ∨ order' = .lt)) ∧
      (∀ type, v.HasType type → w.HasType type → ∃ order, v.compare? w = some order) ∧
      ∀ order, v.compare? w = some order → Decided v w order := by
  refine ⟨(free.compare?_eq_some_eq_iff free).mpr rfl,
    (free.compare?_eq_some_eq_iff free').trans free.beq_iff.symm, free.beq_iff,
    free.compare?_swap free', fun order order' first rises second rises' => ?_,
    fun type => free.exists_compare?_of_hasType, fun order => decided_of_compare?⟩
  refine ⟨_, free.ascends w u free' free'' order order' first rises second rises', ?_⟩
  cases order <;> cases order' <;> simp_all [Ordering.then]

/-- An array comes after its beginnings, also deep inside of another one, and what stands behind the
first difference does not count: the last elements of `w` and `u` have no order. -/
theorem compare?_coherent_nestedArrays :
    let v := array [.int 1, .array [.str "a"], .char 'c']
    let w := array [.int 1, .array [.str "a", .bool true], .char 'c']
    let u := array [.int 2, .array [], .int 0]
    (v.FloatFree ∧ w.FloatFree ∧ u.FloatFree) ∧ v.compare? w = some .lt ∧ w.compare? u = some .lt ∧
      v.compare? u = some .lt ∧ u.compare? v = some .gt ∧ Decided v w .lt := by
  intro v w u
  have free : v.FloatFree := .array (by
    simpa using ⟨.int 1, .array (by simpa using .str "a"), .char 'c'⟩)
  have free' : w.FloatFree := .array (by
    simpa using ⟨.int 1, .array (by simpa using ⟨.str "a", .bool true⟩), .char 'c'⟩)
  have free'' : u.FloatFree := .array (by simpa using ⟨.int 2, .array nofun, .int 0⟩)
  have first : v.compare? w = some .lt := by decide +kernel
  have second : w.compare? u = some .lt := by decide +kernel
  obtain ⟨-, -, -, -, ascends, -, decided⟩ := compare?_coherent free free' free''
  obtain ⟨whole, known, -, strict⟩ := ascends _ _ first nofun second nofun
  have below : v.compare? u = some .lt := by rw [known, strict.mpr (.inl rfl)]
  obtain ⟨-, -, -, reversed, -⟩ := compare?_coherent free free'' free'
  exact ⟨⟨free, free', free''⟩, first, second, below, by rw [reversed, below]; rfl, decided _ first⟩

end CheckedScript.Value
