import CheckedScript.Value.Order

/-!
# When values have no order

Two floats are ordered unless one of them is a NaN.
-/

namespace CheckedScript.Value

open Float.Model

theorem swap_then_compare (e e' : Int) (m m' : Nat) :
    ((compare e e').then (compare m m')).swap = (compare e' e).then (compare m' m) := by
  rw [Ordering.swap_then, ← Std.OrientedCmp.eq_swap, ← Std.OrientedCmp.eq_swap]

/-- The order of floats in the other direction is the reverse one. -/
theorem compare_unpacked_swap (x y : UnpackedFloat) :
    y.compare x = (x.compare y).map Ordering.swap := by
  cases x with
  | notANumber => cases y <;> rfl
  | infinity s =>
    cases y with
    | infinity s' => cases s <;> cases s' <;> rfl
    | notANumber => cases s <;> rfl
    | zero => cases s <;> rfl
    | finite => cases s <;> rfl
  | zero s =>
    cases y with
    | infinity s' => cases s' <;> rfl
    | finite s' => cases s' <;> rfl
    | _ => rfl
  | finite s m e positive =>
    cases y with
    | infinity s' => cases s <;> cases s' <;> rfl
    | notANumber => cases s <;> rfl
    | zero => cases s <;> rfl
    | finite s' m' e' positive' =>
      cases s with
      | positive =>
        cases s' with
        | positive => exact congrArg some (swap_then_compare e e' m m').symm
        | negative => rfl
      | negative =>
        cases s' with
        | positive => rfl
        -- Of two negative numbers, the larger in size is the smaller one.
        | negative => exact congrArg (some ∘ Ordering.swap) (swap_then_compare e e' m m').symm

theorem isNaN_of_compare_eq_none {x y : UnpackedFloat} (unordered : x.compare y = none) :
    x.isNaN = true ∨ y.isNaN = true := by
  cases x with
  | notANumber => exact .inl rfl
  | infinity s =>
    cases y with
    | notANumber => exact .inr rfl
    | infinity s' => cases unordered
    | _ => cases s <;> cases unordered
  | zero s =>
    cases y with
    | notANumber => exact .inr rfl
    | zero s' => cases unordered
    | _ s' => cases s' <;> cases unordered
  | finite s m e positive =>
    cases y with
    | notANumber => exact .inr rfl
    | infinity s' => cases s <;> cases s' <;> cases unordered
    | zero s' => cases s <;> cases unordered
    | finite s' m' e' positive' => cases s <;> cases s' <;> cases unordered

section

variable {x y : Float}

theorem float_lt_iff : x < y ↔ x.toModel.unpack.compare y.toModel.unpack = some .lt := by
  show decide (x.toModel < y.toModel) = true ↔ _
  rw [decide_eq_true_iff]
  show (x.toModel.unpack.compare y.toModel.unpack == some .lt) = true ↔ _
  rw [beq_iff_eq]

theorem float_beq_iff :
    (x == y) = true ↔ x.toModel.unpack.compare y.toModel.unpack = some .eq := by
  show (x.toModel.unpack.compare y.toModel.unpack == some .eq) = true ↔ _
  rw [beq_iff_eq]

/-- Floats without an order are not both numbers. -/
theorem isNaN_of_compareFloats_eq_none (unordered : compareFloats x y = none) :
    x.isNaN = true ∨ y.isNaN = true := by
  unfold compareFloats at unordered
  obtain ⟨notLess, notEqual, notGreater⟩ : ¬ x < y ∧ ¬ (x == y) = true ∧ ¬ y < x := by
    split at unordered
    · cases unordered
    · split at unordered
      · cases unordered
      · split at unordered
        · cases unordered
        · exact ⟨‹_›, ‹_›, ‹_›⟩
  rw [float_lt_iff] at notLess notGreater
  rw [float_beq_iff] at notEqual
  -- The three tests are those for one and the same comparison.
  rw [compare_unpacked_swap, Option.map_eq_some_iff] at notGreater
  refine isNaN_of_compare_eq_none (x := x.toModel.unpack) (y := y.toModel.unpack) ?_
  cases order : x.toModel.unpack.compare y.toModel.unpack with
  | none => rfl
  | some order' =>
    rw [order] at notLess notEqual notGreater
    cases order' with
    | lt => exact absurd rfl notLess
    | eq => exact absurd rfl notEqual
    | gt => exact absurd ⟨.gt, rfl, rfl⟩ notGreater

end

end CheckedScript.Value
