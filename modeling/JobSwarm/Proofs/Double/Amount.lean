import JobSwarm.Proofs.Double.Arithmetic

/-!
# Amounts

A double that is zero, or positive and of moderate size, stands for an amount. Amounts are compared
as the numbers that they stand for.

Results:

* `Normal.mul`: the product of two doubles is the product of their numbers, rounded.
* `Amount.lt_iff`, `Amount.le_iff`: amounts are compared as numbers.
-/

namespace JobSwarm.Double

open Float.Model (Format UnpackedFloat)
open Float.Model.UnpackedFloat (roundWithAccuracy)

variable {f g : Float} {x y : ℚ}

/-! ## Products -/

/-- The product of two doubles is the product of their numbers, rounded. -/
theorem Normal.mul (hf : Normal f x) (hg : Normal g y) (moderate : Moderate (x * y)) :
    ∃ z, Normal (f * g) z ∧ RoundedTo (x * y) z := by
  obtain ⟨m₁, e₁, positive₁, unpack₁, low₁, high₁, small₁, large₁, rfl⟩ := hf
  obtain ⟨m₂, e₂, positive₂, unpack₂, low₂, high₂, small₂, large₂, rfl⟩ := hg
  have product : f * g = .ofModel (.pack (roundWithAccuracy Format.binary64 .positive
      (m₁ * m₂) (e₁ + e₂) .exact)) := by
    show Float.ofModel (.pack (UnpackedFloat.mul Format.binary64 f.toModel.unpack
      g.toModel.unpack)) = _
    rw [unpack₁, unpack₂]
    rfl
  have value : (m₁ : ℚ) * 2 ^ e₁ * (m₂ * 2 ^ e₂) / 2 ^ (e₁ + e₂) = (m₁ * m₂ : Nat) := by
    rw [zpow_add₀ two_ne_zero]
    push_cast
    field_simp
  rw [product]
  refine rounds (low₁.trans (Nat.le_mul_of_pos_right m₁ positive₂)) ?_ moderate
  rw [value]
  exact sub_self _

theorem IsZero.mul (hf : IsZero f) (hg : Normal g y) : IsZero (f * g) := by
  obtain ⟨m, e, positive, unpack, -⟩ := hg
  have product : f * g = .ofModel (.pack (.zero .positive)) := by
    show Float.ofModel (.pack (UnpackedFloat.mul Format.binary64 f.toModel.unpack
      g.toModel.unpack)) = _
    rw [hf, unpack]
    rfl
  rw [product]
  rfl

/-! ## Comparison -/

theorem le_iff_compare {f g : Float} :
    f ≤ g ↔ (UnpackedFloat.compare f.toModel.unpack g.toModel.unpack).any (·.isLE) = true := by
  show Float.le f g = true ↔ _
  unfold Float.le
  rw [decide_eq_true_iff]
  rfl

/-- A double that stands for a number that is not negative. -/
def Amount (f : Float) (x : ℚ) : Prop :=
  IsZero f ∧ x = 0 ∨ Normal f x

namespace Amount

theorem nonneg (h : Amount f x) : 0 ≤ x := by
  rcases h with ⟨-, rfl⟩ | ⟨m, e, -, -, -, -, -, -, rfl⟩
  · exact le_rfl
  · positivity

theorem value (h : Amount f x) : value? f = some x := by
  unfold value?
  rcases h with ⟨zero, rfl⟩ | ⟨m, e, _, unpack, -, -, -, -, rfl⟩
  · rw [show f.toModel.unpack = _ from zero]
  · rw [unpack]
    rfl

/-- Amounts can be compared, in both directions. -/
theorem compare_swap (hf : Amount f x) (hg : Amount g y) :
    ∃ order, UnpackedFloat.compare f.toModel.unpack g.toModel.unpack = some order ∧
      UnpackedFloat.compare g.toModel.unpack f.toModel.unpack = some order.swap := by
  rcases hf with ⟨zero, -⟩ | ⟨m₁, e₁, _, unpack₁, -⟩
  · rw [show f.toModel.unpack = _ from zero]
    rcases hg with ⟨zero', -⟩ | ⟨m₂, e₂, _, unpack₂, -⟩
    · rw [show g.toModel.unpack = _ from zero']
      exact ⟨.eq, rfl, rfl⟩
    · rw [unpack₂]
      exact ⟨.lt, rfl, rfl⟩
  · rw [unpack₁]
    rcases hg with ⟨zero', -⟩ | ⟨m₂, e₂, _, unpack₂, -⟩
    · rw [show g.toModel.unpack = _ from zero']
      exact ⟨.gt, rfl, rfl⟩
    · rw [unpack₂]
      refine ⟨(compare e₁ e₂).then (compare m₁ m₂), rfl, ?_⟩
      rw [Ordering.swap_then, ← Std.OrientedCmp.eq_swap, ← Std.OrientedCmp.eq_swap]
      rfl

theorem le_iff_not_lt (hf : Amount f x) (hg : Amount g y) : f ≤ g ↔ ¬g < f := by
  obtain ⟨order, forth, back⟩ := hf.compare_swap hg
  rw [le_iff_compare, lt_iff_compare, forth, back]
  cases order <;> decide

/-- An amount is less than another if its number is less. -/
theorem lt_iff (hf : Amount f x) (hg : Amount g y) : f < g ↔ x < y := by
  rcases hf with ⟨zero, rfl⟩ | normal
  · rcases hg with ⟨zero', rfl⟩ | ⟨m, e, positive, unpack, -, -, -, -, rfl⟩
    · rw [lt_iff_compare, show f.toModel.unpack = _ from zero,
        show g.toModel.unpack = _ from zero']
      exact iff_of_false (by decide) (lt_irrefl 0)
    · rw [lt_iff_compare, show f.toModel.unpack = _ from zero, unpack]
      refine iff_of_true rfl ?_
      have mantissa : (0 : ℚ) < m := by exact_mod_cast positive
      positivity
  · exact normal.lt_iff hg.value

theorem le_iff (hf : Amount f x) (hg : Amount g y) : f ≤ g ↔ x ≤ y := by
  rw [hf.le_iff_not_lt hg, hg.lt_iff hf, not_lt]

end Amount

theorem amount_zero : Amount 0 0 :=
  .inl ⟨rfl, rfl⟩

theorem normal_hundred : Normal 100 100 :=
  ⟨100 * 2 ^ 46, -46, by decide, rfl, by decide, by decide, by decide, by decide,
    by norm_num⟩

theorem amount_hundred : Amount 100 100 :=
  .inr normal_hundred

end JobSwarm.Double
