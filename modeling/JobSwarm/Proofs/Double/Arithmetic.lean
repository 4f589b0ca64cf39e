import JobSwarm.Proofs.Double.Rounding

/-!
# Arithmetic of doubles

Counts become doubles, these are divided, and quotients are added. Each time the exact result is
rounded, so what comes out is near the result that there would be without rounding.

Results:

* `toFloat_rounds`: a count that is not zero, rounded.
* `Normal.div`, `Normal.add`: a quotient and a sum, rounded.
* `Near.div`, `Near.add`: errors add up.
* `Normal.lt_iff`: doubles are compared as the numbers that they stand for.
* `Normal.lt_congr_of_near`: doubles near one number are both below a threshold that is not, or
  neither is.
-/

namespace JobSwarm.Double

open Float.Model (Format UnpackedFloat totalExponent)
open Float.Model.UnpackedFloat (Accuracy Sign accuracyOfFraction decreaseExponent divCore
  roundWithAccuracy unpackExponent unpackMantissa)

variable {f g : Float} {m n : Nat} {e : Int} {x y : ℚ}

/-! ## Whole numbers and sums -/

/-- What is shifted out of the exponent is shifted into the mantissa. -/
theorem shifted_value (m k : Nat) (e : Int) :
    ((m <<< k : Nat) : ℚ) * 2 ^ (e - k) = m * 2 ^ e := by
  rw [Nat.shiftLeft_eq, zpow_sub₀ two_ne_zero, zpow_natCast]
  push_cast
  field_simp

/-- A mantissa of less than 53 bits is made as wide. -/
theorem widened_low (positive : 0 < m) : 2 ^ 52 ≤ m <<< (52 - m.log2) := by
  have leading : 2 ^ m.log2 ≤ m := Nat.log2_self_le (by omega)
  have grown := Nat.mul_le_mul_right (2 ^ (52 - m.log2)) leading
  rw [← Nat.pow_add] at grown
  rw [Nat.shiftLeft_eq]
  exact (Nat.pow_le_pow_right two_pos (by omega)).trans grown

theorem widened_high (short : m.log2 ≤ 52) : m <<< (52 - m.log2) < 2 ^ 53 := by
  have bits : m < 2 ^ (m.log2 + 1) := Nat.lt_log2_self
  have grown := Nat.mul_lt_mul_of_pos_right bits (Nat.two_pow_pos (52 - m.log2))
  rw [← Nat.pow_add, show m.log2 + 1 + (52 - m.log2) = 53 by omega] at grown
  rwa [Nat.shiftLeft_eq]

/-- A number whose mantissa is made wide enough is rounded. -/
theorem round_rounds (positive : 0 < m) (moderate : Moderate ((m : ℚ) * 2 ^ e)) :
    ∃ x, Normal (.ofModel (.pack (UnpackedFloat.round Format.binary64 .positive m e))) x ∧
      RoundedTo ((m : ℚ) * 2 ^ e) x := by
  have size : (0 : ℚ) < 2 ^ e := zpow_pos two_pos e
  have above : m < 2 ^ (m.log2 + 1) := Nat.lt_log2_self
  have above' : (m : ℚ) ≤ 2 ^ (m.log2 + 1) := by exact_mod_cast above.le
  have least : (2 : ℚ) ^ (-80 : Int) ≤ 2 ^ ((m.log2 + 1 : Nat) + e) := by
    rw [zpow_add₀ two_ne_zero, zpow_natCast]
    exact moderate.1.trans (mul_le_mul_of_nonneg_right above' size.le)
  rw [zpow_le_zpow_iff_right₀ one_lt_two] at least
  have target : Format.binary64.targetExponent (totalExponent m e) = m.log2 + e - 52 :=
    targetExponent_eq (by omega)
  have shift : (e - ((m.log2 : Int) + e - 52)).toNat = 52 - m.log2 := by omega
  unfold UnpackedFloat.round decreaseExponent
  dsimp only
  rw [target, shift]
  refine rounds (widened_low positive) ?_ moderate
  rw [← shifted_value m (52 - m.log2) e, mul_div_cancel_right₀ _ (zpow_pos two_pos _).ne']
  exact sub_self _

/-- A sum of positive numbers is not zero, and is rounded. -/
theorem normalize_positive (positive : 0 < m) (zero : Sign) :
    UnpackedFloat.normalize Format.binary64 m e zero =
      UnpackedFloat.round Format.binary64 .positive m e := by
  unfold UnpackedFloat.normalize
  rw [Int.compare_eq_gt.2 (by omega)]
  rfl

theorem moderate_of_bounds (least : 1 ≤ y) (most : y < 2 ^ 64) : Moderate y := by
  constructor
  · exact le_trans (by norm_num) least
  · exact most.le.trans (by norm_num)

/-- A count is rounded to a double. -/
theorem toFloat_rounds {n : UInt64} (positive : 0 < n.toNat) :
    ∃ x, Normal n.toFloat x ∧ RoundedTo n.toNat x := by
  have least : (1 : ℚ) ≤ n.toNat := by exact_mod_cast positive
  have most : (n.toNat : ℚ) < 2 ^ 64 := by exact_mod_cast n.toNat_lt
  have whole : (n.toNat : ℚ) * 2 ^ (0 : Int) = n.toNat := by rw [zpow_zero, mul_one]
  obtain ⟨x, normal, rounded⟩ := round_rounds (e := 0) positive
    (whole.symm ▸ moderate_of_bounds least most)
  rw [whole] at rounded
  rw [← normalize_positive positive .positive] at normal
  exact ⟨x, normal, rounded⟩

/-- The sum of two doubles is the sum of their numbers, rounded. -/
theorem Normal.add (hf : Normal f x) (hg : Normal g y) (moderate : Moderate (x + y)) :
    ∃ z, Normal (f + g) z ∧ RoundedTo (x + y) z := by
  obtain ⟨m₁, e₁, positive₁, unpack₁, -, -, -, -, rfl⟩ := hf
  obtain ⟨m₂, e₂, positive₂, unpack₂, -, -, -, -, rfl⟩ := hg
  have positive : 0 < m₁ <<< (e₁ - min e₁ e₂).toNat + m₂ <<< (e₂ - min e₁ e₂).toNat := by
    have first : 0 < m₁ <<< (e₁ - min e₁ e₂).toNat := by
      rw [Nat.shiftLeft_eq]
      positivity
    exact Nat.add_pos_left first _
  have value : ((m₁ <<< (e₁ - min e₁ e₂).toNat + m₂ <<< (e₂ - min e₁ e₂).toNat : Nat) : ℚ) *
      2 ^ min e₁ e₂ = m₁ * 2 ^ e₁ + m₂ * 2 ^ e₂ := by
    rw [Nat.cast_add, add_mul, ← shifted_value m₁ (e₁ - min e₁ e₂).toNat e₁,
      ← shifted_value m₂ (e₂ - min e₁ e₂).toNat e₂]
    congr 3 <;> omega
  have sum : f + g = .ofModel (.pack (UnpackedFloat.round Format.binary64 .positive
      (m₁ <<< (e₁ - min e₁ e₂).toNat + m₂ <<< (e₂ - min e₁ e₂).toNat) (min e₁ e₂))) := by
    show Float.ofModel (.pack (UnpackedFloat.add Format.binary64 f.toModel.unpack
      g.toModel.unpack)) = _
    rw [unpack₁, unpack₂, ← normalize_positive positive .positive]
    rfl
  rw [sum, ← value]
  rw [← value] at moderate
  exact round_rounds positive moderate

/-! ## Quotients -/

theorem divCore_eq {m₁ m₂ : Nat} {e₁ e₂ : Int} (log₁ : m₁.log2 = 52) (log₂ : m₂.log2 = 52)
    (moderate : -900 ≤ e₁ - e₂) :
    divCore Format.binary64 m₁ e₁ m₂ e₂ =
      (m₁ * 2 ^ 53 / m₂, e₁ - e₂ - 53, accuracyOfFraction (m₁ * 2 ^ 53 % m₂) m₂) := by
  have target : min (e₁ - e₂)
      (Format.binary64.targetExponent (totalExponent m₁ e₁ - totalExponent m₂ e₂)) =
        e₁ - e₂ - 53 := by
    show min (e₁ - e₂) (max ((m₁.log2 : Int) + 1 + e₁ - (m₂.log2 + 1 + e₂) - 53)
      (3 - 2 ^ 10 - 53)) = _
    omega
  have shift : (e₁ - e₂ - (e₁ - e₂ - 53)).toNat = 53 := by omega
  unfold divCore
  dsimp only
  rw [target, shift, Nat.shiftLeft_eq]

/-- The quotient of two doubles is the quotient of their numbers, rounded. -/
theorem Normal.div (hf : Normal f x) (hg : Normal g y) (moderate : Moderate (x / y)) :
    ∃ z, Normal (f / g) z ∧ RoundedTo (x / y) z := by
  obtain ⟨m₁, e₁, positive₁, unpack₁, low₁, high₁, small₁, large₁, rfl⟩ := hf
  obtain ⟨m₂, e₂, positive₂, unpack₂, low₂, high₂, small₂, large₂, rfl⟩ := hg
  have quotient : f / g = .ofModel (.pack (roundWithAccuracy Format.binary64 .positive
      (m₁ * 2 ^ 53 / m₂) (e₁ - e₂ - 53) (accuracyOfFraction (m₁ * 2 ^ 53 % m₂) m₂))) := by
    show Float.ofModel (.pack (UnpackedFloat.div Format.binary64 f.toModel.unpack
      g.toModel.unpack)) = _
    rw [unpack₁, unpack₂]
    unfold UnpackedFloat.div
    dsimp only
    rw [divCore_eq (log2_eq low₁ high₁) (log2_eq low₂ high₂) (by omega)]
    rfl
  have positive : (0 : ℚ) < m₂ := by exact_mod_cast positive₂
  have value : (m₁ : ℚ) * 2 ^ e₁ / (m₂ * 2 ^ e₂) / 2 ^ (e₁ - e₂ - 53) =
      (m₁ * 2 ^ 53 : Nat) / (m₂ : ℚ) := by
    rw [zpow_sub₀ two_ne_zero, zpow_sub₀ two_ne_zero]
    push_cast
    field_simp
  have wide : 2 ^ 52 ≤ m₁ * 2 ^ 53 / m₂ := by
    rw [Nat.le_div_iff_mul_le positive₂]
    exact Nat.mul_le_mul low₁ high₂.le
  rw [quotient]
  refine rounds wide ?_ moderate
  rw [value]
  exact tells_accuracyOfFraction positive₂

/-! ## Zero -/

/-- The double zero. -/
def IsZero (f : Float) : Prop :=
  f.toModel.unpack = .zero .positive

theorem isZero_toFloat : IsZero (0 : UInt64).toFloat := rfl

theorem IsZero.div (hf : IsZero f) (hg : Normal g y) : IsZero (f / g) := by
  obtain ⟨m, e, positive, unpack, -⟩ := hg
  have quotient : f / g = .ofModel (.pack (.zero .positive)) := by
    show Float.ofModel (.pack (UnpackedFloat.div Format.binary64 f.toModel.unpack
      g.toModel.unpack)) = _
    rw [hf, unpack]
    rfl
  rw [quotient]
  rfl

theorem IsZero.add_normal (hf : IsZero f) (hg : Normal g y) : Normal (f + g) y := by
  obtain ⟨m, e, positive, unpack, low, high, small, large, rfl⟩ := hg
  have sum : f + g = .ofModel (.pack (.finite .positive m e positive)) := by
    show Float.ofModel (.pack (UnpackedFloat.add Format.binary64 f.toModel.unpack
      g.toModel.unpack)) = _
    rw [hf, unpack]
    rfl
  rw [sum]
  exact normal_of_pack positive low high small large

theorem Normal.add_zero (hf : Normal f x) (hg : IsZero g) : Normal (f + g) x := by
  obtain ⟨m, e, positive, unpack, low, high, small, large, rfl⟩ := hf
  have sum : f + g = .ofModel (.pack (.finite .positive m e positive)) := by
    show Float.ofModel (.pack (UnpackedFloat.add Format.binary64 f.toModel.unpack
      g.toModel.unpack)) = _
    rw [hg, unpack]
    rfl
  rw [sum]
  exact normal_of_pack positive low high small large

/-! ## Errors add up -/

/-- The size of one part in `2 ^ 52`. -/
def unit : ℚ := 1 / 2 ^ 52

/-- Whether a number is off from another by a part of it at most. -/
def Near (part x y : ℚ) : Prop :=
  (1 - part) * y ≤ x ∧ x ≤ (1 + part) * y

/-- Half of the last place is a small part of the whole. -/
theorem RoundedTo.near (h : RoundedTo y x) : Near unit x y := by
  obtain ⟨E, rounded⟩ := h
  have whole := rounded.place.low
  have off := rounded.off
  rw [abs_le] at off
  have size : (0 : ℚ) < 2 ^ E := zpow_pos two_pos E
  rw [Near, unit]
  constructor <;> linarith

namespace Near

variable {a b z k l : ℚ}

theorem mono (near : Near k x a) (le : k ≤ l) (nonneg : 0 ≤ a) : Near l x a := by
  have wider := mul_le_mul_of_nonneg_right le nonneg
  obtain ⟨low, high⟩ := near
  constructor <;> linarith

/-- What is near is rounded once more. -/
theorem rounded (near : Near (k * unit) x a) (again : Near unit z x) (nonneg : 0 ≤ a)
    (least : 0 ≤ k) (most : k ≤ 2 ^ 52) : Near ((k + 2) * unit) z a := by
  obtain ⟨low, high⟩ := near
  obtain ⟨low', high'⟩ := again
  have product : k * unit * unit ≤ unit := by
    rw [unit]
    linarith
  have product' := mul_le_mul_of_nonneg_right product nonneg
  have nonneg' : 0 ≤ k * unit * unit * a := by
    have part : (0 : ℚ) ≤ unit := by rw [unit]; norm_num
    positivity
  have less : (0 : ℚ) ≤ 1 - unit := by rw [unit]; norm_num
  have more : (0 : ℚ) ≤ 1 + unit := by rw [unit]; norm_num
  have low'' := mul_le_mul_of_nonneg_left low less
  have high'' := mul_le_mul_of_nonneg_left high more
  constructor <;> linarith

/-- A quotient of numbers that were rounded. -/
theorem div (hx : Near unit x a) (hy : Near unit y b) (ha : 0 < a) (hb : 0 < b) :
    Near (3 * unit) (x / y) (a / b) := by
  obtain ⟨low, high⟩ := hx
  obtain ⟨low', high'⟩ := hy
  have less : (0 : ℚ) < 1 - unit := by rw [unit]; norm_num
  have more : (0 : ℚ) < 1 + unit := by rw [unit]; norm_num
  have positive : 0 < y := lt_of_lt_of_le (by positivity) low'
  have ratio : 0 < a / b := by positivity
  constructor
  · have factor : 1 - 3 * unit ≤ (1 - unit) / (1 + unit) := by rw [unit]; norm_num
    calc (1 - 3 * unit) * (a / b) ≤ (1 - unit) / (1 + unit) * (a / b) :=
          mul_le_mul_of_nonneg_right factor ratio.le
      _ = (1 - unit) * a / ((1 + unit) * b) := by rw [mul_div_mul_comm]
      _ ≤ x / y := div_le_div₀ (le_trans (by positivity) low) low positive high'
  · have factor : (1 + unit) / (1 - unit) ≤ 1 + 3 * unit := by rw [unit]; norm_num
    calc x / y ≤ (1 + unit) * a / ((1 - unit) * b) :=
          div_le_div₀ (by positivity) high (by positivity) low'
      _ = (1 + unit) / (1 - unit) * (a / b) := by rw [mul_div_mul_comm]
      _ ≤ (1 + 3 * unit) * (a / b) := mul_le_mul_of_nonneg_right factor ratio.le

theorem add (hx : Near k x a) (hy : Near k y b) : Near k (x + y) (a + b) := by
  obtain ⟨low, high⟩ := hx
  obtain ⟨low', high'⟩ := hy
  constructor <;> linarith

/-- What is near a number that is not extreme is moderate. -/
theorem moderate (near : Near k x a) (little : k ≤ 1 / 2)
    (low : 1 / 2 ^ 70 ≤ a) (high : a ≤ 2 ^ 70) : Moderate x := by
  have positive : (0 : ℚ) < a := lt_of_lt_of_le (by positivity) low
  have part := mul_le_mul_of_nonneg_right little positive.le
  obtain ⟨least, most⟩ := near
  constructor
  · have small : (2 : ℚ) ^ (-80 : Int) ≤ 1 / 2 ^ 70 / 2 := by norm_num
    have half : a / 2 ≤ x := by linarith
    exact small.trans ((div_le_div_of_nonneg_right low two_pos.le).trans half)
  · have large : (2 : ℚ) ^ 70 * 2 ≤ 2 ^ (80 : Int) := by norm_num
    have twice : x ≤ a * 2 := by linarith
    exact twice.trans ((mul_le_mul_of_nonneg_right high two_pos.le).trans large)

end Near

/-! ## Comparison -/

/-- The number that a double stands for, unless it is infinite or no number. -/
def value? (f : Float) : Option ℚ :=
  match f.toModel.unpack with
  | .zero _ => some 0
  | .finite sign m e _ => some (sign.apply m * 2 ^ e)
  | .infinity _ | .notANumber => none

/-- The mantissa of a double has 53 bits, or its exponent is the least. -/
theorem mantissa_bounds {bits : BitVec Format.binary64.numBits} {sign : Sign} {positive : 0 < m}
    (h : UnpackedFloat.unpack Format.binary64 bits = .finite sign m e positive) :
    m < 2 ^ 53 ∧ -1074 ≤ e ∧ (2 ^ 52 ≤ m ∨ e = -1074) := by
  unfold UnpackedFloat.unpack at h
  dsimp only at h
  have bias : (Format.binary64.exponentBias : Int) + (52 : Nat) = 1075 := rfl
  have small : (unpackMantissa bits).toNat < 2 ^ 52 := (unpackMantissa bits).isLt
  split at h
  · split at h <;> cases h
  · split at h
    · next least =>
      split at h
      · cases h
      · cases h
        rw [bias, least]
        exact ⟨by omega, by decide, .inr (by decide)⟩
    · next more =>
      have biased : (unpackExponent bits).toNat ≠ 0 := fun zero => more (BitVec.eq_of_toNat_eq zero)
      have leading : (1#1 ++ unpackMantissa bits).toNat = 2 ^ 52 + (unpackMantissa bits).toNat := by
        rw [BitVec.toNat_append, ← Nat.shiftLeft_add_eq_or_of_lt small]
        rfl
      cases h
      rw [bias, leading]
      exact ⟨by omega, by omega, .inl (by omega)⟩

theorem lt_iff_compare {f t : Float} :
    f < t ↔ UnpackedFloat.compare f.toModel.unpack t.toModel.unpack = some .lt := by
  show Float.lt f t = true ↔ _
  unfold Float.lt
  rw [decide_eq_true_iff]
  show UnpackedFloat.lt f.toModel.unpack t.toModel.unpack = true ↔ _
  rw [UnpackedFloat.lt, beq_iff_eq]

/-- Of two numbers with a mantissa of 53 bits, that with the smaller exponent is smaller. -/
theorem scaled_lt {m₁ m₂ : Nat} {e₁ e₂ : Int} (high : m₁ < 2 ^ 53) (low : 2 ^ 52 ≤ m₂)
    (less : e₁ < e₂) : (m₁ : ℚ) * 2 ^ e₁ < m₂ * 2 ^ e₂ := by
  have high' : (m₁ : ℚ) < 2 ^ 53 := by exact_mod_cast high
  have low' : (2 : ℚ) ^ 52 ≤ m₂ := by exact_mod_cast low
  have size : (0 : ℚ) < 2 ^ e₁ := zpow_pos two_pos e₁
  have step : (2 : ℚ) ^ (e₁ + 1) ≤ 2 ^ e₂ := zpow_le_zpow_right₀ one_le_two less
  rw [zpow_add_one₀ two_ne_zero] at step
  calc (m₁ : ℚ) * 2 ^ e₁ < 2 ^ 53 * 2 ^ e₁ := mul_lt_mul_of_pos_right high' size
    _ = 2 ^ 52 * (2 ^ e₁ * 2) := by ring
    _ ≤ m₂ * 2 ^ e₂ := mul_le_mul low' step (by positivity) (by positivity)

/-- A double is less than another if its number is less. -/
theorem Normal.lt_iff {t : Float} {v : ℚ} (hf : Normal f x) (hv : value? t = some v) :
    f < t ↔ x < v := by
  obtain ⟨m₁, e₁, positive₁, unpack₁, low₁, high₁, small₁, -, rfl⟩ := hf
  have mantissa : (0 : ℚ) < m₁ := by exact_mod_cast positive₁
  have size : (0 : ℚ) < m₁ * 2 ^ e₁ := mul_pos mantissa (zpow_pos two_pos e₁)
  rw [lt_iff_compare, unpack₁]
  unfold value? at hv
  cases unpack₂ : t.toModel.unpack with
  | notANumber => rw [unpack₂] at hv; cases hv
  | infinity sign => rw [unpack₂] at hv; cases hv
  | zero sign =>
    rw [unpack₂] at hv
    cases hv
    have greater : UnpackedFloat.compare (.finite .positive m₁ e₁ positive₁) (.zero sign) =
      some .gt := by cases sign <;> rfl
    rw [greater]
    simpa using size.le
  | finite sign m₂ e₂ positive₂ =>
    rw [unpack₂] at hv
    cases hv
    cases sign with
    | negative =>
      have greater : UnpackedFloat.compare (.finite .positive m₁ e₁ positive₁)
        (.finite .negative m₂ e₂ positive₂) = some .gt := rfl
      have below : ((Sign.apply .negative m₂ : Int) : ℚ) * 2 ^ e₂ ≤ 0 := by
        have down : (Sign.apply .negative m₂ : Int) = -m₂ := rfl
        have size₂ : (0 : ℚ) ≤ m₂ * 2 ^ e₂ := by positivity
        rw [down]
        push_cast
        linarith
      rw [greater]
      simpa using below.trans size.le
    | positive =>
      obtain ⟨high₂, -, wide⟩ := mantissa_bounds unpack₂
      have number : ((Sign.apply .positive m₂ : Int) : ℚ) = m₂ := rfl
      have ordered : UnpackedFloat.compare (.finite .positive m₁ e₁ positive₁)
        (.finite .positive m₂ e₂ positive₂) = some ((compare e₁ e₂).then (compare m₁ m₂)) := rfl
      rw [ordered, number]
      rcases lt_trichotomy e₁ e₂ with less | same | more
      · have low₂ : 2 ^ 52 ≤ m₂ := by omega
        simp [compare_lt_iff_lt.2 less, scaled_lt high₁ low₂ less]
      · rw [same, compare_eq_iff_eq.2 rfl, mul_lt_mul_iff_left₀ (zpow_pos two_pos e₂)]
        simp [compare_lt_iff_lt]
      · simp [compare_gt_iff_gt.2 more, (scaled_lt high₂ low₁ more).le]

/-- Doubles are on the same side of another if their numbers are on the same side of its number. One
that stands for no number exceeds all that do, or none. -/
theorem Normal.lt_congr {t : Float} (hf : Normal f x) (hg : Normal g y)
    (same : ∀ v, value? t = some v → (x < v ↔ y < v)) : f < t ↔ g < t := by
  cases stands : value? t with
  | some v => rw [hf.lt_iff stands, hg.lt_iff stands, same v stands]
  | none =>
    obtain ⟨m₁, e₁, positive₁, unpack₁, -⟩ := hf
    obtain ⟨m₂, e₂, positive₂, unpack₂, -⟩ := hg
    rw [lt_iff_compare, lt_iff_compare, unpack₁, unpack₂]
    unfold value? at stands
    cases unpack : t.toModel.unpack with
    | notANumber => rfl
    | infinity sign => cases sign <;> rfl
    | zero sign => rw [unpack] at stands; cases stands
    | finite sign m e positive => rw [unpack] at stands; cases stands

/-- Whether a number is off from what a double stands for by more than a part of itself. -/
def Clear (part y : ℚ) (t : Float) : Prop :=
  ∀ v, value? t = some v → part * y < |v - y|

/-- Doubles that are near the same number are on the same side of a double that is not near it. -/
theorem Normal.lt_congr_of_near {part z : ℚ} {t : Float} (hf : Normal f x) (hg : Normal g y)
    (near : Near part x z) (near' : Near part y z) (clear : Clear part z t) : f < t ↔ g < t := by
  refine hf.lt_congr hg fun v stands => ?_
  have least := clear v stands
  obtain ⟨low, high⟩ := near
  obtain ⟨low', high'⟩ := near'
  rw [lt_abs] at least
  rcases least with above | below
  · exact iff_of_true (by linarith) (by linarith)
  · exact iff_of_false (by linarith) (by linarith)

end JobSwarm.Double
