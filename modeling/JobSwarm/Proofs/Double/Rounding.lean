import Mathlib

/-!
# Rounding of doubles

A double of moderate size stands for a rational number, with a mantissa of 53 bits. Whatever is
computed is rounded to the nearest of these, and to an even mantissa if two are as near.

Results:

* `stands_shiftRight`, `nearest_roundedMantissa`: the last bits of a mantissa tell what was shifted
  out of it, as far as it matters to rounding.
* `unpack_pack`: what is packed is unpacked again.
* `rounds`: any number of moderate size is rounded.
* `RoundedAt.off`: by half of its last place at most.
* `RoundedAt.le_of_multiple`, `RoundedAt.ge_of_multiple`: not past another double.
-/

namespace JobSwarm.Double

open Float.Model (Format UnpackedFloat totalExponent)
open Float.Model.UnpackedFloat (Accuracy ExtendedMantissa Sign accuracyOfFraction packComponents
  roundWithAccuracy shiftToExponent shiftToTargetExponent)

/-! ## Bits that are left out -/

/-- What an accuracy says of the part of a number that its mantissa leaves out. -/
def Tells : Accuracy → ℚ → Prop
  | .exact, part => part = 0
  | .inexact .lt, part => 0 < part ∧ part < 1 / 2
  | .inexact .eq, part => part = 1 / 2
  | .inexact .gt, part => 1 / 2 < part ∧ part < 1

/-- Whether a mantissa with its last two bits stands for a number. -/
def Stands (em : ExtendedMantissa) (z : ℚ) : Prop :=
  Tells em.accuracy (z - em.mantissa)

theorem stands_ofMantissaAndAccuracy {m : Nat} {accuracy : Accuracy} {z : ℚ}
    (h : Tells accuracy (z - m)) :
    Stands (ExtendedMantissa.ofMantissaAndAccuracy m accuracy) z := by
  rcases accuracy with _ | (_ | _ | _) <;> exact h

/-- The last bits of a mantissa keep what is shifted out of it. -/
theorem stands_shiftRightOne {em : ExtendedMantissa} {z : ℚ} (h : Stands em z) :
    Stands em.shiftRightOne (z / 2) := by
  obtain ⟨m, roundBit, stickyBit⟩ := em
  have halves : (m : ℚ) = 2 * (m / 2 : Nat) + (m % 2 : Nat) := by
    exact_mod_cast (Nat.div_add_mod m 2).symm
  rcases Nat.mod_two_eq_zero_or_one m with even | odd
  · rw [even, Nat.cast_zero, add_zero] at halves
    have bit : (0 != 0) = false := rfl
    cases roundBit <;> cases stickyBit <;>
      simp only [Stands, Tells, ExtendedMantissa.accuracy, ExtendedMantissa.shiftRightOne, halves,
        even, bit, Bool.or_true, Bool.or_false] at h ⊢
    · linarith
    · constructor <;> linarith
    · constructor <;> linarith
    · constructor <;> linarith
  · rw [odd, Nat.cast_one] at halves
    have bit : (1 != 0) = true := rfl
    cases roundBit <;> cases stickyBit <;>
      simp only [Stands, Tells, ExtendedMantissa.accuracy, ExtendedMantissa.shiftRightOne, halves,
        odd, bit, Bool.or_true, Bool.or_false] at h ⊢
    · linarith
    · constructor <;> linarith
    · constructor <;> linarith
    · constructor <;> linarith

theorem stands_shiftRight {em : ExtendedMantissa} {z : ℚ} (h : Stands em z) (count : Nat) :
    Stands (em >>> count) (z / 2 ^ count) := by
  induction count with
  | zero => rwa [pow_zero, div_one]
  | succ count ih =>
    rw [pow_succ, ← div_div]
    exact stands_shiftRightOne ih

/-- Whether a whole number is nearest to a number; of two that are, the even one. -/
structure Nearest (z : ℚ) (n : Nat) : Prop where
  near : |(n : ℚ) - z| ≤ 1 / 2
  even : |(n : ℚ) - z| = 1 / 2 → Even n

/-- No other whole number is as near, unless both are half away. Then both would be even. -/
theorem Nearest.eq_of_near {z : ℚ} {r : Nat} {k : Int} (nearest : Nearest z r)
    (near : |(k : ℚ) - z| ≤ 1 / 2) (even : |(k : ℚ) - z| = 1 / 2 → Even k) : (r : Int) = k := by
  have near' := nearest.near
  rw [abs_le] at near near'
  by_contra apart
  have one : (r : Int) + 1 = k ∨ k + 1 = (r : Int) := by
    have low : (r : ℚ) ≤ k + 1 := by linarith
    have high : (k : ℚ) ≤ r + 1 := by linarith
    have low' : (r : Int) ≤ k + 1 := by exact_mod_cast low
    have high' : k ≤ (r : Int) + 1 := by exact_mod_cast high
    omega
  have ties : |(r : ℚ) - z| = 1 / 2 ∧ |(k : ℚ) - z| = 1 / 2 := by
    rcases one with less | more
    · have less' : (r : ℚ) + 1 = k := by exact_mod_cast less
      rw [abs_of_nonpos (by linarith), abs_of_nonneg (by linarith)]
      constructor <;> linarith
    · have more' : (k : ℚ) + 1 = r := by exact_mod_cast more
      rw [abs_of_nonneg (by linarith), abs_of_nonpos (by linarith)]
      constructor <;> linarith
  obtain ⟨a, ha⟩ := nearest.even ties.1
  obtain ⟨b, hb⟩ := even ties.2
  omega

theorem nearest_roundedMantissa {em : ExtendedMantissa} {z : ℚ} (h : Stands em z) :
    Nearest z em.roundedMantissa := by
  obtain ⟨m, roundBit, stickyBit⟩ := em
  cases roundBit <;> cases stickyBit <;>
    simp only [Stands, Tells, ExtendedMantissa.accuracy] at h
  · have same : (m : ℚ) - z = 0 := by linarith
    show Nearest z m
    constructor <;> norm_num [same]
  · show Nearest z m
    have size : |(m : ℚ) - z| < 1 / 2 := by
      rw [abs_lt]
      constructor <;> linarith
    exact ⟨size.le, fun tie => absurd tie size.ne⟩
  · show Nearest z (m + m % 2)
    rcases Nat.mod_two_eq_zero_or_one m with even | odd
    · rw [even, Nat.add_zero]
      have size : (m : ℚ) - z = -(1 / 2) := by linarith
      refine ⟨by rw [size]; norm_num, fun _ => Nat.even_iff.2 even⟩
    · rw [odd]
      have size : ((m + 1 : Nat) : ℚ) - z = 1 / 2 := by
        push_cast
        linarith
      refine ⟨by rw [size]; norm_num, fun _ => Nat.even_iff.2 (by omega)⟩
  · show Nearest z (m + 1)
    have size : |((m + 1 : Nat) : ℚ) - z| < 1 / 2 := by
      push_cast
      rw [abs_lt]
      constructor <;> linarith
    exact ⟨size.le, fun tie => absurd tie size.ne⟩

/-- What a division of whole numbers leaves out. -/
theorem tells_accuracyOfFraction {a b : Nat} (positive : 0 < b) :
    Tells (accuracyOfFraction (a % b) b) ((a : ℚ) / b - (a / b : Nat)) := by
  have positive' : (0 : ℚ) < b := by exact_mod_cast positive
  have whole : (a : ℚ) = b * (a / b : Nat) + (a % b : Nat) := by
    exact_mod_cast (Nat.div_add_mod a b).symm
  have part : (a : ℚ) / b - (a / b : Nat) = (a % b : Nat) / b := by
    rw [sub_eq_iff_eq_add, div_eq_iff positive'.ne']
    rw [add_mul, div_mul_cancel₀ _ positive'.ne']
    linarith
  have small : ((a % b : Nat) : ℚ) < b := by exact_mod_cast Nat.mod_lt a positive
  rw [part]
  generalize a % b = rest at small
  unfold accuracyOfFraction
  split
  · next none => rw [none, Nat.cast_zero, zero_div, Tells]
  · next some =>
    have some' : (0 : ℚ) < rest := by exact_mod_cast Nat.pos_of_ne_zero some
    rcases lt_trichotomy (2 * rest) b with less | same | more
    · have less' : (2 * rest : ℚ) < b := by exact_mod_cast less
      rw [compare_lt_iff_lt.2 less]
      refine ⟨by positivity, ?_⟩
      rw [div_lt_div_iff₀ positive' two_pos]
      linarith
    · have same' : (2 * rest : ℚ) = b := by exact_mod_cast same
      rw [compare_eq_iff_eq.2 same, Tells, div_eq_div_iff positive'.ne' two_ne_zero]
      linarith
    · have more' : (b : ℚ) < 2 * rest := by exact_mod_cast more
      rw [compare_gt_iff_gt.2 more]
      refine ⟨?_, (div_lt_one positive').2 small⟩
      rw [div_lt_div_iff₀ two_pos positive']
      linarith

/-! ## Mantissas of 53 bits -/

/-- The exponent of a double of moderate size, by its leading bit. -/
theorem targetExponent_eq {m : Nat} {e : Int} (moderate : -1022 ≤ (m.log2 : Int) + e) :
    Format.binary64.targetExponent (totalExponent m e) = m.log2 + e - 52 := by
  show max ((m.log2 : Int) + 1 + e - 53) (3 - 2 ^ 10 - 53) = _
  omega

theorem log2_eq {m : Nat} (low : 2 ^ 52 ≤ m) (high : m < 2 ^ 53) : m.log2 = 52 :=
  (Nat.log2_eq_iff (by omega)).2 ⟨low, high⟩

/-- All but the first 53 bits of a mantissa are shifted out. -/
theorem shiftToTargetExponent_eq {m : Nat} {e : Int} (accuracy : Accuracy) (wide : 52 ≤ m.log2)
    (moderate : -900 ≤ (m.log2 : Int) + e) :
    shiftToTargetExponent Format.binary64 m e accuracy =
      (ExtendedMantissa.ofMantissaAndAccuracy m accuracy >>> (m.log2 - 52), m.log2 + e - 52) := by
  have target : Format.binary64.targetExponent (totalExponent m e) = m.log2 + e - 52 :=
    targetExponent_eq (by omega)
  have shift : ((m.log2 : Int) + e - 52 - e).toNat = m.log2 - 52 := by omega
  have exponent : e + ((m.log2 - 52 : Nat) : Int) = m.log2 + e - 52 := by omega
  unfold shiftToTargetExponent shiftToExponent
  dsimp only
  rw [target, shift, exponent]

theorem shiftRight_mantissa (em : ExtendedMantissa) (count : Nat) :
    (em >>> count).mantissa = em.mantissa / 2 ^ count := by
  induction count with
  | zero => exact (Nat.div_one _).symm
  | succ count ih =>
    show (em >>> count).mantissa / 2 = _
    rw [ih, Nat.div_div_eq_div_mul, Nat.pow_succ]

theorem ofMantissaAndAccuracy_mantissa (m : Nat) (accuracy : Accuracy) :
    (ExtendedMantissa.ofMantissaAndAccuracy m accuracy).mantissa = m := by
  rcases accuracy with _ | (_ | _ | _) <;> rfl

theorem roundedMantissa_bounds (em : ExtendedMantissa) :
    em.mantissa ≤ em.roundedMantissa ∧ em.roundedMantissa ≤ em.mantissa + 1 := by
  obtain ⟨mantissa, roundBit, stickyBit⟩ := em
  cases roundBit <;> cases stickyBit <;>
    simp only [ExtendedMantissa.roundedMantissa, ExtendedMantissa.accuracy,
      Accuracy.roundToNearestEven] <;> omega

/-- What is left of a mantissa has 53 bits. -/
theorem shifted_bounds {m : Nat} (wide : 52 ≤ m.log2) :
    2 ^ 52 ≤ m / 2 ^ (m.log2 - 52) ∧ m / 2 ^ (m.log2 - 52) < 2 ^ 53 := by
  have positive : m ≠ 0 := by
    intro zero
    rw [zero] at wide
    exact absurd wide (by decide)
  have low := Nat.log2_self_le positive
  have high : m < 2 ^ (m.log2 + 1) := Nat.lt_log2_self
  constructor
  · rw [Nat.le_div_iff_mul_le (by positivity), ← Nat.pow_add]
    rwa [Nat.add_sub_cancel' wide]
  · rw [Nat.div_lt_iff_lt_mul (by positivity), ← Nat.pow_add]
    rwa [show 53 + (m.log2 - 52) = m.log2 + 1 by omega]

/-- A mantissa is cut off after 53 bits, rounded, and stands for the same number if it had to be
shortened once more. -/
theorem roundWithAccuracy_eq {m : Nat} {e : Int} {accuracy : Accuracy} {z : ℚ}
    (tells : Tells accuracy (z - m)) (wide : 52 ≤ m.log2) (moderate : -900 ≤ (m.log2 : Int) + e) :
    ∃ (m' : Nat) (e' : Int) (h : 0 < m') (r : Nat),
      roundWithAccuracy Format.binary64 .positive m e accuracy = .finite .positive m' e' h ∧
      2 ^ 52 ≤ m' ∧ m' < 2 ^ 53 ∧
      m.log2 + e - 52 ≤ e' ∧ e' ≤ m.log2 + e - 51 ∧
      Nearest (z / 2 ^ (m.log2 - 52)) r ∧
      (m' : ℚ) * 2 ^ e' = (r : ℚ) * 2 ^ ((m.log2 : Int) + e - 52) := by
  obtain ⟨low, high⟩ := shifted_bounds wide
  have stands := stands_shiftRight (stands_ofMantissaAndAccuracy tells) (m.log2 - 52)
  have cut := shiftRight_mantissa (.ofMantissaAndAccuracy m accuracy) (m.log2 - 52)
  rw [ofMantissaAndAccuracy_mantissa] at cut
  unfold roundWithAccuracy
  rw [shiftToTargetExponent_eq accuracy wide moderate]
  dsimp only
  generalize ExtendedMantissa.ofMantissaAndAccuracy m accuracy >>> (m.log2 - 52) = em
    at stands cut ⊢
  obtain ⟨down, up⟩ := roundedMantissa_bounds em
  have nearest := nearest_roundedMantissa stands
  rw [cut] at down up
  generalize em.roundedMantissa = r at down up nearest ⊢
  have wide' : 52 ≤ r.log2 := (Nat.le_log2 (by omega)).2 (low.trans down)
  have log_high : r.log2 ≤ 53 := by
    have below : r.log2 < 54 := (Nat.log2_lt (by omega)).2 (by omega)
    omega
  obtain ⟨low', high'⟩ := shifted_bounds wide'
  have cut' := shiftRight_mantissa (.ofMantissaAndAccuracy r .exact) (r.log2 - 52)
  rw [ofMantissaAndAccuracy_mantissa] at cut'
  rw [shiftToTargetExponent_eq .exact wide' (by omega)]
  dsimp only
  rw [cut']
  refine ⟨_, _, by omega, r, dif_neg (by omega), low', high', by omega, by omega, nearest, ?_⟩
  obtain fits | carry : r.log2 = 52 ∨ r.log2 = 53 := by omega
  · rw [fits, Nat.sub_self, pow_zero, Nat.div_one]
    congr 2
    omega
  · -- rounding up gave one bit more, which is zero
    have most : r = 2 ^ 53 := by
      have least : 2 ^ 53 ≤ r := carry ▸ Nat.log2_self_le (by omega)
      omega
    have halved : (2 ^ 53 : Nat) / 2 ^ 1 = 2 ^ 52 := by decide
    have carried : ((53 : Nat) : Int) + ((m.log2 : Int) + e - 52) - 52 =
      (m.log2 : Int) + e - 52 + 1 := by omega
    rw [carry, carried, most, halved, zpow_add_one₀ two_ne_zero]
    push_cast
    ring

/-! ## Packing -/

variable {m : Nat} {e : Int}

theorem pack_eq (sign : Sign) (h : 0 < m) (low : 2 ^ 52 ≤ m) (high : m < 2 ^ 53)
    (large : e ≤ 900) :
    UnpackedFloat.pack Format.binary64 (.finite sign m e h) =
      packComponents Format.binary64 sign (.ofNat 11 (e + 1075).toNat) (.ofNat 52 m) := by
  have log : m.log2 = 52 := log2_eq low high
  have biased : e + ((2 ^ (11 - 1) - 1 : Nat) : Int) + (52 : Nat) = e + 1075 := by
    norm_num
    omega
  have fits : ¬2 ^ 11 ≤ (e + 1075).toNat + 1 := by omega
  simp only [UnpackedFloat.pack, Format.exponentBias, Format.binary64, Format.mantissaBits, log,
    biased, fits]
  rfl

/-- The leading bit of a mantissa is not kept, but it is known. -/
theorem unpack_eq {biased : Nat} (sign : Sign) (h : 0 < m) (low : 2 ^ 52 ≤ m)
    (high : m < 2 ^ 53) (positive : 0 < biased) (below : biased < 2047) :
    UnpackedFloat.unpack Format.binary64
        (packComponents Format.binary64 sign (.ofNat 11 biased) (.ofNat 52 m)) =
      .finite sign m (biased - 1075) h := by
  have exponent : (BitVec.ofNat 11 biased).toNat = biased := by
    rw [BitVec.toNat_ofNat]
    omega
  have not_top : BitVec.ofNat 11 biased ≠ -1#11 := by
    intro same
    have top : biased = (-1#11).toNat := by rw [← same, exponent]
    rw [show (-1#11).toNat = 2047 by decide] at top
    omega
  have not_zero : BitVec.ofNat 11 biased ≠ 0#11 := by
    intro same
    have zero : biased = (0#11).toNat := by rw [← same, exponent]
    rw [show (0#11).toNat = 0 by decide] at zero
    omega
  have mantissa : (1#1 ++ BitVec.ofNat 52 m).toNat = m := by
    have kept : (BitVec.ofNat 52 m).toNat = m % 2 ^ 52 := BitVec.toNat_ofNat ..
    have rest : m % 2 ^ 52 < 2 ^ 52 := Nat.mod_lt _ (by decide)
    rw [BitVec.toNat_append, kept, ← Nat.shiftLeft_add_eq_or_of_lt rest,
      show (1#1).toNat <<< 52 = 2 ^ 52 by decide]
    omega
  unfold UnpackedFloat.unpack
  simp only [Float.Model.UnpackedFloat.unpackExponent_packComponents,
    Float.Model.UnpackedFloat.unpackMantissa_packComponents,
    Float.Model.UnpackedFloat.unpackSign_packComponents, Sign.ofBitVec_toBitVec]
  rw [if_neg not_top, if_neg not_zero]
  simp only [mantissa, exponent]
  rfl

/-- What is packed is unpacked again, unless it is too large or too small. -/
theorem unpack_pack (sign : Sign) (h : 0 < m) (low : 2 ^ 52 ≤ m) (high : m < 2 ^ 53)
    (small : -1000 ≤ e) (large : e ≤ 900) :
    (Float.Model.pack (.finite sign m e h)).unpack = .finite sign m e h := by
  have back : ((e + 1075).toNat : Int) - 1075 = e := by omega
  show UnpackedFloat.unpack Format.binary64
    (UnpackedFloat.pack Format.binary64 (.finite sign m e h)) = _
  rw [pack_eq sign h low high large, unpack_eq sign h low high (by omega) (by omega), back]

/-! ## Rounding -/

/-- A positive double of moderate size, and the number that it stands for. -/
def Normal (f : Float) (x : ℚ) : Prop :=
  ∃ (m : Nat) (e : Int) (h : 0 < m), f.toModel.unpack = .finite .positive m e h ∧
    2 ^ 52 ≤ m ∧ m < 2 ^ 53 ∧ -300 ≤ e ∧ e ≤ 300 ∧ x = m * 2 ^ e

theorem normal_of_pack {m : Nat} {e : Int} (h : 0 < m) (low : 2 ^ 52 ≤ m) (high : m < 2 ^ 53)
    (small : -300 ≤ e) (large : e ≤ 300) :
    Normal (.ofModel (.pack (.finite .positive m e h))) (m * 2 ^ e) :=
  ⟨m, e, h, unpack_pack .positive h low high (by omega) (by omega), low, high, small, large, rfl⟩

/-- Whether the last of 53 places of a number is that of `2 ^ E`. -/
structure LastPlace (y : ℚ) (E : Int) : Prop where
  low : (2 : ℚ) ^ 52 * 2 ^ E ≤ y
  high : y < (2 : ℚ) ^ 53 * 2 ^ E

theorem pow_mul_zpow (n : Nat) (E : Int) : (2 : ℚ) ^ n * 2 ^ E = 2 ^ (n + E) := by
  rw [zpow_add₀ two_ne_zero, zpow_natCast]

/-- Whether a number is rounded to another, which is nearest among the multiples of `2 ^ E`, the
last place. -/
structure RoundedAt (E : Int) (y x : ℚ) : Prop where
  place : LastPlace y E
  nearest : ∃ r : Nat, Nearest (y / 2 ^ E) r ∧ x = r * 2 ^ E

/-- Whether a number is rounded to another. -/
def RoundedTo (y x : ℚ) : Prop :=
  ∃ E, RoundedAt E y x

/-- A number that is neither tiny nor huge. -/
def Moderate (y : ℚ) : Prop :=
  (2 : ℚ) ^ (-80 : Int) ≤ y ∧ y ≤ (2 : ℚ) ^ (80 : Int)

theorem LastPlace.moderate {y : ℚ} {E : Int} (place : LastPlace y E) (h : Moderate y) :
    -133 ≤ E ∧ E ≤ 28 := by
  have least := place.low.trans h.2
  have most := h.1.trans_lt place.high
  rw [pow_mul_zpow, zpow_le_zpow_iff_right₀ one_lt_two] at least
  rw [pow_mul_zpow, zpow_lt_zpow_iff_right₀ one_lt_two] at most
  omega

theorem tells_bounds {accuracy : Accuracy} {part : ℚ} (h : Tells accuracy part) :
    0 ≤ part ∧ part < 1 := by
  rcases accuracy with _ | (_ | _ | _) <;> simp only [Tells] at h <;> constructor <;> linarith

/-- A number of moderate size is rounded. -/
theorem rounds {accuracy : Accuracy} {y : ℚ} (wide : 2 ^ 52 ≤ m)
    (tells : Tells accuracy (y / 2 ^ e - m)) (moderate : Moderate y) :
    ∃ x, Normal (.ofModel (.pack (roundWithAccuracy Format.binary64 .positive m e accuracy))) x ∧
      RoundedTo y x := by
  have log : 52 ≤ m.log2 := (Nat.le_log2 (by omega)).2 wide
  have size : (0 : ℚ) < 2 ^ e := zpow_pos two_pos e
  obtain ⟨below, above⟩ := tells_bounds tells
  have place : LastPlace y (m.log2 + e - 52) := by
    have leading : 2 ^ m.log2 ≤ m := Nat.log2_self_le (by omega)
    have leading' : (2 : ℚ) ^ m.log2 ≤ m := by exact_mod_cast leading
    have bits : m + 1 ≤ 2 ^ (m.log2 + 1) := Nat.lt_log2_self
    have bits' : (m + 1 : ℚ) ≤ 2 ^ (m.log2 + 1) := by exact_mod_cast bits
    constructor
    · rw [pow_mul_zpow, show ((52 : Nat) : Int) + (m.log2 + e - 52) = (m.log2 : Nat) + e by omega,
        ← pow_mul_zpow, ← le_div_iff₀ size]
      linarith
    · rw [pow_mul_zpow,
        show ((53 : Nat) : Int) + (m.log2 + e - 52) = (m.log2 + 1 : Nat) + e by omega,
        ← pow_mul_zpow, ← div_lt_iff₀ size]
      linarith
  obtain ⟨small, large⟩ := place.moderate moderate
  obtain ⟨m', e', h, r, rounded, low, high, least, most, nearest, value⟩ :=
    roundWithAccuracy_eq tells log (e := e) (by omega)
  have scaled : y / 2 ^ e / 2 ^ (m.log2 - 52) = y / 2 ^ ((m.log2 : Int) + e - 52) := by
    rw [show (m.log2 : Int) + e - 52 = e + (m.log2 - 52 : Nat) by omega, zpow_add₀ two_ne_zero,
      zpow_natCast, div_div]
  rw [rounded]
  rw [scaled] at nearest
  exact ⟨_, normal_of_pack h low high (by omega) (by omega), _, place, r, nearest, value⟩

/-! ## Multiples of the last place -/

/-- Whether a number is a whole multiple of `2 ^ E`. -/
def Multiple (E : Int) (c : ℚ) : Prop :=
  ∃ k : Int, c = k * 2 ^ E

section Multiples

variable {E F : Int} {c d x y : ℚ}

theorem Multiple.of_le (h : Multiple E c) (le : F ≤ E) : Multiple F c := by
  obtain ⟨k, rfl⟩ := h
  refine ⟨k * 2 ^ (E - F).toNat, ?_⟩
  push_cast
  rw [mul_assoc, ← zpow_natCast, ← zpow_add₀ two_ne_zero]
  congr 2
  omega

theorem Multiple.add (hc : Multiple E c) (hd : Multiple E d) : Multiple E (c + d) := by
  obtain ⟨k, rfl⟩ := hc
  obtain ⟨l, rfl⟩ := hd
  exact ⟨k + l, by push_cast; ring⟩

theorem Multiple.sub (hc : Multiple E c) (hd : Multiple E d) : Multiple E (c - d) := by
  obtain ⟨k, rfl⟩ := hc
  obtain ⟨l, rfl⟩ := hd
  exact ⟨k - l, by push_cast; ring⟩

theorem LastPlace.le (hx : LastPlace x E) (hy : LastPlace y F) (le : x ≤ y) : E ≤ F := by
  have less := (hx.low.trans le).trans_lt hy.high
  rw [pow_mul_zpow, pow_mul_zpow, zpow_lt_zpow_iff_right₀ one_lt_two] at less
  omega

namespace RoundedAt

theorem multiple (h : RoundedAt E y x) : Multiple E x := by
  obtain ⟨-, r, -, rfl⟩ := h
  exact ⟨r, by push_cast; rfl⟩

/-- Rounding is off by half of the last place at most. -/
theorem off (h : RoundedAt E y x) : |x - y| ≤ 2 ^ E / 2 := by
  obtain ⟨-, r, nearest, rfl⟩ := h
  have size : (0 : ℚ) < 2 ^ E := zpow_pos two_pos E
  have scaled : (r : ℚ) * 2 ^ E - y = (r - y / 2 ^ E) * 2 ^ E := by
    rw [sub_mul, div_mul_cancel₀ _ size.ne']
  rw [scaled, abs_mul, abs_of_pos size]
  have small := mul_le_mul_of_nonneg_right nearest.near size.le
  linarith

/-- Rounding does not go beyond a multiple of the last place. -/
theorem le_of_multiple (h : RoundedAt E y x) (hc : Multiple E c) (le : c ≤ y) : c ≤ x := by
  obtain ⟨-, r, nearest, rfl⟩ := h
  obtain ⟨k, rfl⟩ := hc
  have size : (0 : ℚ) < 2 ^ E := zpow_pos two_pos E
  have less : (k : ℚ) ≤ y / 2 ^ E := (le_div_iff₀ size).2 le
  have near := (abs_le.1 nearest.near).1
  have close : (k : ℚ) < ((r : Int) : ℚ) + 1 := by
    push_cast
    linarith
  have whole : k ≤ (r : Int) := Int.lt_add_one_iff.1 (by exact_mod_cast close)
  have whole' : (k : ℚ) ≤ r := by exact_mod_cast whole
  exact mul_le_mul_of_nonneg_right whole' size.le

theorem ge_of_multiple (h : RoundedAt E y x) (hc : Multiple E c) (le : y ≤ c) : x ≤ c := by
  obtain ⟨-, r, nearest, rfl⟩ := h
  obtain ⟨k, rfl⟩ := hc
  have size : (0 : ℚ) < 2 ^ E := zpow_pos two_pos E
  have less : y / 2 ^ E ≤ (k : ℚ) := (div_le_iff₀ size).2 le
  have near := (abs_le.1 nearest.near).2
  have close : ((r : Int) : ℚ) < k + 1 := by
    push_cast
    linarith
  have whole : (r : Int) ≤ k := Int.lt_add_one_iff.1 (by exact_mod_cast close)
  have whole' : (r : ℚ) ≤ k := by exact_mod_cast whole
  exact mul_le_mul_of_nonneg_right whole' size.le

theorem eq_of_multiple (h : RoundedAt E y x) (hy : Multiple E y) : x = y :=
  le_antisymm (h.ge_of_multiple hy le_rfl) (h.le_of_multiple hy le_rfl)

/-- A number that is half of the last place away from an even multiple is rounded to it. -/
theorem eq_of_even (h : RoundedAt E y x) {k : Int} (even : Even k)
    (off : |y - k * 2 ^ E| ≤ 2 ^ E / 2) : x = k * 2 ^ E := by
  obtain ⟨-, r, nearest, rfl⟩ := h
  have size : (0 : ℚ) < 2 ^ E := zpow_pos two_pos E
  have near : |(k : ℚ) - y / 2 ^ E| ≤ 1 / 2 := by
    rw [abs_sub_comm, ← mul_le_mul_iff_left₀ size, ← abs_of_pos size, ← abs_mul, abs_of_pos size,
      sub_mul, div_mul_cancel₀ _ size.ne']
    linarith
  rw [← nearest.eq_of_near near fun _ => even]
  push_cast
  rfl

end RoundedAt

end Multiples

end JobSwarm.Double
