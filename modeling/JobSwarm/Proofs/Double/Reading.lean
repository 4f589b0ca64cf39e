import JobSwarm.Decimal.Exact
import JobSwarm.Proofs.Double.Exact

/-!
# Doubles and their numbers

A double is its sign, its mantissa and its exponent, which is how its text is computed. A number is
rounded to one double only.

Results:

* `ofFloat_eq`: what is read off the bits of a double.
* `Normal.eq_of_value`: doubles that stand for one number are the same.
* `RoundedTo.unique`: a number is rounded to one number.
-/

namespace JobSwarm.Double

open Decimal (Exact Reading)
open Float.Model (Format UnpackedFloat)
open Float.Model.UnpackedFloat (Sign pack_unpack_of_valid unpackExponent unpackExponent_def
  unpackMantissa unpackMantissa_def unpackSign unpackSign_def)

variable {f g : Float} {x y z : ℚ}

/-! ## Bits -/

/-- A double is given by its parts. -/
theorem eq_of_unpack (same : f.toModel.unpack = g.toModel.unpack) : f = g := by
  have packed (f : Float) :
      UnpackedFloat.pack Format.binary64 f.toModel.unpack = f.toModel.toBits.toBitVec :=
    pack_unpack_of_valid f.toModel.valid
  have bits : f.toModel.toBits.toBitVec = g.toModel.toBits.toBitVec := by
    rw [← packed f, ← packed g, same]
  obtain ⟨⟨⟨f⟩, _⟩⟩ := f
  obtain ⟨⟨⟨g⟩, _⟩⟩ := g
  cases bits
  rfl

section Bits

variable (bits : BitVec Format.binary64.numBits)

theorem unpackExponent_toNat :
    (unpackExponent bits).toNat = bits.toNat / Decimal.fractionCount % Decimal.exponentCount := by
  rw [unpackExponent_def, BitVec.extractLsb'_toNat, Nat.shiftRight_eq_div_pow]
  rfl

theorem unpackMantissa_toNat :
    (unpackMantissa bits).toNat = bits.toNat % Decimal.fractionCount := by
  rw [unpackMantissa_def, BitVec.extractLsb'_toNat, Nat.shiftRight_zero]
  rfl

theorem unpackSign_toNat :
    (unpackSign bits).toNat =
      bits.toNat / Decimal.fractionCount / Decimal.exponentCount % 2 := by
  rw [unpackSign_def, BitVec.extractLsb'_toNat, Nat.shiftRight_eq_div_pow, Nat.div_div_eq_div_mul]
  rfl

/-- Whether a number is negative. -/
def isNegative : Sign → Bool
  | .negative => true
  | .positive => false

/-- What the parts of a double say. -/
def readingOf : UnpackedFloat → Reading
  | .notANumber => .nan
  | .infinity sign => .infinite (isNegative sign)
  | .zero sign => .finite ⟨isNegative sign, 0, -1074⟩
  | .finite sign m e _ => .finite ⟨isNegative sign, m, e⟩

theorem isNegative_unpackSign :
    isNegative (Sign.ofBitVec (unpackSign bits)) =
      (bits.toNat / Decimal.fractionCount / Decimal.exponentCount % 2 == 1) := by
  rw [← unpackSign_toNat]
  generalize unpackSign bits = sign
  revert sign
  decide

theorem ofBits_eq :
    Reading.ofBits bits.toNat = readingOf (UnpackedFloat.unpack Format.binary64 bits) := by
  have bias : (Format.binary64.exponentBias : Int) + (52 : Nat) = 1075 := rfl
  have small : (unpackMantissa bits).toNat < Decimal.fractionCount := (unpackMantissa bits).isLt
  have top : unpackExponent bits = -1#11 ↔ (unpackExponent bits).toNat = 2047 :=
    ⟨fun same => same ▸ rfl, fun same => BitVec.eq_of_toNat_eq same⟩
  have bottom : unpackExponent bits = 0#11 ↔ (unpackExponent bits).toNat = 0 :=
    ⟨fun same => same ▸ rfl, fun same => BitVec.eq_of_toNat_eq same⟩
  have none : unpackMantissa bits = 0#52 ↔ (unpackMantissa bits).toNat = 0 :=
    ⟨fun same => same ▸ rfl, fun same => BitVec.eq_of_toNat_eq same⟩
  have leading : (1#1 ++ unpackMantissa bits).toNat =
      Decimal.fractionCount + (unpackMantissa bits).toNat := by
    rw [BitVec.toNat_append, ← Nat.shiftLeft_add_eq_or_of_lt small]
    rfl
  unfold Reading.ofBits UnpackedFloat.unpack
  dsimp only
  rw [← isNegative_unpackSign, ← unpackExponent_toNat, ← unpackMantissa_toNat, bias]
  simp only [top, bottom, none]
  by_cases huge : (unpackExponent bits).toNat = 2047
  · rw [if_pos huge, if_pos huge]
    split <;> rfl
  rw [if_neg huge, if_neg huge]
  by_cases tiny : (unpackExponent bits).toNat = 0
  · rw [if_pos tiny, if_pos tiny]
    split
    · next zero => rw [zero]; rfl
    · rw [tiny]; rfl
  · rw [if_neg tiny, if_neg tiny, readingOf, leading]

end Bits

/-- What is read off the bits of a double are its parts. -/
theorem ofFloat_eq (f : Float) : Reading.ofFloat f = readingOf f.toModel.unpack :=
  ofBits_eq f.toModel.toBits.toBitVec

/-! ## Numbers -/

theorem Normal.reading (h : Normal f x) :
    ∃ m e, Reading.ofFloat f = .finite ⟨false, m, e⟩ ∧ 2 ^ 52 ≤ m ∧ m < 2 ^ 53 ∧ -300 ≤ e ∧
      e ≤ 300 ∧ x = m * 2 ^ e := by
  obtain ⟨m, e, positive, unpack, low, high, small, large, value⟩ := h
  refine ⟨m, e, ?_, low, high, small, large, value⟩
  rw [ofFloat_eq, unpack]
  rfl

theorem Normal.of_reading {m : Nat} {e : Int} (reading : Reading.ofFloat f = .finite ⟨false, m, e⟩)
    (low : 2 ^ 52 ≤ m) (high : m < 2 ^ 53) (small : -300 ≤ e) (large : e ≤ 300) :
    Normal f (m * 2 ^ e) := by
  rw [ofFloat_eq] at reading
  cases unpack : f.toModel.unpack with
  | notANumber => rw [unpack] at reading; cases reading
  | infinity sign => rw [unpack] at reading; cases reading
  | zero sign =>
    rw [unpack] at reading
    cases sign <;> cases reading
    exact absurd low (by decide)
  | finite sign m' e' positive =>
    rw [unpack] at reading
    cases sign with
    | negative => cases reading
    | positive =>
      cases reading
      exact ⟨m, e, positive, unpack, low, high, small, large, rfl⟩

/-- Another sign is all that becomes of a double when its sign is changed. -/
theorem Normal.neg_reading (h : Normal f x) {m : Nat} {e : Int}
    (reading : Reading.ofFloat f = .finite ⟨false, m, e⟩) :
    Reading.ofFloat (-f) = .finite ⟨true, m, e⟩ := by
  obtain ⟨m', e', positive, unpack, low, high, small, large, -⟩ := h
  rw [ofFloat_eq, unpack] at reading
  cases reading
  have unpack_neg : (-f).toModel.unpack = .finite .negative m e positive := by
    show (Float.Model.pack (UnpackedFloat.neg f.toModel.unpack)).unpack = _
    rw [unpack]
    exact unpack_pack .negative positive low high (by omega) (by omega)
  rw [ofFloat_eq, unpack_neg]
  rfl

/-- A number has one mantissa of 53 bits, and one exponent. -/
theorem scaled_inj {m₁ m₂ : Nat} {e₁ e₂ : Int} (low₁ : 2 ^ 52 ≤ m₁) (high₁ : m₁ < 2 ^ 53)
    (low₂ : 2 ^ 52 ≤ m₂) (high₂ : m₂ < 2 ^ 53) (same : (m₁ : ℚ) * 2 ^ e₁ = m₂ * 2 ^ e₂) :
    m₁ = m₂ ∧ e₁ = e₂ := by
  rcases lt_trichotomy e₁ e₂ with less | rfl | more
  · exact absurd same (scaled_lt high₁ low₂ less).ne
  · have mantissa := mul_right_cancel₀ (zpow_pos two_pos e₁).ne' same
    exact ⟨by exact_mod_cast mantissa, rfl⟩
  · exact absurd same.symm (scaled_lt high₂ low₁ more).ne

/-- Doubles that stand for one number are the same. -/
theorem Normal.eq_of_value (hf : Normal f x) (hg : Normal g x) : f = g := by
  obtain ⟨m, e, positive, unpack, low, high, -, -, rfl⟩ := hf
  obtain ⟨m', e', positive', unpack', low', high', -, -, value⟩ := hg
  obtain ⟨rfl, rfl⟩ := scaled_inj low high low' high' value
  exact eq_of_unpack (unpack.trans unpack'.symm)

/-- A number is rounded to one number. -/
theorem RoundedTo.unique (hx : RoundedTo z x) (hy : RoundedTo z y) : x = y := by
  obtain ⟨E, place, r, nearest, rfl⟩ := hx
  obtain ⟨F, place', s, nearest', rfl⟩ := hy
  have same : E = F := le_antisymm (place.le place' le_rfl) (place'.le place le_rfl)
  subst same
  have whole : (r : Int) = s := nearest.eq_of_near nearest'.near fun tie =>
    (Int.even_coe_nat s).2 (nearest'.even tie)
  rw [Int.natCast_inj.1 whole]

end JobSwarm.Double
