import JobSwarm.Proofs.Double.Arithmetic

/-!
# Sums that are exact

Two numbers are rounded and added. If their true sum fits into 52 bits, that is what comes out: the
two errors make up half of its last place at most, and it is even.

Results:

* `RoundedTo.sum_short`: the sum of two rounded numbers, rounded, is their true sum.
* `toFloat_normal`: counts of less than 54 bits are doubles themselves.
-/

namespace JobSwarm.Double

variable {a b q x y w z : ℚ} {E F G Q : Int}

/-- Where the smaller number has smaller places, rounding it makes up for most of the error of the
larger. -/
theorem off_of_lt (sum : a + b = q) (mult : Multiple E q) (hx : RoundedAt E a x)
    (hw : RoundedAt F b w) (less : F < E) : |x + w - q| ≤ 2 ^ E / 2 := by
  have rest : Multiple E (q - x) := mult.sub hx.multiple
  have half : Multiple F (2 ^ E / 2) := by
    have halved : (2 : ℚ) ^ E / 2 = ((1 : Int) : ℚ) * 2 ^ (E - 1) := by
      rw [zpow_sub_one₀ two_ne_zero, Int.cast_one, one_mul, div_eq_mul_inv]
    have multiple : Multiple (E - 1) (2 ^ E / 2) := ⟨1, halved⟩
    exact multiple.of_le (by omega)
  have off := abs_le.1 hx.off
  have low : q - x - 2 ^ E / 2 ≤ w :=
    hw.le_of_multiple ((rest.of_le less.le).sub half) (by linarith)
  have high : w ≤ q - x + 2 ^ E / 2 :=
    hw.ge_of_multiple ((rest.of_le less.le).add half) (by linarith)
  rw [abs_le]
  constructor <;> linarith

/-- Where both have the same last place, the sum has a larger one. -/
theorem off_of_eq (sum : a + b = q) (place : LastPlace q Q) (hx : RoundedAt E a x)
    (hw : RoundedAt E b w) : E < Q ∧ |x + w - q| ≤ 2 ^ E := by
  have off := abs_le.1 hx.off
  have off' := abs_le.1 hw.off
  constructor
  · have low := hx.place.low
    have low' := hw.place.low
    have high := place.high
    have less : (2 : ℚ) ^ 53 * 2 ^ E < 2 ^ 53 * 2 ^ Q := by linarith
    rwa [mul_lt_mul_iff_right₀ (by positivity), zpow_lt_zpow_iff_right₀ one_lt_two] at less
  · rw [abs_le]
    constructor <;> linarith

/-- A number between half of a power of two and the power has a last place one below. -/
theorem place_below (place : LastPlace y G) (low : (2 : ℚ) ^ 51 * 2 ^ Q < y)
    (high : y < 2 ^ 52 * 2 ^ Q) : G = Q - 1 := by
  have most := low.trans place.high
  have least := place.low.trans_lt high
  rw [pow_mul_zpow, pow_mul_zpow, zpow_lt_zpow_iff_right₀ one_lt_two] at most
  rw [pow_mul_zpow, pow_mul_zpow, zpow_lt_zpow_iff_right₀ one_lt_two] at least
  omega

/-- If the sum is a power of two and what is added up is less, the last place of that is one below,
which is small enough. -/
theorem sum_exact_of_below (sum : a + b = 2 ^ 52 * 2 ^ Q) (positive : 0 < b) (le : b ≤ a)
    (hx : RoundedAt E a x) (hw : RoundedAt F b w) (hz : RoundedAt G (x + w) z)
    (near : (2 : ℚ) ^ 51 * 2 ^ Q < x + w) (short : x + w < 2 ^ 52 * 2 ^ Q) :
    z = 2 ^ 52 * 2 ^ Q := by
  have one : G = Q - 1 := place_below hz.place near short
  have same : (2 : ℚ) ^ 52 * 2 ^ Q = ((2 ^ 53 : Int) : ℚ) * 2 ^ G := by
    rw [one, zpow_sub_one₀ two_ne_zero]
    push_cast
    ring
  have mult : Multiple G (2 ^ 52 * 2 ^ Q) := ⟨2 ^ 53, same⟩
  have low := hx.place.low
  have smaller : E ≤ G := by
    have less : (2 : ℚ) ^ 52 * 2 ^ E < 2 ^ 52 * 2 ^ Q := by linarith
    rw [mul_lt_mul_iff_right₀ (by positivity), zpow_lt_zpow_iff_right₀ one_lt_two] at less
    omega
  rcases (hw.place.le hx.place le).lt_or_eq with less | rfl
  · have off := off_of_lt sum (mult.of_le smaller) hx hw less
    have grows : (2 : ℚ) ^ E ≤ 2 ^ G := zpow_le_zpow_right₀ one_le_two smaller
    rw [same] at off ⊢
    exact hz.eq_of_even ⟨2 ^ 52, by norm_num⟩ (by linarith)
  · -- both are half of the sum, and nothing is rounded
    have low' := hw.place.low
    have high := hx.place.high
    have large : Q ≤ F + 1 := by
      have more : (2 : ℚ) ^ 52 * 2 ^ Q < 2 ^ 54 * 2 ^ F := by linarith
      rw [pow_mul_zpow, pow_mul_zpow, zpow_lt_zpow_iff_right₀ one_lt_two] at more
      omega
    have next : Q = F + 1 := by omega
    rw [next, zpow_add_one₀ two_ne_zero] at sum
    have half : a = ((2 ^ 52 : Int) : ℚ) * 2 ^ F := by
      push_cast
      linarith
    have half' : b = ((2 ^ 52 : Int) : ℚ) * 2 ^ F := by
      push_cast
      linarith
    have first := hx.eq_of_multiple ⟨_, half⟩
    have second := hw.eq_of_multiple ⟨_, half'⟩
    rw [next, zpow_add_one₀ two_ne_zero] at short
    linarith

/-- The sum of two rounded numbers, rounded, is their true sum if that has an even last place. -/
theorem RoundedTo.sum_exact {k : Int} (place : LastPlace (k * 2 ^ Q) Q) (even : Even k)
    (sum : a + b = k * 2 ^ Q) (positive : 0 < b) (le : b ≤ a) (hx : RoundedTo a x)
    (hw : RoundedTo b w) (hz : RoundedTo (x + w) z) : z = k * 2 ^ Q := by
  obtain ⟨E, hx⟩ := hx
  obtain ⟨F, hw⟩ := hw
  obtain ⟨G, hz⟩ := hz
  have mult : Multiple Q ((k : ℚ) * 2 ^ Q) := ⟨k, rfl⟩
  have small : F ≤ E := hw.place.le hx.place le
  have large : E ≤ Q := hx.place.le place (by linarith)
  have size : (0 : ℚ) < 2 ^ Q := zpow_pos two_pos Q
  -- the errors of both make up half of the last place of the sum
  have off : |x + w - k * 2 ^ Q| ≤ 2 ^ Q / 2 := by
    rcases small.lt_or_eq with less | rfl
    · have grows : (2 : ℚ) ^ E ≤ 2 ^ Q := zpow_le_zpow_right₀ one_le_two large
      have near := off_of_lt sum (mult.of_le large) hx hw less
      linarith
    · obtain ⟨less, near⟩ := off_of_eq sum place hx hw
      have grows : (2 : ℚ) ^ (F + 1) ≤ 2 ^ Q := zpow_le_zpow_right₀ one_le_two less
      rw [zpow_add_one₀ two_ne_zero] at grows
      linarith
  have bounds := abs_le.1 off
  have low := place.low
  have not_above : G ≤ Q := by
    by_contra above
    have high := place.high
    rw [mul_lt_mul_iff_left₀ size] at high
    have most : k < 2 ^ 53 := by exact_mod_cast high
    have more : (k + 1 : ℚ) ≤ 2 ^ 53 := by exact_mod_cast most
    have more' := mul_le_mul_of_nonneg_right more size.le
    have grows : (2 : ℚ) ^ (Q + 1) ≤ 2 ^ G := zpow_le_zpow_right₀ one_le_two (by omega)
    rw [zpow_add_one₀ two_ne_zero] at grows
    have reach := hz.place.low
    linarith
  rcases not_above.lt_or_eq with below | rfl
  · have steps : (2 : ℚ) ^ (G + 1) ≤ 2 ^ Q := zpow_le_zpow_right₀ one_le_two below
    rw [zpow_add_one₀ two_ne_zero] at steps
    have short : x + w < 2 ^ 52 * 2 ^ Q := by
      have high := hz.place.high
      linarith
    have power : (k : ℚ) = 2 ^ 52 := by
      have less : (k : ℚ) * 2 ^ Q < (2 ^ 52 + 1) * 2 ^ Q := by linarith
      rw [mul_lt_mul_iff_left₀ size] at less
      rw [mul_le_mul_iff_left₀ size] at low
      have less' : k < 2 ^ 52 + 1 := by exact_mod_cast less
      have low' : 2 ^ 52 ≤ k := by exact_mod_cast low
      exact_mod_cast (by omega : k = 2 ^ 52)
    rw [power] at sum ⊢
    exact sum_exact_of_below sum positive le hx hw hz (by linarith) short
  · exact hz.eq_of_even even off

/-! ## Short numbers -/

/-- Whether a number has 52 bits at most, so that the last of 53 places is even. -/
def Short (q : ℚ) : Prop :=
  ∃ (n : Nat) (e : Int), 0 < n ∧ n < 2 ^ 52 ∧ q = n * 2 ^ e

theorem Short.place (h : Short q) :
    ∃ (k : Int) (Q : Int), Even k ∧ q = k * 2 ^ Q ∧ LastPlace q Q := by
  obtain ⟨n, e, positive, less, rfl⟩ := h
  have log : n.log2 < 52 := (Nat.log2_lt (by omega)).2 less
  have low : (2 : ℚ) ^ 52 ≤ (n <<< (52 - n.log2) : Nat) := by exact_mod_cast widened_low positive
  have high : ((n <<< (52 - n.log2) : Nat) : ℚ) < 2 ^ 53 := by
    exact_mod_cast widened_high log.le
  have size : (0 : ℚ) < 2 ^ (e - (52 - n.log2 : Nat)) := zpow_pos two_pos _
  have even : Even (n <<< (52 - n.log2)) := by
    rw [Nat.shiftLeft_eq, show 52 - n.log2 = 51 - n.log2 + 1 by omega, pow_succ, ← mul_assoc]
    exact (even_two).mul_left _
  rw [← shifted_value n (52 - n.log2) e]
  refine ⟨(n <<< (52 - n.log2) : Nat), _, by exact_mod_cast even, by push_cast; rfl, ?_, ?_⟩
  · exact mul_le_mul_of_nonneg_right low size.le
  · exact mul_lt_mul_of_pos_right high size

/-- A number that is short is not changed by rounding. -/
theorem RoundedTo.of_short (h : RoundedTo q x) (short : Short q) : x = q := by
  obtain ⟨k, Q, -, value, place⟩ := short.place
  obtain ⟨E, rounded⟩ := h
  have same : E = Q := le_antisymm (rounded.place.le place le_rfl) (place.le rounded.place le_rfl)
  exact rounded.eq_of_multiple ⟨k, same ▸ value⟩

/-- The sum of two rounded numbers, rounded, is their true sum if that is short. -/
theorem RoundedTo.sum_short (short : Short (a + b)) (ha : 0 < a) (hb : 0 < b)
    (hx : RoundedTo a x) (hw : RoundedTo b w) (hz : RoundedTo (x + w) z) : z = a + b := by
  obtain ⟨k, Q, even, value, place⟩ := short.place
  rw [value] at place ⊢
  rcases le_total b a with le | le
  · exact RoundedTo.sum_exact place even value hb le hx hw hz
  · rw [add_comm] at value hz
    exact RoundedTo.sum_exact place even value ha le hw hx hz

/-- A count is a double if 53 bits are left when the zeros at its end are taken off. -/
theorem toFloat_exact {n : UInt64} {j : Nat} (positive : 0 < n.toNat)
    (small : n.toNat < 2 ^ (53 + j)) (divides : 2 ^ j ∣ n.toNat) : Normal n.toFloat n.toNat := by
  obtain ⟨x, normal, E, rounded⟩ := toFloat_rounds positive
  have whole : E ≤ j := by
    have less : (n.toNat : ℚ) < 2 ^ (53 + j) := by exact_mod_cast small
    have low := rounded.place.low.trans_lt less
    rw [pow_mul_zpow, ← zpow_natCast, zpow_lt_zpow_iff_right₀ one_lt_two] at low
    omega
  have multiple : Multiple j n.toNat := by
    obtain ⟨c, value⟩ := divides
    refine ⟨c, ?_⟩
    rw [value, zpow_natCast]
    push_cast
    ring
  rwa [rounded.eq_of_multiple (multiple.of_le whole)] at normal

/-- A count that is not too large is a double. -/
theorem toFloat_normal {n : UInt64} (positive : 0 < n.toNat) (small : n.toNat < 2 ^ 53) :
    Normal n.toFloat n.toNat :=
  toFloat_exact positive small (pow_zero 2 ▸ one_dvd _)

end JobSwarm.Double
