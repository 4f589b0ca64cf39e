import JobSwarm.Decimal.Shortest
import JobSwarm.Proofs.Double.Reading

/-!
# The fewest digits

The digits of a double are looked for among those that stand for a number near it, and are found on
the first grid with such a number. If a decimal of fifteen digits is rounded to the double, then the
search ends at fifteen digits, and what it finds is rounded to the double as well.

Results:

* `contains_iff`: the numbers around a double that are tried are those that are rounded to it.
* `leadingPlace_spec`: where the digits of a number begin.
* `firstGrid_of_isSome`: the search ends where there is something to find.
* `shortest_spec`: what is found for a double of fifteen digits.
-/

namespace JobSwarm.Decimal

open Double (Nearest RoundedTo RoundedAt LastPlace scaled_inj)

variable {x : Exact} {basin : Basin} {m digits : Nat} {q k : Int} {y z : ℚ}

/-! ## Numbers -/

/-- The number that digits and a power of ten stand for. -/
def Scaled.value (s : Scaled) : ℚ :=
  s.digits * 10 ^ s.exponent

/-- The magnitude of a double. -/
def Exact.value (x : Exact) : ℚ :=
  x.m * 2 ^ x.q

/-- A power is a fraction of powers that are whole. -/
theorem zpow_eq_div {b : ℚ} (nonzero : b ≠ 0) (n : Int) : b ^ n = b ^ n.toNat / b ^ (-n).toNat := by
  rw [← zpow_natCast, ← zpow_natCast, ← zpow_sub₀ nonzero]
  congr 1
  omega

theorem Exact.fraction_pos (x : Exact) (k : Int) : 0 < (x.fraction k).2 :=
  Nat.mul_pos (Nat.pow_pos two_pos) (Nat.pow_pos (by decide))

theorem Exact.fraction_value (x : Exact) (k : Int) :
    ((x.fraction k).1 : ℚ) / (x.fraction k).2 = x.value / 10 ^ k := by
  rw [value, zpow_eq_div two_ne_zero x.q, zpow_eq_div (by norm_num) k]
  simp only [fraction, Nat.pow_eq]
  push_cast
  field_simp

theorem Exact.le_iff :
    (x.fraction k).1 ≤ digits * (x.fraction k).2 ↔ x.value ≤ digits * 10 ^ k := by
  have positive : (0 : ℚ) < (x.fraction k).2 := by exact_mod_cast x.fraction_pos k
  rw [← div_le_iff₀ (zpow_pos (by norm_num) k), ← x.fraction_value k, div_le_iff₀ positive]
  exact_mod_cast Iff.rfl

theorem Exact.ge_iff :
    digits * (x.fraction k).2 ≤ (x.fraction k).1 ↔ digits * 10 ^ k ≤ x.value := by
  have positive : (0 : ℚ) < (x.fraction k).2 := by exact_mod_cast x.fraction_pos k
  rw [← le_div_iff₀ (zpow_pos (by norm_num) k), ← x.fraction_value k, le_div_iff₀ positive]
  exact_mod_cast Iff.rfl

/-! ## Around a double -/

/-- Whether a number is one of those that round to the double. -/
def Basin.Contains (basin : Basin) (y : ℚ) : Prop :=
  if basin.closed then basin.low.value ≤ y ∧ y ≤ basin.high.value
  else basin.low.value < y ∧ y < basin.high.value

theorem Basin.holds_iff : basin.holds digits k = true ↔ basin.Contains (digits * 10 ^ k) := by
  unfold Basin.holds Basin.Contains
  dsimp only
  split
  · rw [Bool.and_eq_true, decide_eq_true_iff, decide_eq_true_iff, Exact.le_iff, Exact.ge_iff]
  · rw [Bool.and_eq_true, decide_eq_true_iff, decide_eq_true_iff, ← not_le, ← not_le, Exact.le_iff,
      Exact.ge_iff, not_le, not_le]

theorem Basin.Contains.between {w : ℚ} (hy : basin.Contains y) (hz : basin.Contains z)
    (low : y ≤ w) (high : w ≤ z) : basin.Contains w := by
  unfold Basin.Contains at *
  split
  · next closed =>
    rw [if_pos closed] at hy hz
    exact ⟨hy.1.trans low, high.trans hz.2⟩
  · next open_ends =>
    rw [if_neg open_ends] at hy hz
    exact ⟨hy.1.trans_le low, high.trans_lt hz.2⟩

section Basin

variable {negative : Bool}

theorem quarter (q : Int) : (2 : ℚ) ^ q = 4 * 2 ^ (q - 2) := by
  rw [zpow_sub₀ two_ne_zero]
  norm_num
  ring

theorem half (q : Int) : (2 : ℚ) ^ q = 2 * 2 ^ (q - 1) := by
  rw [zpow_sub_one₀ two_ne_zero]
  ring

/-- Half of the last place on either side of a double, and a quarter below a power of two. -/
theorem contains_of (low : 2 ^ 52 ≤ m) (normal : -1074 < q) :
    (Basin.of ⟨negative, m, q⟩).Contains y ↔
      let under : ℚ := if m = 2 ^ 52 then 1 / 4 else 1 / 2
      if Even m then m - under ≤ y / 2 ^ q ∧ y / 2 ^ q ≤ m + 1 / 2
      else m - under < y / 2 ^ q ∧ y / 2 ^ q < m + 1 / 2 := by
  have lower : (((if m = fractionCount ∧ -1074 < q then 4 * m - 1 else 4 * m - 2 : Nat)) : ℚ) =
      (m - if m = 2 ^ 52 then 1 / 4 else 1 / 2) * 4 := by
    simp only [normal, and_true]
    show (((if m = 2 ^ 52 then 4 * m - 1 else 4 * m - 2 : Nat)) : ℚ) = _
    split <;> rw [Nat.cast_sub (by omega)] <;> push_cast <;> ring
  have upper : ((4 * m + 2 : Nat) : ℚ) = (m + 1 / 2) * 4 := by
    push_cast
    ring
  have size : (0 : ℚ) < 2 ^ q := zpow_pos two_pos q
  simp only [Basin.Contains, Basin.of, Exact.value, lower, upper, Nat.even_iff, decide_eq_true_eq,
    mul_assoc, ← quarter, le_div_iff₀ size, lt_div_iff₀ size, div_le_iff₀ size, div_lt_iff₀ size]

/-- What is tried is at most half of the last place away. -/
theorem near_of_contains (low : 2 ^ 52 ≤ m) (normal : -1074 < q)
    (contains : (Basin.of ⟨negative, m, q⟩).Contains y) :
    |(m : ℚ) - y / 2 ^ q| ≤ 1 / 2 ∧ (|(m : ℚ) - y / 2 ^ q| = 1 / 2 → Even m) := by
  rw [contains_of low normal] at contains
  dsimp only at contains
  have under : (if m = 2 ^ 52 then (1 / 4 : ℚ) else 1 / 2) ≤ 1 / 2 := by split <;> norm_num
  split at contains
  · next even =>
    exact ⟨abs_le.2 ⟨by linarith, by linarith⟩, fun _ => even⟩
  · have strict : |(m : ℚ) - y / 2 ^ q| < 1 / 2 := abs_lt.2 ⟨by linarith, by linarith⟩
    exact ⟨strict.le, fun tie => absurd tie strict.ne⟩

/-- What is tried around a double is rounded to it. -/
theorem roundedTo_of_contains (low : 2 ^ 52 ≤ m) (high : m < 2 ^ 53) (normal : -1074 < q)
    (contains : (Basin.of ⟨negative, m, q⟩).Contains y) : RoundedTo y (m * 2 ^ q) := by
  obtain ⟨near, even⟩ := near_of_contains low normal contains
  have bounds := abs_le.1 near
  have size (n : Int) : (0 : ℚ) < 2 ^ n := zpow_pos two_pos n
  have mantissa : (m : ℚ) ≤ 2 ^ 53 - 1 := by
    have less : ((m + 1 : Nat) : ℚ) ≤ (2 ^ 53 : Nat) := by exact_mod_cast high
    push_cast at less
    linarith
  rcases le_or_gt ((2 : ℚ) ^ 52) (y / 2 ^ q) with binade | below
  · -- the last place of the number is that of the double
    have top : y / 2 ^ q < 2 ^ 53 := by linarith
    exact ⟨q, ⟨(le_div_iff₀ (size q)).1 binade, (div_lt_iff₀ (size q)).1 top⟩, m, ⟨near, even⟩, rfl⟩
  · -- the number is below a power of two, where the last place is half as large
    have power : m = 2 ^ 52 := by
      have less : (m : ℚ) < ((2 ^ 52 + 1 : Nat) : ℚ) := by
        push_cast
        linarith
      have less' : m < 2 ^ 52 + 1 := by exact_mod_cast less
      omega
    subst power
    rw [contains_of low normal] at contains
    dsimp only at contains
    rw [if_pos (by decide : Even (2 ^ 52)), if_pos rfl] at contains
    push_cast at contains
    have twice : y / 2 ^ (q - 1) = 2 * (y / 2 ^ q) := by
      rw [half q]
      field_simp
    refine ⟨q - 1, ⟨(le_div_iff₀ (size _)).1 ?_, (div_lt_iff₀ (size _)).1 ?_⟩, 2 ^ 53,
      ⟨?_, fun _ => by decide⟩, ?_⟩
    · linarith
    · linarith
    · push_cast
      rw [twice, abs_le]
      constructor <;> linarith
    · rw [half q]
      push_cast
      ring

/-- What is rounded to a double is tried around it. -/
theorem contains_of_roundedTo (low : 2 ^ 52 ≤ m) (high : m < 2 ^ 53) (normal : -1074 < q)
    (rounded : RoundedTo y (m * 2 ^ q)) : (Basin.of ⟨negative, m, q⟩).Contains y := by
  obtain ⟨E, place, r, nearest, value⟩ := rounded
  have size : (0 : ℚ) < 2 ^ E := zpow_pos two_pos E
  have near := abs_le.1 nearest.near
  have least := (le_div_iff₀ size).2 place.low
  have most := (div_lt_iff₀ size).2 place.high
  have least' : 2 ^ 52 ≤ r := by
    have more : ((2 ^ 52 : Nat) : ℚ) < (r + 1 : Nat) := by
      push_cast
      linarith
    exact Nat.lt_succ_iff.1 (by exact_mod_cast more)
  have most' : r ≤ 2 ^ 53 := by
    have less : (r : ℚ) < (2 ^ 53 + 1 : Nat) := by
      push_cast
      linarith
    exact Nat.lt_succ_iff.1 (by exact_mod_cast less)
  rw [contains_of low normal]
  dsimp only
  rcases most'.lt_or_eq with fits | carry
  · obtain ⟨rfl, rfl⟩ := scaled_inj low high least' fits value
    have floor : (m : ℚ) - (if m = 2 ^ 52 then 1 / 4 else 1 / 2) ≤ y / 2 ^ q := by
      split
      · next power => rw [power]; push_cast; linarith
      · linarith
    split
    · exact ⟨floor, by linarith⟩
    · next odd =>
      -- a tie would be rounded to an even mantissa
      have strict := abs_lt.1 (nearest.near.lt_of_ne fun tie => odd (nearest.even tie))
      have power : m ≠ 2 ^ 52 := by
        rintro rfl
        exact odd (by decide)
      rw [if_neg power]
      exact ⟨by linarith, by linarith⟩
  · have carried : (m : ℚ) * 2 ^ q = (2 ^ 52 : Nat) * 2 ^ (E + 1) := by
      rw [value, carry, zpow_add_one₀ two_ne_zero]
      push_cast
      ring
    obtain ⟨rfl, rfl⟩ := scaled_inj low high (by decide) (by decide) carried
    have twice : y / 2 ^ E = 2 * (y / 2 ^ (E + 1)) := by
      rw [zpow_add_one₀ two_ne_zero]
      field_simp
    rw [carry, twice] at near
    push_cast at near
    rw [if_pos (by decide : Even (2 ^ 52)), if_pos rfl]
    push_cast
    exact ⟨by linarith, by linarith⟩

/-- The numbers around a double that are tried are those that are rounded to it. -/
theorem contains_iff (low : 2 ^ 52 ≤ m) (high : m < 2 ^ 53) (normal : -1074 < q) :
    (Basin.of ⟨negative, m, q⟩).Contains y ↔ RoundedTo y (m * 2 ^ q) :=
  ⟨roundedTo_of_contains low high normal, contains_of_roundedTo low high normal⟩

end Basin

/-! ## The first digit -/

theorem digitCount_spec {n : Nat} (positive : 0 < n) :
    (10 : ℚ) ^ ((digitCount n : Int) - 1) ≤ n ∧ (n : ℚ) < 10 ^ (digitCount n : Int) := by
  have count : digitCount n = (Nat.toDigits 10 n).length := if_neg positive.ne'
  have some_digit : 0 < digitCount n := count ▸ List.length_pos_iff.2 Nat.toDigits_ne_nil
  have high : n < 10 ^ digitCount n :=
    (Nat.length_toDigits_le_iff (by decide) some_digit).1 count.ge
  have low : 10 ^ (digitCount n - 1) ≤ n := by
    by_contra less
    rcases Nat.eq_zero_or_pos (digitCount n - 1) with none | more
    · rw [none] at less
      omega
    · have shorter := (Nat.length_toDigits_le_iff (by decide) more).2 (not_le.1 less)
      omega
  rw [show (digitCount n : Int) - 1 = (digitCount n - 1 : Nat) by omega, zpow_natCast, zpow_natCast]
  exact ⟨by exact_mod_cast low, by exact_mod_cast high⟩

/-- Where the digits of a number begin. -/
theorem leadingPlace_spec {num den : Nat} (hn : 0 < num) (hd : 0 < den) :
    (10 : ℚ) ^ (leadingPlace num den - 1) ≤ num / den ∧
      (num : ℚ) / den < 10 ^ leadingPlace num den := by
  obtain ⟨low, high⟩ := digitCount_spec hn
  obtain ⟨low', high'⟩ := digitCount_spec hd
  have size (n : Int) : (0 : ℚ) < 10 ^ n := zpow_pos (by norm_num) n
  have positive : (0 : ℚ) < den := by exact_mod_cast hd
  have whole (p : Int) :
      den * Nat.pow 10 p.toNat ≤ num * Nat.pow 10 (-p).toNat ↔ (10 : ℚ) ^ p ≤ num / den := by
    rw [zpow_eq_div (by norm_num) p, div_le_div_iff₀ (by positivity) positive, mul_comm den]
    simp only [Nat.pow_eq]
    exact_mod_cast Iff.rfl
  have least : (10 : ℚ) ^ ((digitCount num : Int) - digitCount den - 1) ≤ num / den := by
    rw [le_div_iff₀ positive]
    calc (10 : ℚ) ^ ((digitCount num : Int) - digitCount den - 1) * den
        ≤ 10 ^ ((digitCount num : Int) - digitCount den - 1) * 10 ^ (digitCount den : Int) :=
          mul_le_mul_of_nonneg_left high'.le (size _).le
      _ = 10 ^ ((digitCount num : Int) - 1) := by
          rw [← zpow_add₀ (by norm_num)]
          congr 1
          omega
      _ ≤ num := low
  have most : (num : ℚ) / den < 10 ^ ((digitCount num : Int) - digitCount den + 1) := by
    rw [div_lt_iff₀ positive]
    calc (num : ℚ) < 10 ^ (digitCount num : Int) := high
      _ = 10 ^ ((digitCount num : Int) - digitCount den + 1) *
          10 ^ ((digitCount den : Int) - 1) := by
          rw [← zpow_add₀ (by norm_num)]
          congr 1
          omega
      _ ≤ 10 ^ ((digitCount num : Int) - digitCount den + 1) * den :=
          mul_le_mul_of_nonneg_left low' (size _).le
  unfold leadingPlace
  dsimp only
  split
  · next reaches =>
    rw [add_sub_cancel_right]
    exact ⟨(whole _).1 reaches, most⟩
  · next less =>
    rw [whole, not_le] at less
    exact ⟨least, less⟩

/-! ## The search -/

/-- What is found is one of two points around the double, and is rounded to it. -/
theorem onGrid_spec (found : onGrid x basin k = some digits) :
    basin.Contains (digits * 10 ^ k) ∧ ((digits : ℚ) - 1) * 10 ^ k ≤ x.value := by
  have floor : ((x.fraction k).1 / (x.fraction k).2 : Nat) * (10 : ℚ) ^ k ≤ x.value :=
    Exact.ge_iff.1 (Nat.div_mul_le_self ..)
  have size : (0 : ℚ) < 10 ^ k := zpow_pos (by norm_num) k
  unfold onGrid at found
  dsimp only at found
  generalize (x.fraction k).1 / (x.fraction k).2 = below at found floor
  have bounds : digits = below ∧ basin.holds below k = true ∨
      digits = below + 1 ∧ basin.holds (below + 1) k = true := by
    cases down : basin.holds below k <;> cases up : basin.holds (below + 1) k <;>
      rw [down, up] at found <;> simp only [] at found
    · cases found
    · exact .inr ⟨(Option.some.inj found).symm, rfl⟩
    · exact .inl ⟨(Option.some.inj found).symm, rfl⟩
    · split at found
      · exact .inl ⟨(Option.some.inj found).symm, rfl⟩
      · exact .inr ⟨(Option.some.inj found).symm, rfl⟩
  rcases bounds with ⟨rfl, holds⟩ | ⟨rfl, holds⟩
  · refine ⟨Basin.holds_iff.1 holds, ?_⟩
    linarith
  · refine ⟨Basin.holds_iff.1 holds, ?_⟩
    push_cast
    linarith

/-- On a grid with a number that is rounded to the double, one of the two points around the double
is such a number. -/
theorem onGrid_isSome (contains : basin.Contains (digits * 10 ^ k))
    (itself : basin.Contains x.value) : (onGrid x basin k).isSome = true := by
  have size : (0 : ℚ) < 10 ^ k := zpow_pos (by norm_num) k
  have floor : ((x.fraction k).1 / (x.fraction k).2 : Nat) * (10 : ℚ) ^ k ≤ x.value :=
    Exact.ge_iff.1 (Nat.div_mul_le_self ..)
  have ceiling : x.value ≤ ((x.fraction k).1 / (x.fraction k).2 + 1 : Nat) * (10 : ℚ) ^ k := by
    refine Exact.le_iff.1 ?_
    rw [Nat.add_mul, Nat.one_mul]
    exact (Nat.lt_div_mul_add (x.fraction_pos k)).le
  unfold onGrid
  dsimp only
  generalize (x.fraction k).1 / (x.fraction k).2 = below at floor ceiling ⊢
  have holds : basin.holds below k = true ∨ basin.holds (below + 1) k = true := by
    rcases Nat.lt_or_ge below digits with more | less
    · have above : ((below + 1 : Nat) : ℚ) ≤ digits := by exact_mod_cast more
      have le := mul_le_mul_of_nonneg_right above size.le
      exact .inr (Basin.holds_iff.2 (itself.between contains ceiling le))
    · have under : (digits : ℚ) ≤ below := by exact_mod_cast less
      have le := mul_le_mul_of_nonneg_right under size.le
      exact .inl (Basin.holds_iff.2 (contains.between itself le floor))
  cases down : basin.holds below k <;> cases up : basin.holds (below + 1) k
  · rcases holds with holds | holds
    · exact absurd (down.symm.trans holds) Bool.false_ne_true
    · exact absurd (up.symm.trans holds) Bool.false_ne_true
  · rfl
  · rfl
  · dsimp only
    split <;> rfl

/-- The grid of some places below a power of ten. -/
theorem zpow_eq_mul_places (place : Int) (c : Nat) :
    (10 : ℚ) ^ place = 10 ^ c * 10 ^ (place - c) := by
  rw [← zpow_natCast, ← zpow_add₀ (by norm_num)]
  congr 1
  omega

/-- What is found below a power of ten has no more digits than its grid has places. -/
theorem onGrid_le {place : Int} {c : Nat} (found : onGrid x basin (place - c) = some digits)
    (most : x.value < 10 ^ place) : digits ≤ 10 ^ c := by
  obtain ⟨-, below⟩ := onGrid_spec found
  have less := below.trans_lt most
  rw [zpow_eq_mul_places place c, mul_lt_mul_iff_left₀ (zpow_pos (by norm_num) _)] at less
  have less' : (digits : ℚ) < (10 ^ c + 1 : Nat) := by
    push_cast
    linarith
  exact Nat.lt_succ_iff.1 (by exact_mod_cast less')

/-- The search ends where there is something to find. -/
theorem firstGrid_of_isSome {place : Int} {count stop left : Nat}
    (hit : (onGrid x basin (place - stop)).isSome = true) (start : count ≤ stop)
    (reach : stop < count + left) :
    ∃ (c digits : Nat), c ≤ stop ∧ onGrid x basin (place - c) = some digits ∧
      firstGrid x basin place count left = ⟨digits, place - c⟩ := by
  induction left generalizing count with
  | zero => omega
  | succ left ih =>
    rw [firstGrid]
    cases found : onGrid x basin (place - count) with
    | some digits => exact ⟨count, digits, start, found, rfl⟩
    | none =>
      have later : count ≠ stop := by
        rintro rfl
        rw [found] at hit
        cases hit
      exact ih (by omega) (by omega)

/-- Zeros at the end are moved, so that digits become fewer and the number stays the same. -/
theorem Scaled.trim_spec (s : Scaled) :
    s.trim.value = s.value ∧ s.trim.digits ≤ s.digits ∧ s.exponent ≤ s.trim.exponent := by
  fun_induction Scaled.trim s with
  | case1 s ends ih =>
    obtain ⟨value, fewer, greater⟩ := ih
    dsimp only at fewer greater
    have tens : s.digits = s.digits / 10 * 10 := by omega
    refine ⟨?_, by omega, by omega⟩
    rw [value, Scaled.value, Scaled.value, zpow_add_one₀ (by norm_num)]
    have tens' : (s.digits : ℚ) = (s.digits / 10 : Nat) * 10 := by exact_mod_cast tens
    rw [tens']
    ring
  | case2 s => exact ⟨rfl, le_rfl, le_rfl⟩

/-! ## Fifteen digits -/

/-- A decimal of fifteen digits that is rounded to a double has the places of its first fifteen
digits. -/
theorem place_le_of_rounded {d : Nat} {place : Int} (few : d < 10 ^ 15)
    (rounded : RoundedTo (d * 10 ^ k) z) (low : (10 : ℚ) ^ (place - 1) ≤ z) : place - 15 ≤ k := by
  by_contra short
  have size : (0 : ℚ) < 10 ^ (place - 1) := zpow_pos (by norm_num) _
  have digits : (d : ℚ) ≤ 10 ^ 15 - 1 := by
    have less : ((d + 1 : Nat) : ℚ) ≤ (10 ^ 15 : Nat) := by exact_mod_cast few
    push_cast at less
    linarith
  have power : (10 : ℚ) ^ k ≤ 10 ^ (place - 1) / 10 ^ 15 := by
    rw [← zpow_natCast, ← zpow_sub₀ (by norm_num)]
    exact zpow_le_zpow_right₀ (by norm_num) (by omega)
  have small : (d : ℚ) * 10 ^ k ≤ (10 ^ 15 - 1) * (10 ^ (place - 1) / 10 ^ 15) :=
    mul_le_mul digits power (zpow_pos (by norm_num) k).le (by norm_num)
  obtain ⟨-, near⟩ := rounded.near
  rw [Double.unit] at near
  linarith

/-- A double is rounded to itself. -/
theorem roundedTo_self (low : 2 ^ 52 ≤ m) (high : m < 2 ^ 53) :
    RoundedTo ((m : ℚ) * 2 ^ q) (m * 2 ^ q) := by
  have size : (0 : ℚ) < 2 ^ q := zpow_pos two_pos q
  have low' : (2 : ℚ) ^ 52 ≤ m := by exact_mod_cast low
  have high' : (m : ℚ) < 2 ^ 53 := by exact_mod_cast high
  have exact_quotient : (m : ℚ) - m * 2 ^ q / 2 ^ q = 0 := by
    rw [mul_div_cancel_right₀ _ size.ne', sub_self]
  refine ⟨q, ⟨mul_le_mul_of_nonneg_right low' size.le, mul_lt_mul_of_pos_right high' size⟩, m,
    ⟨?_, ?_⟩, rfl⟩
  · rw [exact_quotient]
    norm_num
  · rw [exact_quotient]
    norm_num

/-- A number on a grid is on the finer ones as well. -/
theorem refine_grid (d : Nat) {grid : Int} (finer : grid ≤ k) :
    ((d * 10 ^ (k - grid).toNat : Nat) : ℚ) * 10 ^ grid = d * 10 ^ k := by
  push_cast
  rw [mul_assoc, ← zpow_natCast, ← zpow_add₀ (by norm_num)]
  congr 2
  omega

/-- What is found for a double to which a decimal of fifteen digits is rounded. -/
theorem shortest_spec (negative : Bool) {d : Nat} (low : 2 ^ 52 ≤ m) (high : m < 2 ^ 53)
    (normal : -1074 < q) (few : d < 10 ^ 15) (rounded : RoundedTo (d * 10 ^ k) (m * 2 ^ q)) :
    ∃ place : Int, (10 : ℚ) ^ (place - 1) ≤ m * 2 ^ q ∧ (m : ℚ) * 2 ^ q < 10 ^ place ∧
      let s := shortest ⟨negative, m, q⟩
      RoundedTo s.value (m * 2 ^ q) ∧ s.digits ≤ 10 ^ 15 ∧ place - 15 ≤ s.exponent ∧
        s.value ≤ 10 ^ place := by
  let x : Exact := ⟨negative, m, q⟩
  have positive : 0 < m := by omega
  have size (n : Int) : (0 : ℚ) < 10 ^ n := zpow_pos (by norm_num) n
  have value : ((x.fraction 0).1 : ℚ) / (x.fraction 0).2 = m * 2 ^ q := by
    rw [x.fraction_value, zpow_zero, div_one]
    rfl
  have some_part : 0 < (x.fraction 0).1 :=
    Nat.mul_pos (Nat.mul_pos positive (Nat.pow_pos two_pos)) (Nat.pow_pos (by decide))
  obtain ⟨least, most⟩ := leadingPlace_spec some_part (x.fraction_pos 0)
  have start : shortest x =
      (firstGrid x (.of x) (leadingPlace (x.fraction 0).1 (x.fraction 0).2) 1 17).trim :=
    if_neg positive.ne'
  rw [value] at least most
  generalize leadingPlace (x.fraction 0).1 (x.fraction 0).2 = place at least most start
  -- the decimal is a number on the grid of fifteen digits
  have reaches : place - (15 : Nat) ≤ k := place_le_of_rounded few rounded least
  have grid := refine_grid d reaches
  have contains : (Basin.of x).Contains (d * 10 ^ k) := (contains_iff low high normal).2 rounded
  have itself : (Basin.of x).Contains x.value :=
    (contains_iff low high normal).2 (roundedTo_self low high)
  rw [← grid] at contains
  obtain ⟨c, digits, within, found, search⟩ := firstGrid_of_isSome (onGrid_isSome contains itself)
    (by decide : 1 ≤ 15) (by decide : 15 < 1 + 17)
  obtain ⟨contains', -⟩ := onGrid_spec found
  obtain ⟨trimmed, fewer, greater⟩ := Scaled.trim_spec ⟨digits, place - c⟩
  dsimp only at fewer greater
  have count : digits ≤ 10 ^ c := onGrid_le found most
  have count' : (digits : ℚ) ≤ 10 ^ c := by exact_mod_cast count
  refine ⟨place, least, most, ?_⟩
  show RoundedTo (shortest x).value _ ∧ (shortest x).digits ≤ _ ∧ _ ≤ (shortest x).exponent ∧
    (shortest x).value ≤ _
  rw [start, search, trimmed]
  refine ⟨(contains_iff low high normal).1 contains', ?_, ?_, ?_⟩
  · exact fewer.trans (count.trans (Nat.pow_le_pow_right (by decide) within))
  · omega
  · rw [zpow_eq_mul_places place c]
    exact mul_le_mul_of_nonneg_right count' (size _).le

end JobSwarm.Decimal
