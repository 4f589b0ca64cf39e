import JobSwarm.Decimal.Layout
import JobSwarm.Proofs.Decimal.Shortest
import JobSwarm.Proofs.Json.Text

/-!
# Fractions read back

The reader rounds the digits of a numeral, and divides them by a power of ten that is rounded as
well. Both are exact if the digits are few and the power is small. Then the quotient is rounded
once, to the double whose numeral it is.

Results:

* `readNumber_parts`: what is read is the digits, on both sides of the point, and a power of ten.
* `readNumber_numeral`: the digits of a numeral are those that were laid out in it.
* `readsBack_of_brief`: a double to which a decimal of fifteen digits is rounded reads back.
-/

namespace JobSwarm.Json

open Decimal (Exact Reading Scaled shortest)
open Double (Moderate Normal RoundedTo)
open Text

variable {n : Nat} {power : Int} {front places rest tail : List Char}

/-! ## Digits are gathered -/

/-- The number that digits after others stand for. -/
def gatherFrom (n : Nat) (ds : List Nat) : Nat :=
  ds.foldl (fun n d => n * 10 + d) n

theorem le_gatherFrom (n : Nat) (ds : List Nat) : n ≤ gatherFrom n ds := by
  induction ds generalizing n with
  | nil => exact le_rfl
  | cons d ds ih => exact le_trans (by omega) (ih (n * 10 + d))

theorem addWhole_eq {ds : List Nat} (fits : gatherFrom n ds ≤ greatestWord) :
    Gathered.addWhole ⟨n, power⟩ ds = ⟨gatherFrom n ds, power⟩ := by
  induction ds generalizing n with
  | nil => rfl
  | cons d ds ih =>
    have next : n * 10 + d ≤ greatestWord := (le_gatherFrom (n * 10 + d) ds).trans fits
    rw [Gathered.addWhole, if_pos next]
    exact ih fits

theorem addPlaces_eq {ds : List Nat} (fits : gatherFrom n ds ≤ greatestWord) :
    Gathered.addPlaces ⟨n, power⟩ ds = ⟨gatherFrom n ds, power - ds.length⟩ := by
  induction ds generalizing n power with
  | nil => rw [List.length_nil, Nat.cast_zero, sub_zero]; rfl
  | cons d ds ih =>
    have next : n * 10 + d ≤ greatestWord := (le_gatherFrom (n * 10 + d) ds).trans fits
    rw [Gathered.addPlaces, if_pos next, ih fits, List.length_cons]
    congr 1
    push_cast
    ring

/-- The values of digits. -/
def valuesOf (ds : List Char) : List Nat :=
  ds.map fun c => c.toNat - '0'.toNat

/-- Digits on both sides of a point are gathered as if there were none. -/
theorem gather_eq (fits : ofDigits (front ++ places) ≤ greatestWord) :
    (Gathered.addWhole ⟨0, 0⟩ (valuesOf front)).addPlaces (valuesOf places) =
      ⟨ofDigits (front ++ places), -places.length⟩ := by
  have both : gatherFrom (gatherFrom 0 (valuesOf front)) (valuesOf places) =
      ofDigits (front ++ places) := by
    rw [gatherFrom, gatherFrom, valuesOf, valuesOf, foldl_digits, foldl_digits, ofDigits,
      Nat.ofDigitChars_append]
  rw [← both] at fits
  rw [addWhole_eq ((le_gatherFrom _ _).trans fits), addPlaces_eq fits, both, valuesOf,
    List.length_map, zero_sub]

/-! ## Parts of a number -/

/-- A run of digits ends where no digit follows. -/
theorem digitRun_of_noDigit (digits : Digits front) (ends : NoDigit rest) :
    digitRun (front ++ rest) = (valuesOf front, rest) := by
  induction front with
  | nil =>
    cases rest with
    | nil => rfl
    | cons c rest => rw [List.nil_append, digitRun, digit?_of_not_isDigit (ends c rfl)]; rfl
  | cons c front ih =>
    rw [List.cons_append, digitRun, digit?_of_isDigit digits.head, ih digits.tail]
    rfl

theorem noDigit_cons {c : Char} (other : c.isDigit = false) (cs : List Char) :
    NoDigit (c :: cs) := by
  rintro d ⟨⟩
  exact other

theorem readPlaces_point (digits : Digits places) (some_digit : places ≠ []) (ends : NoDigit tail) :
    readPlaces ('.' :: (places ++ tail)) = some (valuesOf places, true, tail) := by
  rw [readPlaces, digitRun_of_noDigit digits ends]
  dsimp only
  rw [valuesOf, List.isEmpty_map, List.isEmpty_eq_false_iff.2 some_digit]
  rfl

/-- Before an exponent the point is left out if there are no digits behind it. -/
theorem readPlaces_exponent (digits : Digits places) (tail : List Char) :
    readPlaces ((if places = [] then [] else '.' :: places) ++ 'e' :: tail) =
      some (valuesOf places, decide (places ≠ []), 'e' :: tail) := by
  by_cases none : places = []
  · subst none
    rfl
  · rw [if_neg none, List.cons_append, readPlaces_point digits none (noDigit_cons rfl _),
      decide_eq_true none]

/-- A negative exponent. -/
theorem readExponent_negSucc (k : Nat) :
    readExponent ('e' :: (toString (Int.negSucc k)).toList) = some (Int.negSucc k, true, []) := by
  have text : (toString (Int.negSucc k)).toList = '-' :: Nat.toDigits 10 (k + 1) := by
    show ("-" ++ (k + 1).repr).toList = _
    simp
  have sign : takeSign ('-' :: Nat.toDigits 10 (k + 1)) = (true, Nat.toDigits 10 (k + 1)) := rfl
  have some_digit : (digitsOf (k + 1)).isEmpty = false := by
    rw [digitsOf, List.isEmpty_map]
    exact List.isEmpty_eq_false_iff.2 Nat.toDigits_ne_nil
  rw [text, readExponent, if_pos (.inl rfl), sign]
  simp only [digitRun_toDigits, some_digit, foldl_digitsOf]
  rfl

theorem takeMinus_signed {text : String} (negative : Bool) (parts : text.toList = front ++ rest)
    (digits : Digits front) (some_digit : front ≠ []) :
    takeMinus (Decimal.signed negative text).toList = (negative, front ++ rest) := by
  cases negative with
  | true =>
    rw [Decimal.signed, if_pos rfl, String.toList_append, parts]
    rfl
  | false =>
    rw [Decimal.signed, if_neg Bool.false_ne_true, parts]
    cases front with
    | nil => exact absurd rfl some_digit
    | cons c front =>
      have other : c ≠ '-' := by
        rintro rfl
        cases digits.head
      simp [takeMinus, other]

/-- Whether digits may stand in front of the point: there are some, and no zero before others. -/
def Leads (front : List Char) : Prop :=
  ((valuesOf front).isEmpty ||
    ((valuesOf front).head? == some 0 && decide (1 < (valuesOf front).length))) = false

theorem Leads.ne_nil (leads : Leads front) : front ≠ [] := by
  rintro rfl
  cases leads

theorem leads_of_head (some_digit : front ≠ []) (head : (valuesOf front).head? ≠ some 0) :
    Leads front := by
  rw [Leads, valuesOf, List.isEmpty_map, List.isEmpty_eq_false_iff.2 some_digit, Bool.false_or,
    ← valuesOf, beq_eq_false_iff_ne.2 head, Bool.false_and]

/-- What is read is the digits, on both sides of the point, and a power of ten. -/
theorem readNumber_parts {text : String} {pointed scaled : Bool} {exponent : Int}
    (negative : Bool) (parts : text.toList = front ++ rest) (digits : Digits front)
    (ends : NoDigit rest) (leads : Leads front)
    (point : readPlaces rest = some (valuesOf places, pointed, tail))
    (scale : readExponent tail = some (exponent, scaled, []))
    (fraction : (pointed || scaled) = true) (value : ofDigits (front ++ places) = n)
    (total : exponent - places.length = power) (fits : n ≤ greatestWord) :
    readNumber (Decimal.signed negative text).toList =
      (Gathered.toFloat? ⟨n, power⟩).map fun x => (.fraction (if negative then -x else x), []) := by
  subst value total
  have sign := takeMinus_signed negative parts digits leads.ne_nil
  rw [Leads] at leads
  have read (front : List Nat) (g : Gathered) : ofGathered negative true front g =
      g.toFloat?.map fun x => .fraction (if negative then -x else x) := by
    rw [ofGathered]
    simp
  simp only [readNumber, sign, digitRun_of_noDigit digits ends, leads, point, scale,
    Option.bind_eq_bind, Option.bind_some, gather_eq fits, fraction, read]
  rw [neg_add_eq_sub]
  cases Gathered.toFloat? ⟨ofDigits (front ++ places), exponent - places.length⟩ <;> rfl

/-! ## Numerals -/

section Numeral

variable {s : Scaled}

/-- The digits that are read in a numeral, and their power of ten. -/
def gathered (s : Scaled) : Gathered :=
  if 0 ≤ s.exponent then ⟨s.digits * 10 ^ (s.exponent.toNat + 1), -1⟩ else ⟨s.digits, s.exponent⟩

theorem toList_toString (n : Nat) : (toString n).toList = Nat.toDigits 10 n :=
  Nat.toList_repr

theorem length_toString (n : Nat) : (toString n).length = (Nat.toDigits 10 n).length := by
  rw [← String.length_toList, toList_toString]

theorem toList_zeros (count : Nat) : (Decimal.zeros count).toList = List.replicate count '0' :=
  String.toList_ofList

theorem digits_replicate (count : Nat) : Digits (List.replicate count '0') := by
  intro c member
  rw [List.eq_of_mem_replicate member]
  rfl

/-- Zeros in front do not count. -/
theorem ofDigits_replicate (count n : Nat) :
    ofDigits (List.replicate count '0' ++ Nat.toDigits 10 n) = n := by
  rw [ofDigits, Nat.ofDigitChars_append, Nat.ofDigitChars_replicate_zero, Nat.mul_zero]
  exact ofDigits_toDigits n

/-- The first digits of a number do not begin with a zero. -/
theorem leads_take {count : Nat} (positive : 0 < n) (some_digit : 0 < count) (more : List Char) :
    Leads ((Nat.toDigits 10 n).take count ++ more) := by
  have first := head?_digitsOf positive
  rw [digitsOf] at first
  cases digits : Nat.toDigits 10 n with
  | nil => exact absurd digits Nat.toDigits_ne_nil
  | cons c cs =>
    rw [digits] at first
    obtain ⟨count, rfl⟩ := Nat.exists_eq_succ_of_ne_zero some_digit.ne'
    rw [List.take_succ_cons, List.cons_append]
    exact leads_of_head (List.cons_ne_nil _ _) first

/-- The numeral of a whole number, which ends with a zero behind the point. -/
theorem readNumber_whole_numeral (negative : Bool) (positive : 0 < s.digits)
    (whole : 0 ≤ s.exponent) (few : s.digits * 10 ^ (s.exponent.toNat + 1) ≤ greatestWord) :
    readNumber (Decimal.signed negative (s.positional ++ ".0")).toList =
      (gathered s).toFloat?.map fun x => (.fraction (if negative then -x else x), []) := by
  have text : (s.positional ++ ".0").toList =
      (Nat.toDigits 10 s.digits ++ List.replicate s.exponent.toNat '0') ++ ['.', '0'] := by
    rw [Scaled.positional]
    dsimp only
    rw [if_pos whole, String.toList_append, String.toList_append, toList_toString, toList_zeros]
    rfl
  have digits : Digits (Nat.toDigits 10 s.digits ++ List.replicate s.exponent.toNat '0') :=
    (digits_toDigits s.digits).append (digits_replicate _)
  have value : ofDigits (Nat.toDigits 10 s.digits ++ List.replicate s.exponent.toNat '0' ++ ['0']) =
      s.digits * 10 ^ (s.exponent.toNat + 1) := by
    rw [List.append_assoc, ← List.replicate_succ', ofDigits, Nat.ofDigitChars_append,
      Nat.ofDigitChars_replicate_zero, Nat.ofDigitChars_ten_toDigits, Nat.mul_comm]
  have leads := leads_take positive (List.length_pos_iff.2 (@Nat.toDigits_ne_nil s.digits 10))
    (List.replicate s.exponent.toNat '0')
  rw [List.take_length] at leads
  have point : readPlaces ['.', '0'] = some (valuesOf ['0'], true, []) := rfl
  rw [gathered, if_pos whole]
  exact readNumber_parts negative text digits (noDigit_cons rfl _) leads point rfl rfl value rfl few

/-- The numeral of a fraction with its point among its digits. -/
theorem readNumber_among (negative : Bool) (positive : 0 < s.digits) (fraction : s.exponent < 0)
    (among : 0 < s.exponent + (Nat.toDigits 10 s.digits).length) (few : s.digits ≤ greatestWord) :
    readNumber (Decimal.signed negative s.positional).toList =
      (gathered s).toFloat?.map fun x => (.fraction (if negative then -x else x), []) := by
  have digits := digits_toDigits s.digits
  have text : s.positional.toList =
      (Nat.toDigits 10 s.digits).take
          ((Nat.toDigits 10 s.digits).length - (-s.exponent).toNat) ++
        ('.' :: ((Nat.toDigits 10 s.digits).drop
          ((Nat.toDigits 10 s.digits).length - (-s.exponent).toNat) ++ [])) := by
    rw [Scaled.positional]
    dsimp only
    rw [if_neg (by omega), if_neg (by rw [length_toString]; omega), String.toList_append,
      String.toList_append, toList_toString, List.append_nil, List.append_assoc]
    simp only [String.toList_ofList]
    rfl
  have some_whole : 0 < (Nat.toDigits 10 s.digits).length - (-s.exponent).toNat := by omega
  generalize count : (Nat.toDigits 10 s.digits).length - (-s.exponent).toNat = whole
    at text some_whole
  have value : ofDigits ((Nat.toDigits 10 s.digits).take whole ++
      (Nat.toDigits 10 s.digits).drop whole) = s.digits := by
    rw [List.take_append_drop]
    exact ofDigits_toDigits s.digits
  have length : 0 - (((Nat.toDigits 10 s.digits).drop whole).length : Int) = s.exponent := by
    rw [List.length_drop]
    omega
  have some_places : (Nat.toDigits 10 s.digits).drop whole ≠ [] := by
    intro none
    rw [none, List.length_nil] at length
    omega
  have front : Digits ((Nat.toDigits 10 s.digits).take whole) :=
    fun c member => digits c (List.mem_of_mem_take member)
  have places : Digits ((Nat.toDigits 10 s.digits).drop whole) :=
    fun c member => digits c (List.mem_of_mem_drop member)
  have leads := leads_take positive some_whole []
  rw [List.append_nil] at leads
  rw [gathered, if_neg (by omega)]
  exact readNumber_parts negative text front (noDigit_cons rfl _) leads
    (readPlaces_point places some_places nofun) rfl rfl value length few

/-- The numeral of a fraction with zeros between its point and its digits. -/
theorem readNumber_behind (negative : Bool) (fraction : s.exponent < 0)
    (behind : s.exponent + (Nat.toDigits 10 s.digits).length ≤ 0) (few : s.digits ≤ greatestWord) :
    readNumber (Decimal.signed negative s.positional).toList =
      (gathered s).toFloat?.map fun x => (.fraction (if negative then -x else x), []) := by
  let zeros := List.replicate ((-s.exponent).toNat - (Nat.toDigits 10 s.digits).length) '0'
  have text : s.positional.toList =
      ['0'] ++ ('.' :: ((zeros ++ Nat.toDigits 10 s.digits) ++ [])) := by
    rw [Scaled.positional]
    dsimp only
    rw [if_neg (by omega), if_pos (by rw [length_toString]; omega), String.toList_append,
      String.toList_append, toList_zeros, toList_toString, length_toString, List.append_nil,
      List.append_assoc]
    rfl
  have value : ofDigits (['0'] ++ (zeros ++ Nat.toDigits 10 s.digits)) = s.digits := by
    rw [← List.append_assoc, List.singleton_append, ← List.replicate_succ, ofDigits_replicate]
  have length : 0 - ((zeros ++ Nat.toDigits 10 s.digits).length : Int) = s.exponent := by
    rw [List.length_append, List.length_replicate]
    omega
  have places : Digits (zeros ++ Nat.toDigits 10 s.digits) :=
    (digits_replicate _).append (digits_toDigits s.digits)
  have some_places : zeros ++ Nat.toDigits 10 s.digits ≠ [] :=
    List.append_ne_nil_of_right_ne_nil _ Nat.toDigits_ne_nil
  rw [gathered, if_neg (by omega)]
  exact readNumber_parts negative text (digits_replicate 1) (noDigit_cons rfl _) rfl
    (readPlaces_point places some_places nofun) rfl rfl value length few

/-- The numeral of a small fraction, with an exponent. -/
theorem readNumber_scientific (negative : Bool) (positive : 0 < s.digits)
    (small : s.exponent + (Nat.toDigits 10 s.digits).length ≤ -5)
    (few : s.digits ≤ greatestWord) :
    readNumber (Decimal.signed negative s.numeral).toList =
      (gathered s).toFloat?.map fun x => (.fraction (if negative then -x else x), []) := by
  have digits := digits_toDigits s.digits
  have some_digit := List.length_pos_iff.2 (@Nat.toDigits_ne_nil s.digits 10)
  obtain ⟨k, place⟩ : ∃ k : Nat, s.exponent + (Nat.toDigits 10 s.digits).length - 1 = .negSucc k :=
    ⟨(-(s.exponent + (Nat.toDigits 10 s.digits).length)).toNat, by omega⟩
  have single : (Nat.toDigits 10 s.digits).length = 1 ↔ (Nat.toDigits 10 s.digits).drop 1 = [] := by
    rw [List.drop_eq_nil_iff]
    omega
  have text : s.numeral.toList = (Nat.toDigits 10 s.digits).take 1 ++
      ((if (Nat.toDigits 10 s.digits).drop 1 = [] then []
        else '.' :: (Nat.toDigits 10 s.digits).drop 1) ++
          'e' :: (toString (Int.negSucc k)).toList) := by
    rw [Scaled.numeral]
    dsimp only
    rw [if_neg positive.ne', length_toString, if_neg (by omega), toList_toString, place,
      String.toList_append, String.toList_append, String.toList_append, String.toList_ofList,
      List.append_assoc, List.append_assoc]
    simp only [single]
    split
    · rfl
    · simp only [String.toList_append, String.toList_ofList]
      rfl
  have ends : NoDigit ((if (Nat.toDigits 10 s.digits).drop 1 = [] then []
      else '.' :: (Nat.toDigits 10 s.digits).drop 1) ++
        'e' :: (toString (Int.negSucc k)).toList) := by
    split <;> exact noDigit_cons rfl _
  have front : Digits ((Nat.toDigits 10 s.digits).take 1) :=
    fun c member => digits c (List.mem_of_mem_take member)
  have places : Digits ((Nat.toDigits 10 s.digits).drop 1) :=
    fun c member => digits c (List.mem_of_mem_drop member)
  have leads := leads_take positive one_pos []
  rw [List.append_nil] at leads
  have value : ofDigits ((Nat.toDigits 10 s.digits).take 1 ++ (Nat.toDigits 10 s.digits).drop 1) =
      s.digits := by
    rw [List.take_append_drop]
    exact ofDigits_toDigits s.digits
  have length : Int.negSucc k - ((Nat.toDigits 10 s.digits).drop 1).length = s.exponent := by
    rw [List.length_drop]
    omega
  rw [gathered, if_neg (by omega)]
  exact readNumber_parts negative text front ends leads (readPlaces_exponent places _)
    (readExponent_negSucc k) (Bool.or_true _) value length few

/-- A numeral is read as the digits that were laid out in it, and their power of ten. -/
theorem readNumber_numeral (negative : Bool) (positive : 0 < s.digits)
    (top : s.exponent + (Nat.toDigits 10 s.digits).length ≤ 16)
    (few : s.digits * 10 ^ (s.exponent.toNat + 1) ≤ greatestWord) :
    readNumber (Decimal.signed negative s.numeral).toList =
      (gathered s).toFloat?.map fun x => (.fraction (if negative then -x else x), []) := by
  have few' : s.digits ≤ greatestWord :=
    (Nat.le_mul_of_pos_right _ (Nat.pow_pos (by decide))).trans few
  by_cases small : s.exponent + (Nat.toDigits 10 s.digits).length ≤ -5
  · exact readNumber_scientific negative positive small few'
  have numeral : s.numeral =
      if 0 ≤ s.exponent then s.positional ++ ".0" else s.positional := by
    rw [Scaled.numeral]
    dsimp only
    rw [if_neg positive.ne', length_toString, if_pos ⟨by omega, top⟩]
  rw [numeral]
  split
  · next whole => exact readNumber_whole_numeral negative positive whole few
  · next fraction =>
    rcases lt_or_ge 0 (s.exponent + (Nat.toDigits 10 s.digits).length) with among | behind
    · exact readNumber_among negative positive (not_le.1 fraction) among few'
    · exact readNumber_behind negative (not_le.1 fraction) behind few'

end Numeral

/-! ## Short numerals -/

theorem reading_powerOfTen : ∀ k ≤ 22, Reading.ofFloat (powerOfTen k) =
    .finite ⟨false, 5 ^ k <<< (52 - (5 ^ k).log2), k - (52 - (5 ^ k).log2 : Nat)⟩ := by
  decide +kernel

/-- A small power of ten is a double: what is not a power of two in it has 52 bits. -/
theorem normal_powerOfTen {k : Nat} (small : k ≤ 22) : Normal (powerOfTen k) (10 ^ k) := by
  have positive : 0 < 5 ^ k := Nat.pow_pos (by decide)
  have bits : (5 ^ k).log2 < 53 := by
    rw [Nat.log2_lt positive.ne']
    calc 5 ^ k ≤ 5 ^ 22 := Nat.pow_le_pow_right (by decide) small
      _ < 2 ^ 53 := by decide
  have value : (10 : ℚ) ^ k = (5 ^ k : Nat) * 2 ^ (k : Int) := by
    rw [zpow_natCast]
    push_cast
    rw [← mul_pow]
    norm_num
  rw [value, ← Double.shifted_value (5 ^ k) (52 - (5 ^ k).log2) k]
  exact .of_reading (reading_powerOfTen k small) (Double.widened_low positive)
    (Double.widened_high (by omega)) (by omega) (by omega)

/-- A quotient of doubles is rounded once. -/
theorem toFloat?_rounds {N k j : Nat} (positive : 0 < N) (few : N < 2 ^ (53 + j))
    (zeros : 2 ^ j ∣ N) (word : N < 2 ^ 64) (some_place : 0 < k) (small : k ≤ 22)
    (moderate : Moderate ((N : ℚ) / 10 ^ k)) :
    ∃ f v, Gathered.toFloat? ⟨N, -k⟩ = some f ∧ Normal f v ∧ RoundedTo ((N : ℚ) / 10 ^ k) v := by
  have count : N.toUInt64.toNat = N := UInt64.toNat_ofNat_of_lt' word
  have digits : Normal N.toUInt64.toFloat N := by
    have exact_count := Double.toFloat_exact (n := N.toUInt64) (j := j)
    rw [count] at exact_count
    exact exact_count positive few zeros
  obtain ⟨v, normal, rounded⟩ := digits.div (normal_powerOfTen small) moderate
  refine ⟨_, v, ?_, normal, rounded⟩
  have steps : min (-(-k : Int)).toNat (4 * greatestPower) = k := by
    rw [greatestPower]
    omega
  rw [Gathered.toFloat?]
  dsimp only
  rw [if_neg (by omega), steps, divideByPower, if_pos (small.trans (by decide))]

section Short

variable {s : Scaled} {f : Float} {v : ℚ}

/-- The digits of a whole number, with a zero behind them. -/
theorem whole_digits (whole : 0 ≤ s.exponent) :
    ((s.digits * 10 ^ (s.exponent.toNat + 1) : Nat) : ℚ) = s.value * 10 := by
  rw [Scaled.value, ← Int.toNat_of_nonneg whole, zpow_natCast, Int.toNat_natCast]
  push_cast
  ring

theorem whole_few (whole : 0 ≤ s.exponent) (most : s.value ≤ 10 ^ 15) :
    s.digits * 10 ^ (s.exponent.toNat + 1) ≤ 10 ^ 16 := by
  have less : ((s.digits * 10 ^ (s.exponent.toNat + 1) : Nat) : ℚ) ≤ (10 ^ 16 : Nat) := by
    rw [whole_digits whole]
    push_cast
    linarith
  exact_mod_cast less

/-- Few digits are read as what they stand for, rounded once. -/
theorem gathered_rounds (positive : 0 < s.digits) (few : s.digits ≤ 10 ^ 15)
    (least : -22 ≤ s.exponent) (most : s.value ≤ 10 ^ 15) (moderate : Moderate s.value) :
    ∃ f v, (gathered s).toFloat? = some f ∧ Normal f v ∧ RoundedTo s.value v := by
  rw [gathered]
  split
  · next whole =>
    have value : ((s.digits * 10 ^ (s.exponent.toNat + 1) : Nat) : ℚ) / 10 ^ 1 = s.value := by
      rw [whole_digits whole, pow_one, mul_div_cancel_right₀ _ (by norm_num)]
    have few' := whole_few whole most
    have even : 2 ^ 1 ∣ s.digits * 10 ^ (s.exponent.toNat + 1) := by
      rw [pow_succ 10, ← mul_assoc]
      exact Dvd.dvd.mul_left (by decide) _
    rw [← value] at moderate ⊢
    exact toFloat?_rounds (Nat.mul_pos positive (Nat.pow_pos (by decide)))
      (few'.trans_lt (by decide)) even (few'.trans_lt (by decide)) one_pos (by decide) moderate
  · next fraction =>
    obtain ⟨k, minus⟩ : ∃ k : Nat, s.exponent = -k := ⟨(-s.exponent).toNat, by omega⟩
    have value : (s.digits : ℚ) / 10 ^ k = s.value := by
      rw [Scaled.value, minus, zpow_neg, zpow_natCast, div_eq_mul_inv]
    have few' : s.digits < 2 ^ (53 + 0) := few.trans_lt (by decide)
    rw [← value] at moderate ⊢
    rw [minus]
    exact toFloat?_rounds positive few' (one_dvd _) (few.trans_lt (by decide)) (by omega) (by omega)
      moderate

/-- The numeral of a double is read as that double if it has few digits and is rounded to it. -/
theorem readNumber_short (negative : Bool) (normal : Normal f v) (rounded : RoundedTo s.value v)
    (few : s.digits ≤ 10 ^ 15) (least : -22 ≤ s.exponent) (most : s.value ≤ 10 ^ 15)
    (some_size : 10 ^ (-7 : Int) ≤ v) :
    readNumber (Decimal.signed negative s.numeral).toList =
      some (.fraction (if negative then -f else f), []) := by
  have size : (0 : ℚ) < 10 ^ s.exponent := zpow_pos (by norm_num) _
  have low : (10 : ℚ) ^ (-7 : Int) / 2 ≤ s.value := by
    obtain ⟨-, near⟩ := rounded.near
    rw [Double.unit] at near
    have size : (10 : ℚ) ^ (-7 : Int) = 1 / 10 ^ 7 := by norm_num
    rw [size] at some_size ⊢
    linarith
  have moderate : Moderate s.value := ⟨le_trans (by norm_num) low, most.trans (by norm_num)⟩
  have positive : 0 < s.digits := by
    have some_value : (0 : ℚ) < s.digits * 10 ^ s.exponent := lt_of_lt_of_le (by norm_num) low
    exact_mod_cast pos_of_mul_pos_left some_value size.le
  have top : s.exponent + (Nat.toDigits 10 s.digits).length ≤ 16 := by
    obtain ⟨first, -⟩ := Decimal.digitCount_spec positive
    have count : Decimal.digitCount s.digits = (Nat.toDigits 10 s.digits).length :=
      if_neg positive.ne'
    have lead := (mul_le_mul_of_nonneg_right first size.le).trans most
    rw [← zpow_add₀ (by norm_num), ← zpow_natCast,
      zpow_le_zpow_iff_right₀ (by norm_num : (1 : ℚ) < 10), count] at lead
    omega
  have word : s.digits * 10 ^ (s.exponent.toNat + 1) ≤ greatestWord := by
    rcases le_or_gt 0 s.exponent with whole | fraction
    · exact (whole_few whole most).trans (by decide)
    · rw [Int.toNat_of_nonpos fraction.le]
      exact (Nat.mul_le_mul_right _ few).trans (by decide)
  obtain ⟨f', v', reads, normal', rounded'⟩ := gathered_rounds positive few least most moderate
  rw [readNumber_numeral negative positive top word, reads, Option.map_some,
    normal.eq_of_value (rounded.unique rounded' ▸ normal')]

/-- Whether a double is zero, or the one to which a decimal of fifteen digits is rounded, neither
tiny nor huge. -/
inductive Brief : Float → Prop
  | zero : Brief 0
  | decimal {f : Float} {v : ℚ} {d : Nat} {k : Int} (normal : Normal f v)
      (rounded : RoundedTo (d * 10 ^ k) v) (few : d < 10 ^ 15) (least : 10 ^ (-7 : Int) ≤ v)
      (most : v < 10 ^ 15) : Brief f

theorem brief_half : Brief 0.5 := by
  have normal : Normal 0.5 (1 / 2) :=
    ⟨2 ^ 52, -53, by decide, rfl, by decide, by decide, by decide, by decide, by norm_num⟩
  have rounded : RoundedTo ((5 : Nat) * 10 ^ (-1 : Int)) (1 / 2) :=
    ⟨-53, ⟨by norm_num, by norm_num⟩, 2 ^ 52, ⟨by norm_num, by norm_num⟩, by norm_num⟩
  exact .decimal normal rounded (by decide) (by norm_num) (by norm_num)

theorem readsBack_of_readNumber {x : Exact} {negative : Bool}
    (reading : Reading.ofFloat f = .finite x) (sign : x.negative = negative)
    (reads : readNumber (Decimal.signed negative (shortest x).numeral).toList =
      some (.fraction f, [])) : ReadsBack f := by
  rw [ReadsBack, reread?, Decimal.numeral?, reading]
  dsimp only
  rw [sign, Option.bind_some, reads]

/-- A double to which a decimal of fifteen digits is rounded reads back, and so does its
negative. -/
theorem readsBack_of_brief (brief : Brief f) : ReadsBack f ∧ ReadsBack (-f) := by
  cases brief with
  | zero => decide +kernel
  | @decimal _ v d k normal rounded few least most =>
    obtain ⟨m, q, reading, low, high, small, -, value⟩ := normal.reading
    have reads (negative : Bool) :
        readNumber (Decimal.signed negative (shortest ⟨negative, m, q⟩).numeral).toList =
          some (.fraction (if negative then -f else f), []) := by
      rw [value] at rounded
      obtain ⟨place, low', high', rounded', few', least', most'⟩ :=
        Decimal.shortest_spec negative low high (by omega) few rounded
      rw [← value] at low' high' rounded'
      have top := low'.trans_lt most
      have bottom := least.trans_lt high'
      rw [← zpow_natCast, zpow_lt_zpow_iff_right₀ (by norm_num)] at top
      rw [zpow_lt_zpow_iff_right₀ (by norm_num)] at bottom
      have most'' : (10 : ℚ) ^ place ≤ 10 ^ 15 := by
        rw [← zpow_natCast]
        exact zpow_le_zpow_right₀ (by norm_num) (by omega)
      exact readNumber_short negative normal rounded' few' (by omega) (most'.trans most'') least
    exact ⟨readsBack_of_readNumber reading rfl (reads false),
      readsBack_of_readNumber (normal.neg_reading reading) rfl (reads true)⟩

end Short

end JobSwarm.Json
