import JobSwarm.Proofs.Text.Digits
import JobSwarm.Proofs.Time.Calendar
import JobSwarm.Proofs.Time.Instant
import Mathlib.Algebra.GroupWithZero.Nat

/-!
# Time stamps read back

Each part of a time stamp is a number of known width with a mark behind it, so it is read up to
where it was written.

Results:

* `Stamp.readNumber_append`: digits are read up to their end or their limit.
* `Stamp.readYear_yearText`, `Stamp.readFraction_fractionText`: years of any length and fractions of
  any precision read back.
* `Instant.ofText?_toText`: an instant that is not in a leap second reads back.
-/

namespace JobSwarm.Time

open Text

variable {c : Char} {ds rest : List Char} {most n width : Nat}

/-! ## Padded numbers -/

theorem toList_padded (width n : Nat) : (padded width n).toList =
    List.replicate (width - (Nat.toDigits 10 n).length) '0' ++ Nat.toDigits 10 n := by
  rw [padded, String.toList_append, String.toList_ofList, ← String.length_toList]
  simp only [Nat.toString_eq_repr, Nat.toList_repr]

theorem digits_padded (width n : Nat) : Digits (padded width n).toList := by
  intro c hc
  rw [toList_padded, List.mem_append] at hc
  rcases hc with zero | digit
  · exact List.eq_of_mem_replicate zero ▸ rfl
  · exact digits_toDigits n c digit

theorem ofDigits_padded (width n : Nat) : ofDigits (padded width n).toList = n := by
  rw [toList_padded, ofDigits, Nat.ofDigitChars_append, Nat.ofDigitChars_replicate_zero,
    Nat.mul_zero]
  exact ofDigits_toDigits n

theorem padded_ne_nil (width n : Nat) : (padded width n).toList ≠ [] := by
  simp [toList_padded]

theorem length_padded (h : n < 10 ^ width) (positive : 0 < width) :
    (padded width n).toList.length = width := by
  have fits := (Nat.length_toDigits_le_iff (by decide : 1 < 10) positive).2 h
  rw [toList_padded, List.length_append, List.length_replicate]
  omega

theorem padded_eq_cons (width n : Nat) :
    ∃ c cs, (padded width n).toList = c :: cs ∧ c.isDigit = true := by
  have digits := digits_padded width n
  cases h : (padded width n).toList with
  | nil => exact absurd h (padded_ne_nil width n)
  | cons c cs =>
    rw [h] at digits
    exact ⟨c, cs, rfl, digits.head⟩

namespace Stamp

/-! ## Numbers -/

theorem digit?_of_isDigit (h : c.isDigit = true) : digit? c = some (c.toNat - '0'.toNat) :=
  if_pos (isDigit_iff.1 h)

theorem digit?_of_not_isDigit (h : c.isDigit = false) : digit? c = none :=
  if_neg fun digit => Bool.false_ne_true (h.symm.trans (isDigit_iff.2 digit))

theorem readDigits_append (digits : Digits ds) (fits : ds.length ≤ most)
    (ends : ds.length = most ∨ NoDigit rest) (n : Nat) :
    readDigits most n (ds ++ rest) = (Nat.ofDigitChars 10 ds n, rest) := by
  induction ds generalizing most n with
  | nil =>
    cases most with
    | zero => cases rest <;> rfl
    | succ most =>
      obtain limit | mark := ends
      · cases limit
      · cases rest with
        | nil => rfl
        | cons c rest => simp [readDigits, digit?_of_not_isDigit (mark c rfl)]
  | cons c ds ih =>
    cases most with
    | zero => exact absurd fits (Nat.not_succ_le_zero _)
    | succ most =>
      rw [List.length_cons] at fits ends
      simp only [List.cons_append, readDigits, digit?_of_isDigit digits.head]
      rw [ih digits.tail (by omega) (ends.imp_left Nat.succ.inj), Nat.ofDigitChars_cons,
        Nat.mul_comm]

/-- Digits are read up to their end or their limit. -/
theorem readNumber_append (digits : Digits ds) (nonempty : ds ≠ []) (fits : ds.length ≤ most)
    (ends : ds.length = most ∨ NoDigit rest) :
    readNumber most (ds ++ rest) = some (ofDigits ds, rest) := by
  have length := List.length_pos_iff.2 nonempty
  simp only [readNumber, readDigits_append digits fits ends]
  rw [if_neg (by rw [List.length_append]; omega)]
  rfl

theorem readNumber_padded (h : n < 10 ^ width) (positive : 0 < width) :
    readNumber width ((padded width n).toList ++ rest) = some (n, rest) := by
  have length := length_padded h positive
  rw [readNumber_append (digits_padded width n) (padded_ne_nil width n)
    (Nat.le_of_eq length) (.inl length), ofDigits_padded]

theorem readField_padded (h : n < 10 ^ width) (positive : 0 < width) :
    readField width ((padded width n).toList ++ rest) = some (n, rest) := by
  obtain ⟨c, cs, eq, digit⟩ := padded_eq_cons width n
  rw [← readNumber_padded h positive, readField, eq, List.cons_append, dropBlank_of_isDigit digit]

/-! ## Years -/

theorem readYear_of_isDigit (h : c.isDigit = true) :
    readYear (c :: ds) = (readNumber 4 (c :: ds)).map fun (n, rest) => ((n : Int), rest) := by
  rw [readYear, dropBlank_of_isDigit h]
  split
  · next eq => cases eq; cases h
  · next eq => cases eq; cases h
  · rfl

theorem readYear_minus (cs : List Char) :
    readYear ('-' :: cs) = (readNumber cs.length cs).map fun (n, rest) => (-(n : Int), rest) :=
  rfl

theorem readYear_plus (cs : List Char) :
    readYear ('+' :: cs) = (readNumber cs.length cs).map fun (n, rest) => ((n : Int), rest) :=
  rfl

theorem readNumber_signed (width n : Nat) (mark : NoDigit rest) :
    readNumber ((padded width n).toList ++ rest).length ((padded width n).toList ++ rest) =
      some (n, rest) := by
  rw [readNumber_append (digits_padded width n) (padded_ne_nil width n) _ (.inr mark),
    ofDigits_padded]
  rw [List.length_append]
  exact Nat.le_add_right ..

/-- A year reads back, signed or not, before a character that is no digit. -/
theorem readYear_yearText (year : Int) (mark : NoDigit rest) :
    readYear ((yearText year).toList ++ rest) = some (year, rest) := by
  rw [yearText]
  split
  · next four =>
    obtain ⟨c, cs, eq, digit⟩ := padded_eq_cons 4 year.toNat
    have number : readNumber 4 ((padded 4 year.toNat).toList ++ rest) = some (year.toNat, rest) :=
      readNumber_padded (by omega) (by decide)
    rw [eq, List.cons_append] at number ⊢
    simp only [readYear_of_isDigit digit, number, Option.map_some, Int.toNat_of_nonneg four.1]
  · next long =>
    rw [String.toList_append, List.append_assoc]
    have number := readNumber_signed 4 year.natAbs mark
    split
    · next negative =>
      rw [show "-".toList = ['-'] from rfl, List.singleton_append, readYear_minus]
      simp only [number, Option.map_some, Int.ofNat_natAbs_of_nonpos (Int.le_of_lt negative),
        Int.neg_neg]
    · next positive =>
      rw [show "+".toList = ['+'] from rfl, List.singleton_append, readYear_plus]
      simp only [number, Option.map_some, Int.natAbs_of_nonneg (Int.not_lt.1 positive)]

/-! ## Fractions -/

theorem readFraction_point (h : n < 10 ^ width) (positive : 0 < width) (fits : width ≤ 9)
    (mark : NoDigit rest) : readFraction ('.' :: ((padded width n).toList ++ rest)) =
      some (n * 10 ^ (9 - width), rest) := by
  have length := length_padded h positive
  have number : readNumber 9 ((padded width n).toList ++ rest) = some (n, rest) := by
    rw [readNumber_append (digits_padded width n) (padded_ne_nil width n) (by omega) (.inr mark),
      ofDigits_padded]
  have after : rest.dropWhile (fun c => (digit? c).isSome) = rest := by
    cases rest with
    | nil => rfl
    | cons c rest => simp [digit?_of_not_isDigit (mark c rfl)]
  simp only [readFraction, number, Option.bind_eq_bind, Option.bind_some, after, Nat.pow_eq]
  rw [List.length_append, length, Nat.add_sub_cancel]
  rfl

/-- A fraction reads back, whichever of its precisions it is written in. -/
theorem readFraction_fractionText (h : n < perSecond) :
    readFraction ((fractionText n).toList ++ 'Z' :: rest) = some (n, 'Z' :: rest) := by
  have mark : NoDigit ('Z' :: rest) := by
    rintro c ⟨⟩
    rfl
  have point (text : String) : ("." ++ text).toList ++ 'Z' :: rest =
      '.' :: (text.toList ++ 'Z' :: rest) := by
    simp
  simp only [perSecond] at h
  rw [fractionText]
  split
  · next zero =>
    subst zero
    rfl
  · split
    · next millis =>
      rw [point, readFraction_point (by omega) (by decide) (by decide) mark]
      exact congrArg (fun n => some (n, _)) (Nat.div_mul_cancel (Nat.dvd_of_mod_eq_zero millis))
    · split
      · next micros =>
        rw [point, readFraction_point (by omega) (by decide) (by decide) mark]
        exact congrArg (fun n => some (n, _)) (Nat.div_mul_cancel (Nat.dvd_of_mod_eq_zero micros))
      · rw [point, readFraction_point (by omega) (by decide) (by decide) mark, Nat.sub_self,
          Nat.pow_zero, Nat.mul_one]

/-! ## Whole time stamps -/

theorem readMark_mark (mark : Char) (h : isBlank mark = false) (cs : List Char) :
    readMark mark (mark :: cs) = some cs := by
  simp [readMark, dropBlank, h]

theorem instant?_ofDays (i : Instant) :
    instant? (.ofDays (i.seconds / 86400)) (i.secondOfDay.toNat / 3600)
      (i.secondOfDay.toNat / 60 % 60) (i.secondOfDay.toNat % 60) i.nanos 0 = some i := by
  obtain ⟨least, most, nanos⟩ := And.intro i.seconds_ge (And.intro i.seconds_le i.nanos_lt)
  have inDay : 0 ≤ i.secondOfDay ∧ i.secondOfDay < 86400 := by
    simp only [Instant.secondOfDay]
    omega
  have sum : (Date.ofDays (i.seconds / 86400)).toDays * 86400 +
      ((i.secondOfDay.toNat / 3600 : Nat) * 3600 + (i.secondOfDay.toNat / 60 % 60 : Nat) * 60 +
        (i.secondOfDay.toNat % 60 - 0 : Nat)) = i.seconds := by
    rw [Date.toDays_ofDays]
    simp only [Instant.secondOfDay] at inDay ⊢
    omega
  have possible : ¬(¬(Date.ofDays (i.seconds / 86400)).Exists ∨ 24 ≤ i.secondOfDay.toNat / 3600 ∨
      60 ≤ i.secondOfDay.toNat / 60 % 60 ∨ 61 ≤ i.secondOfDay.toNat % 60 ∨
      86400 ≤ (0 : Int).natAbs) := by
    have exists_ := Date.exists_ofDays (i.seconds / 86400)
    simp only [exists_, not_true_eq_false, false_or, Int.natAbs_zero]
    omega
  simp only [instant?, if_neg possible, if_neg (show i.secondOfDay.toNat % 60 ≠ 60 by omega), sum]
  rw [if_neg (by omega)]
  simp only [Int.sub_zero, Nat.zero_mul, Nat.add_zero]
  rw [dif_pos ⟨⟨least, most⟩, nanos⟩]

end Stamp

open Stamp

/-- An instant that is not in a leap second reads back from its text. -/
theorem Instant.ofText?_toText {i : Instant} (plain : i.Plain) : ofText? i.toText = some i := by
  obtain ⟨month, day⟩ := (Date.exists_ofDays (i.seconds / 86400)).bounds
  have second : i.secondOfDay.toNat < 86400 := by
    simp only [secondOfDay]
    omega
  have dash (cs : List Char) : NoDigit ('-' :: cs) := by
    rintro c ⟨⟩
    rfl
  have pair {n : Nat} (h : n < 100) (rest : List Char) :
      readField 2 ((padded 2 n).toList ++ rest) = some (n, rest) :=
    readField_padded h (by decide)
  have divider (cs : List Char) : readDivider ('T' :: cs) = some cs := rfl
  have offset : readOffset (dropBlank ['Z']) = some (0, []) := rfl
  simp only [ofText?, toText, String.toList_append, List.append_assoc, Nat.div_eq_of_lt plain,
    Nat.mod_eq_of_lt plain, Nat.add_zero]
  rw [show "-".toList = ['-'] from rfl, show "T".toList = ['T'] from rfl,
    show ":".toList = [':'] from rfl, show "Z".toList = ['Z'] from rfl]
  simp only [List.singleton_append, Option.bind_eq_bind, Option.bind_some,
    readYear_yearText _ (dash _), readMark_mark '-' rfl, readMark_mark ':' rfl,
    pair (show (Date.ofDays (i.seconds / 86400)).month < 100 by omega),
    pair (show (Date.ofDays (i.seconds / 86400)).day < 100 by omega), divider,
    pair (show i.secondOfDay.toNat / 3600 < 100 by omega),
    pair (show i.secondOfDay.toNat / 60 % 60 < 100 by omega),
    pair (show i.secondOfDay.toNat % 60 < 100 by omega), readFraction_fractionText plain, offset]
  exact instant?_ofDays i

end JobSwarm.Time
