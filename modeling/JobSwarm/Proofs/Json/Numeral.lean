import JobSwarm.Json.Numeral
import JobSwarm.Proofs.Text.Digits

/-!
# Numbers of JSON text

A number ends where a mark follows, so what follows does not count when it is read. A whole number
of 64 bits reads back from its digits. Whether a fraction does depends on its digits.

Results:

* `readNumber_append`: what follows a number is left.
* `readNumber_whole`: a whole number of 64 bits reads back.
-/

namespace JobSwarm.Json

open Text

variable {c : Char} {cs ds tail : List Char}

/-- Whether a text is at its end, or goes on with a mark between values. -/
def Follows (cs : List Char) : Prop :=
  ∀ c ∈ cs.head?, c = ',' ∨ c = ']' ∨ c = '\x7d'

theorem follows_nil : Follows [] :=
  nofun

theorem follows_cons (h : c = ',' ∨ c = ']' ∨ c = '\x7d') (cs : List Char) : Follows (c :: cs) := by
  rintro d ⟨⟩
  exact h

theorem Follows.forms (h : Follows cs) :
    cs = [] ∨ ∃ rest, cs = ',' :: rest ∨ cs = ']' :: rest ∨ cs = '\x7d' :: rest := by
  cases cs with
  | nil => exact .inl rfl
  | cons c rest => exact .inr ⟨rest, by rcases h c rfl with rfl | rfl | rfl <;> simp⟩

/-! ## Digits -/

theorem digit?_of_isDigit (h : c.isDigit = true) : digit? c = some (c.toNat - '0'.toNat) :=
  if_pos (isDigit_iff.1 h)

theorem digit?_of_not_isDigit (h : c.isDigit = false) : digit? c = none :=
  if_neg fun digit => Bool.false_ne_true (h.symm.trans (isDigit_iff.2 digit))

theorem Follows.digitRun (h : Follows tail) : digitRun tail = ([], tail) := by
  rcases h.forms with rfl | ⟨rest, rfl | rfl | rfl⟩ <;> rfl

/-- A run of digits ends where a mark follows. -/
theorem digitRun_append (h : Follows tail) (cs : List Char) :
    digitRun (cs ++ tail) = ((digitRun cs).1, (digitRun cs).2 ++ tail) := by
  induction cs with
  | nil => exact h.digitRun
  | cons c cs ih =>
    simp only [List.cons_append, digitRun, ih]
    cases digit? c <;> rfl

theorem digitRun_digits (digits : Digits ds) :
    digitRun ds = (ds.map fun c => c.toNat - '0'.toNat, []) := by
  induction ds with
  | nil => rfl
  | cons c ds ih =>
    simp only [digitRun, digit?_of_isDigit digits.head, ih digits.tail, List.map_cons]

theorem foldl_digits (ds : List Char) (n : Nat) :
    (ds.map fun c => c.toNat - '0'.toNat).foldl (fun n d => n * 10 + d) n =
      Nat.ofDigitChars 10 ds n := by
  simp only [List.foldl_map, Nat.ofDigitChars_eq_foldl, Nat.mul_comm 10]

/-! ## What follows a number -/

theorem readPlaces_append (h : Follows tail) (cs : List Char) :
    readPlaces (cs ++ tail) =
      (readPlaces cs).map fun (ds, pointed, rest) => (ds, pointed, rest ++ tail) := by
  cases cs with
  | nil => rcases h.forms with rfl | ⟨rest, rfl | rfl | rfl⟩ <;> rfl
  | cons c cs =>
    by_cases point : c = '.'
    · subst point
      simp only [List.cons_append, readPlaces, digitRun_append h]
      split <;> rfl
    · simp [readPlaces, point]

theorem takeMinus_append (h : Follows tail) (cs : List Char) :
    takeMinus (cs ++ tail) = ((takeMinus cs).1, (takeMinus cs).2 ++ tail) := by
  cases cs with
  | nil => rcases h.forms with rfl | ⟨rest, rfl | rfl | rfl⟩ <;> rfl
  | cons c cs =>
    by_cases minus : c = '-'
    · subst minus
      rfl
    · simp [takeMinus, minus]

theorem takeSign_append (h : Follows tail) (cs : List Char) :
    takeSign (cs ++ tail) = ((takeSign cs).1, (takeSign cs).2 ++ tail) := by
  cases cs with
  | nil => rcases h.forms with rfl | ⟨rest, rfl | rfl | rfl⟩ <;> rfl
  | cons c cs =>
    by_cases plus : c = '+'
    · subst plus
      rfl
    · have other (rest : List Char) : takeSign (c :: rest) = takeMinus (c :: rest) := by
        simp [takeSign, plus]
      rw [List.cons_append, other, other, ← List.cons_append, takeMinus_append h]

theorem readExponent_append (h : Follows tail) (cs : List Char) :
    readExponent (cs ++ tail) =
      (readExponent cs).map fun (n, scaled, rest) => (n, scaled, rest ++ tail) := by
  cases cs with
  | nil => rcases h.forms with rfl | ⟨rest, rfl | rfl | rfl⟩ <;> rfl
  | cons c cs =>
    simp only [List.cons_append, readExponent, takeSign_append h, digitRun_append h]
    split
    · split <;> rfl
    · rfl

/-- What follows a number is left. -/
theorem readNumber_append (h : Follows tail) (cs : List Char) :
    readNumber (cs ++ tail) = (readNumber cs).map fun (value, rest) => (value, rest ++ tail) := by
  simp only [readNumber, takeMinus_append h, digitRun_append h, readPlaces_append h,
    Option.bind_eq_bind]
  split
  · rfl
  · cases readPlaces (digitRun (takeMinus cs).2).2 with
    | none => rfl
    | some read =>
      obtain ⟨places, pointed, rest⟩ := read
      simp only [Option.map_some, Option.bind_some, readExponent_append h]
      cases readExponent rest with
      | none => rfl
      | some read =>
        obtain ⟨exponent, scaled, rest⟩ := read
        simp only [Option.map_some, Option.bind_some]
        generalize ofGathered _ _ _ _ = value
        cases value <;> rfl

/-- A number begins with a minus sign or a digit. -/
theorem head_of_readNumber {read : Json × List Char} (h : readNumber cs = some read) :
    ∃ c rest, cs = c :: rest ∧ (c = '-' ∨ c.isDigit = true) := by
  cases cs with
  | nil => cases h
  | cons c rest =>
    refine ⟨c, rest, rfl, ?_⟩
    by_cases minus : c = '-'
    · exact .inl minus
    · refine .inr (Bool.of_not_eq_false fun other => ?_)
      simp [readNumber, takeMinus, minus, digitRun, digit?_of_not_isDigit other] at h

/-! ## Whole numbers -/

/-- The values of the digits of a number. -/
def digitsOf (n : Nat) : List Nat :=
  (Nat.toDigits 10 n).map fun c => c.toNat - '0'.toNat

theorem digitRun_toDigits (n : Nat) : digitRun (Nat.toDigits 10 n) = (digitsOf n, []) :=
  digitRun_digits (digits_toDigits n)

theorem foldl_digitsOf (n : Nat) : (digitsOf n).foldl (fun n d => n * 10 + d) 0 = n := by
  rw [digitsOf, foldl_digits]
  exact ofDigits_toDigits n

theorem head?_digitsOf {n : Nat} (positive : 0 < n) : (digitsOf n).head? ≠ some 0 := by
  induction n using Nat.strongRecOn with
  | ind n ih =>
    by_cases small : n < 10
    · rw [digitsOf, Nat.toDigits_of_lt_base small, List.map_singleton, List.head?_singleton]
      rw [Nat.toNat_digitChar_of_lt_ten small]
      show some (48 + n - 48) ≠ some 0
      rw [Nat.add_sub_cancel_left]
      exact fun zero => Nat.ne_of_gt positive (Option.some.inj zero)
    · have first := ih (n / 10) (by omega) (by omega)
      rw [digitsOf, List.head?_map] at first ⊢
      rw [Nat.toDigits_of_base_le (by decide) (by omega), List.head?_append]
      cases h : (Nat.toDigits 10 (n / 10)).head? with
      | none => exact absurd (List.head?_eq_none_iff.1 h) Nat.toDigits_ne_nil
      | some c => rwa [h] at first

/-- No zero stands in front of the digits of a number, except that of zero. -/
theorem digitsOf_leads (n : Nat) : ((digitsOf n).isEmpty ||
    ((digitsOf n).head? == some 0 && decide (1 < (digitsOf n).length))) = false := by
  have nonempty : (digitsOf n).isEmpty = false := by
    rw [digitsOf, List.isEmpty_map]
    exact List.isEmpty_eq_false_iff.2 Nat.toDigits_ne_nil
  rcases Nat.eq_zero_or_pos n with rfl | positive
  · rfl
  · rw [nonempty, Bool.false_or, beq_eq_false_iff_ne.2 (head?_digitsOf positive), Bool.false_and]

theorem takeMinus_toDigits (n : Nat) :
    takeMinus (Nat.toDigits 10 n) = (false, Nat.toDigits 10 n) := by
  have digits := digits_toDigits n
  cases h : Nat.toDigits 10 n with
  | nil => rfl
  | cons c cs =>
    rw [h] at digits
    have other : c ≠ '-' := by
      rintro rfl
      cases digits.head
    simp [takeMinus, other]

/-- A whole number of 64 bits reads back from its text. -/
theorem readNumber_whole {n : Int} (least : -(leastMagnitude : Int) ≤ n)
    (most : n ≤ (greatestWord : Int)) : readNumber (toString n).toList = some (.whole n, []) := by
  cases n with
  | ofNat n =>
    have text : (toString (Int.ofNat n)).toList = Nat.toDigits 10 n := Nat.toList_repr
    have fits : n ≤ greatestWord := Int.ofNat_le.1 most
    simp only [text, readNumber, takeMinus_toDigits, digitRun_toDigits, digitsOf_leads,
      ofGathered, foldl_digitsOf, readPlaces, readExponent]
    simp [fits]
  | negSucc n =>
    have text : (toString (Int.negSucc n)).toList = '-' :: Nat.toDigits 10 (n + 1) := by
      show ("-" ++ (n + 1).repr).toList = _
      simp
    have fits : n + 1 ≤ leastMagnitude := by omega
    simp only [text, readNumber, takeMinus, digitRun_toDigits, digitsOf_leads,
      ofGathered, foldl_digitsOf, readPlaces, readExponent]
    simp [fits, Int.negSucc_eq]

end JobSwarm.Json
