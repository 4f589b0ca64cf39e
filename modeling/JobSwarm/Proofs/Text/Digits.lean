import JobSwarm.Text.Blank

/-!
# Decimal digits

What is read off a text as a number is a run of digits, which ends where no digit follows.

Results:

* `isDigit_iff`: the digits are a range of characters.
* `ofDigits_toDigits`: the digits of a number stand for it.
* `dropBlank_of_isDigit`: no digit is blank.
-/

namespace JobSwarm.Text

variable {c : Char} {cs ds rest : List Char}

/-- Whether all characters are digits. -/
def Digits (cs : List Char) : Prop :=
  ∀ c ∈ cs, c.isDigit = true

/-- Whether a text does not go on with a digit. -/
def NoDigit (cs : List Char) : Prop :=
  ∀ c ∈ cs.head?, c.isDigit = false

/-- The number that digits stand for. -/
def ofDigits (cs : List Char) : Nat :=
  Nat.ofDigitChars 10 cs 0

theorem isDigit_iff : c.isDigit = true ↔ '0' ≤ c ∧ c ≤ '9' := by
  simp [Char.isDigit, Char.le_def]

theorem Digits.head (h : Digits (c :: cs)) : c.isDigit = true :=
  h c List.mem_cons_self

theorem Digits.tail (h : Digits (c :: cs)) : Digits cs :=
  fun d hd => h d (List.mem_cons_of_mem c hd)

theorem Digits.append (h : Digits cs) (h' : Digits ds) : Digits (cs ++ ds) :=
  List.forall_mem_append.2 ⟨h, h'⟩

theorem digits_toDigits (n : Nat) : Digits (Nat.toDigits 10 n) :=
  fun _ => Nat.isDigit_of_mem_toDigits (by decide) (by decide)

theorem ofDigits_toDigits (n : Nat) : ofDigits (Nat.toDigits 10 n) = n :=
  Nat.ofDigitChars_ten_toDigits

theorem not_isBlank_of_isDigit (h : c.isDigit = true) : isBlank c = false := by
  obtain ⟨low, high⟩ := isDigit_iff.1 h
  have least : 48 ≤ c.toNat := low
  have most : c.toNat ≤ 57 := high
  have apart : ∀ range ∈ blankRanges, range.2 < 48 ∨ 57 < range.1 := by decide
  simp only [isBlank, List.any_eq_false, Bool.and_eq_true, decide_eq_true_eq]
  intro range member
  have := apart range member
  omega

theorem dropBlank_of_isDigit (h : c.isDigit = true) : dropBlank (c :: cs) = c :: cs := by
  simp [dropBlank, not_isBlank_of_isDigit h]

end JobSwarm.Text
