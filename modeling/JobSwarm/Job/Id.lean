import JobSwarm.Json.Record

/-!
# Job identifiers

An identifier is a number of 128 bits: milliseconds since the epoch in the upper 48, chance in the
rest, so that identifiers sort by age. Its text has 26 letters of five bits each, most significant
first, in an alphabet that leaves out I, L, O and U. Two bits more fit into the letters than into
the number; reading drops them.

Results:

* `parse_text`: an identifier reads back from its text.
-/

namespace JobSwarm.Job

/-- The identifier of a job (`JobId`). -/
structure Id where
  bits : BitVec 128
  deriving DecidableEq

namespace Id

/-- The letters, in the order of their values. -/
def alphabet : List Char :=
  "0123456789ABCDEFGHJKMNPQRSTVWXYZ".toList

/-- How many letters an identifier has. -/
def letterCount : Nat := 26

/-- The letter of a value below 32. -/
def letter (n : Nat) : Char :=
  alphabet.getD n '0'

/-- The value of a letter, upper or lower case. -/
def value? (c : Char) : Option Nat :=
  alphabet.idxOf? c.toUpper

/-- The last `count` letters of a number, in front of `done`. -/
def letters : Nat → Nat → List Char → List Char
  | 0, _, done => done
  | count + 1, n, done => letters count (n / 32) (letter (n % 32) :: done)

/-- The text of an identifier, in upper case (`fmt`). -/
def toText (id : Id) : String :=
  String.ofList (letters letterCount id.bits.toNat [])

/-- Why a text is no identifier. -/
inductive Fault where
  | length
  | letter
  deriving DecidableEq, Repr

def Fault.message : Fault → String
  | .length => "invalid length"
  | .letter => "invalid character"

/-- The number that the letters stand for, read on from `n`. -/
def number? : Nat → List Char → Option Nat
  | n, [] => some n
  | n, c :: rest => (value? c).bind fun d => number? (n * 32 + d) rest

/-- Reads an identifier (`parse`). The length is counted in bytes and comes before the letters. -/
def parse (text : String) : Except Fault Id :=
  if text.utf8ByteSize ≠ letterCount then .error .length
  else
    match number? 0 text.toList with
    | some n => .ok ⟨.ofNat 128 n⟩
    | none => .error .letter

/-- A new identifier from the time and from 80 bits of chance (`new`). -/
def mint (millis : Nat) (chance : BitVec 80) : Id :=
  ⟨BitVec.ofNat 48 millis ++ chance⟩

/-- Reads an identifier from JSON. -/
def read : Json.Reads Id
  | .text text => (parse text).toOption
  | _ => none

def write (id : Id) : Json :=
  .text id.toText

/-! ## Reading back -/

theorem value?_letter (n : Nat) (h : n < 32) : value? (letter n) = some n := by
  revert n
  decide

theorem letters_eq (count n : Nat) (done : List Char) :
    letters count n done = letters count n [] ++ done := by
  induction count generalizing n done with
  | zero => rfl
  | succ count ih => rw [letters, letters, ih, ih (n / 32) [_], List.append_assoc]; rfl

theorem number?_append (cs ds : List Char) (n : Nat) :
    number? n (cs ++ ds) = (number? n cs).bind fun m => number? m ds := by
  induction cs generalizing n with
  | nil => rfl
  | cons c cs ih =>
    simp only [List.cons_append, number?]
    cases value? c <;> simp [ih]

theorem number?_letters (count n : Nat) :
    number? 0 (letters count n []) = some (n % Nat.pow 32 count) := by
  induction count generalizing n with
  | zero => simp [letters, number?, Nat.mod_one]
  | succ count ih =>
    rw [letters, letters_eq, number?_append, ih]
    simp only [Option.bind_some, number?, value?_letter _ (Nat.mod_lt n (by decide))]
    simp only [Nat.pow_eq]
    rw [Nat.pow_succ, Nat.mul_comm (32 ^ count) 32, Nat.mod_mul, Nat.mul_comm, Nat.add_comm]

theorem utf8Size_letter (n : Nat) (h : n < 32) : (letter n).utf8Size = 1 := by
  revert n
  decide

theorem bytes_letters (count n : Nat) :
    (String.ofList (letters count n [])).utf8ByteSize = count := by
  induction count generalizing n with
  | zero => rfl
  | succ count ih =>
    rw [letters, letters_eq, String.ofList_append, String.utf8ByteSize_append, ih]
    simp [utf8Size_letter _ (Nat.mod_lt n (by decide : 0 < 32))]

theorem parse_text (id : Id) : parse id.toText = .ok id := by
  have h := id.bits.isLt
  rw [parse, if_neg (by rw [toText, bytes_letters]; simp)]
  simp only [toText, String.toList_ofList, number?_letters]
  rw [Nat.mod_eq_of_lt (by simp only [letterCount, Nat.pow_eq]; omega)]
  simp

end Id

end JobSwarm.Job
