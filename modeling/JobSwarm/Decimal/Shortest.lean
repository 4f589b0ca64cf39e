import JobSwarm.Decimal.Exact

/-!
# The fewest digits that read back

Of all decimals that round to a given double, `shortest` picks one with the fewest digits, and of
those the nearest to the double. It tests, for one digit, two digits and so on, the two points of
that decimal grid around the value against the interval of numbers that round to the double.
-/

namespace JobSwarm.Decimal

/-- The decimal `digits · 10 ^ exponent`. -/
structure Scaled where
  digits : Nat
  exponent : Int
  deriving DecidableEq, Repr

/-- How many decimal digits a number has; zero has none. -/
def digitCount (n : Nat) : Nat :=
  if n = 0 then 0 else (Nat.toDigits 10 n).length

/-- The least `p` with `num / den < 10 ^ p`, for a positive fraction. -/
def leadingPlace (num den : Nat) : Int :=
  let p : Int := (digitCount num : Int) - digitCount den
  if den * Nat.pow 10 p.toNat ≤ num * Nat.pow 10 (-p).toNat then p + 1 else p

/-- The numbers that round to `x`, in quarters of its last binary place: from `low` to `high`, the
ends included when `closed`. -/
structure Basin where
  low : Exact
  high : Exact
  closed : Bool

/-- Below a power of two the doubles lie twice as close. The ends round to the double whose last
binary digit is even. -/
def Basin.of (x : Exact) : Basin :=
  let lower := if x.m = fractionCount ∧ -1074 < x.q then 4 * x.m - 1 else 4 * x.m - 2
  ⟨⟨false, lower, x.q - 2⟩, ⟨false, 4 * x.m + 2, x.q - 2⟩, x.m % 2 = 0⟩

/-- Whether `digits · 10 ^ k` rounds to the double. -/
def Basin.holds (basin : Basin) (digits : Nat) (k : Int) : Bool :=
  let low := basin.low.fraction k
  let high := basin.high.fraction k
  if basin.closed then
    low.1 ≤ digits * low.2 && digits * high.2 ≤ high.1
  else
    low.1 < digits * low.2 && digits * high.2 < high.1

/-- The point of the grid `10 ^ k` that reads back, if one of the two around `x` does; the nearer
of two, the upper one of two at one distance. -/
def onGrid (x : Exact) (basin : Basin) (k : Int) : Option Nat :=
  let value := x.fraction k
  let below := value.1 / value.2
  let above := below + 1
  match basin.holds below k, basin.holds above k with
  | true, true =>
    if value.1 - below * value.2 < above * value.2 - value.1 then some below else some above
  | true, false => some below
  | false, true => some above
  | false, false => none

/-- Tries grids of more and more digits; seventeen always suffice. -/
def firstGrid (x : Exact) (basin : Basin) (place : Int) (count : Nat) : Nat → Scaled
  | 0 => ⟨(x.fraction (place - count)).1 / (x.fraction (place - count)).2, place - count⟩
  | left + 1 =>
    match onGrid x basin (place - count) with
    | some digits => ⟨digits, place - count⟩
    | none => firstGrid x basin place (count + 1) left

/-- Moves the zeros at the end of the digits into the exponent. -/
def Scaled.trim (s : Scaled) : Scaled :=
  if h : s.digits ≠ 0 ∧ s.digits % 10 = 0 then
    Scaled.trim ⟨s.digits / 10, s.exponent + 1⟩
  else s
termination_by s.digits
decreasing_by omega

/-- The shortest decimal that reads back as the magnitude of `x`. -/
def shortest (x : Exact) : Scaled :=
  if x.m = 0 then ⟨0, 0⟩
  else
    let value := x.fraction 0
    (firstGrid x (.of x) (leadingPlace value.1 value.2) 1 17).trim

end JobSwarm.Decimal
