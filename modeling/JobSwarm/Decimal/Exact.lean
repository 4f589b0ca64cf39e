/-!
# The exact value of a double

A finite double is a whole number times a power of two. Everything that is printed about a double
is computed from this reading, in whole numbers, so nothing is rounded on the way.
-/

namespace JobSwarm.Decimal

/-- The value `m · 2 ^ q`, with the sign in front. -/
structure Exact where
  negative : Bool
  m : Nat
  q : Int
  deriving DecidableEq, Repr

/-- What a double stands for. -/
inductive Reading where
  | finite (value : Exact)
  | infinite (negative : Bool)
  | nan
  deriving DecidableEq, Repr

/-- How many fractions of fifty-two bits there are. -/
def fractionCount : Nat := 4503599627370496

/-- How many exponents of eleven bits there are. -/
def exponentCount : Nat := 2048

/-- The fields of the 64 bits: one of sign, eleven of exponent, fifty-two of fraction. -/
def Reading.ofBits (bits : Nat) : Reading :=
  let negative := bits / fractionCount / exponentCount % 2 == 1
  let biased : Nat := bits / fractionCount % exponentCount
  let fraction : Nat := bits % fractionCount
  if biased = 2047 then
    if fraction = 0 then .infinite negative else .nan
  else if biased = 0 then .finite ⟨negative, fraction, -1074⟩
  else .finite ⟨negative, fractionCount + fraction, (biased : Int) - 1075⟩

/-- The value of a double. -/
def Reading.ofFloat (x : Float) : Reading :=
  .ofBits x.toBits.toNat

/-- The magnitude `m · 2 ^ q · 10 ^ (-k)` as a fraction. -/
def Exact.fraction (x : Exact) (k : Int) : Nat × Nat :=
  (x.m * Nat.pow 2 x.q.toNat * Nat.pow 10 (-k).toNat,
    Nat.pow 2 (-x.q).toNat * Nat.pow 10 k.toNat)

end JobSwarm.Decimal
