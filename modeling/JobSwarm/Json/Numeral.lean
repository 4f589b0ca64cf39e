import JobSwarm.Json.Basic

/-!
# Numbers in JSON text

A number without point and exponent is whole as long as it fits 64 bits, signed or unsigned;
minus zero, which only a double can tell from zero, is a fraction. A fraction is its digits, as
many as fit 64 bits, brought to a double and then scaled by one power of ten. Digits and power are
each rounded, and so is their product: a numeral of more than fifteen digits need not give the
nearest double.
-/

namespace JobSwarm.Json

/-- The greatest number of 64 bits. -/
def greatestWord : Nat := UInt64.size - 1

/-- The magnitude of the least signed number of 64 bits. -/
def leastMagnitude : Nat := 9223372036854775808

/-- The value of a decimal digit. -/
def digit? (c : Char) : Option Nat :=
  if '0' ≤ c ∧ c ≤ '9' then some (c.toNat - '0'.toNat) else none

/-- The leading digits of a text, and what follows them. -/
def digitRun : List Char → List Nat × List Char
  | [] => ([], [])
  | c :: rest =>
    match digit? c with
    | some d => let (ds, after) := digitRun rest; (d :: ds, after)
    | none => ([], c :: rest)

/-- Digits gathered into a word, and the power of ten that goes with them. -/
structure Gathered where
  digits : Nat
  power : Int

/-- Adds the digits in front of the point: from the first that does not fit, each only multiplies
by ten. -/
def Gathered.addWhole (g : Gathered) : List Nat → Gathered
  | [] => g
  | d :: rest =>
    if g.digits * 10 + d ≤ greatestWord then addWhole ⟨g.digits * 10 + d, g.power⟩ rest
    else ⟨g.digits, g.power + (rest.length + 1 : Nat)⟩

/-- Adds the digits behind the point: from the first that does not fit they are left out. -/
def Gathered.addPlaces (g : Gathered) : List Nat → Gathered
  | [] => g
  | d :: rest =>
    if g.digits * 10 + d ≤ greatestWord then addPlaces ⟨g.digits * 10 + d, g.power - 1⟩ rest
    else g

/-- The greatest power of ten that is a double. -/
def greatestPower : Nat := 308

/-- The double nearest to a power of ten. -/
def powerOfTen (k : Nat) : Float :=
  Float.ofScientific 1 false k

/-- Divides by a power of ten, in steps that are doubles themselves. -/
def divideByPower (x : Float) (k : Nat) : Float :=
  if k ≤ greatestPower then x / powerOfTen k
  else divideByPower (x / powerOfTen greatestPower) (k - greatestPower)
termination_by k
decreasing_by simp only [greatestPower] at *; omega

/-- The double that is read for the gathered digits, unless it is out of range. Three divisions
make a zero of every word, so a longer way down need not be gone. -/
def Gathered.toFloat? (g : Gathered) : Option Float :=
  let x := g.digits.toUInt64.toFloat
  if 0 ≤ g.power then
    if g.power.toNat ≤ greatestPower then
      let y := x * powerOfTen g.power.toNat
      if y.isInf then none else some y
    else if g.digits = 0 then some x else none
  else some (divideByPower x (min (-g.power).toNat (4 * greatestPower)))

/-- The number whose leading minus sign has been taken off. -/
def ofGathered (negative fractional : Bool) (front : List Nat) (g : Gathered) : Option Json :=
  let n : Nat := front.foldl (fun n d => n * 10 + d) 0
  if !fractional && !negative && n ≤ greatestWord then some (.whole n)
  else if !fractional && negative && 0 < n && n ≤ leastMagnitude then some (.whole (-(n : Int)))
  else g.toFloat?.map fun x => .fraction (if negative then -x else x)

/-- Reads the digits behind a point, if there is one. -/
def readPlaces (cs : List Char) : Option (List Nat × Bool × List Char) :=
  match cs with
  | '.' :: rest =>
    let (ds, after) := digitRun rest
    if ds.isEmpty then none else some (ds, true, after)
  | _ => some ([], false, cs)

/-- Takes off a minus sign; says whether there was one. -/
def takeMinus : List Char → Bool × List Char
  | '-' :: rest => (true, rest)
  | cs => (false, cs)

/-- Takes off a sign of either kind; says whether it was a minus sign. -/
def takeSign : List Char → Bool × List Char
  | '+' :: rest => (false, rest)
  | cs => takeMinus cs

/-- Reads an exponent, if there is one. -/
def readExponent (cs : List Char) : Option (Int × Bool × List Char) :=
  match cs with
  | c :: rest =>
    if c = 'e' ∨ c = 'E' then
      let (negative, rest) := takeSign rest
      let (ds, after) := digitRun rest
      let n : Nat := ds.foldl (fun n d => n * 10 + d) 0
      if ds.isEmpty then none else some (if negative then -(n : Int) else (n : Int), true, after)
    else some (0, false, cs)
  | [] => some (0, false, cs)

/-- Reads a number. No zero stands in front of another digit. -/
def readNumber (cs : List Char) : Option (Json × List Char) := do
  let (negative, cs) := takeMinus cs
  let (front, cs) := digitRun cs
  if front.isEmpty || (front.head? == some 0 && 1 < front.length) then none
  let (places, pointed, cs) ← readPlaces cs
  let (exponent, scaled, cs) ← readExponent cs
  let gathered := (Gathered.addWhole ⟨0, 0⟩ front).addPlaces places
  let value ← ofGathered negative (pointed || scaled) front
    ⟨gathered.digits, gathered.power + exponent⟩
  return (value, cs)

end JobSwarm.Json
