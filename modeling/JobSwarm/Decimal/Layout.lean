import JobSwarm.Decimal.Shortest

/-!
# Texts of doubles

Three texts are in use: `plain`, which never has an exponent and no point for a whole number;
`onePlace`, with one digit after the point; and `numeral`, which is always seen to be a fraction
or an exponent and so can be told from a whole number.
-/

namespace JobSwarm.Decimal

/-- `count` zeros. -/
def zeros (count : Nat) : String :=
  String.ofList (List.replicate count '0')

/-- A minus sign in front of a negative number, zero included. -/
def signed (negative : Bool) (text : String) : String :=
  if negative then "-" ++ text else text

/-- The digits with the point put in, however many zeros that takes. -/
def Scaled.positional (s : Scaled) : String :=
  let digits := toString s.digits
  if 0 ≤ s.exponent then digits ++ zeros s.exponent.toNat
  else
    let places := (-s.exponent).toNat
    if digits.length ≤ places then "0." ++ zeros (places - digits.length) ++ digits
    else
      let cs := digits.toList
      String.ofList (cs.take (cs.length - places)) ++ "." ++
        String.ofList (cs.drop (cs.length - places))

/-- The shortest digits that read back, always positional: `75`, `0.0000001`, `-0`. -/
def plain (x : Float) : String :=
  match Reading.ofFloat x with
  | .nan => "NaN"
  | .infinite negative => signed negative "inf"
  | .finite value =>
    let s := shortest value
    signed value.negative (if s.digits = 0 then "0" else s.positional)

/-- A quotient rounded to the nearest whole number, a half to the even neighbour. -/
def roundHalfEven (num den : Nat) : Nat :=
  let quotient := num / den
  let rest := num % den
  if 2 * rest < den then quotient
  else if den < 2 * rest then quotient + 1
  else if quotient % 2 = 0 then quotient else quotient + 1

/-- The exact value rounded to one place after the point: `12.5`, `0.2` for a quarter, `-0.0`. -/
def onePlace (x : Float) : String :=
  match Reading.ofFloat x with
  | .nan => "NaN"
  | .infinite negative => signed negative "inf"
  | .finite value =>
    let tenths := value.fraction (-1)
    let n := roundHalfEven tenths.1 tenths.2
    signed value.negative (toString (n / 10) ++ "." ++ toString (n % 10))

/-- The shortest digits that read back, with a point or an exponent: `75.0`, `1e21`, `5.4e-18`.
Positional from `1e-5` up to, but not including, `1e16`. -/
def Scaled.numeral (s : Scaled) : String :=
  let digits := toString s.digits
  let place := s.exponent + digits.length
  if s.digits = 0 then "0.0"
  else if -5 < place ∧ place ≤ 16 then
    if 0 ≤ s.exponent then s.positional ++ ".0" else s.positional
  else
    let cs := digits.toList
    let fraction := if cs.length = 1 then "" else "." ++ String.ofList (cs.drop 1)
    String.ofList (cs.take 1) ++ fraction ++ "e" ++ toString (place - 1)

/-- The numeral of a finite double, nothing for the others. -/
def numeral? (x : Float) : Option String :=
  match Reading.ofFloat x with
  | .finite value => some (signed value.negative (shortest value).numeral)
  | _ => none

end JobSwarm.Decimal
