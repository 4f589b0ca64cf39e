import JobSwarm.Text.Blank
import JobSwarm.Time.Instant

/-!
# Time stamps as text

Written, an instant is a date and a time in UTC with a `Z`, and with no fraction digits, three,
six or nine: the fewest that lose nothing. Years that are not four digits long carry a sign.

Read, a time stamp may carry any offset and any number of fraction digits, of which nine count.
Blanks may stand in front of each number, in front of each mark, and before the offset.
-/

namespace JobSwarm.Time

/-- A number with zeros in front, at least `width` digits long. -/
def padded (width n : Nat) : String :=
  let digits := toString n
  String.ofList (List.replicate (width - digits.length) '0') ++ digits

/-- A year: four digits, or a sign and at least four digits. -/
def yearText (year : Int) : String :=
  if 0 ≤ year ∧ year ≤ 9999 then padded 4 year.toNat
  else (if year < 0 then "-" else "+") ++ padded 4 year.natAbs

/-- The fraction of a second, with its point. -/
def fractionText (nanos : Nat) : String :=
  if nanos = 0 then ""
  else if nanos % 1000000 = 0 then "." ++ padded 3 (nanos / 1000000)
  else if nanos % 1000 = 0 then "." ++ padded 6 (nanos / 1000)
  else "." ++ padded 9 nanos

/-- The text of an instant: `2024-01-01T00:00:00.500Z`. A leap second is second 60. -/
def Instant.toText (i : Instant) : String :=
  let date := Date.ofDays (i.seconds / 86400)
  let second := i.secondOfDay.toNat
  let leap := i.nanos / perSecond
  yearText date.year ++ "-" ++ padded 2 date.month ++ "-" ++ padded 2 date.day ++ "T" ++
    padded 2 (second / 3600) ++ ":" ++ padded 2 (second / 60 % 60) ++ ":" ++
    padded 2 (second % 60 + leap) ++ fractionText (i.nanos % perSecond) ++ "Z"

namespace Stamp

/-- The value of a decimal digit. -/
def digit? (c : Char) : Option Nat :=
  if '0' ≤ c ∧ c ≤ '9' then some (c.toNat - '0'.toNat) else none

/-- Reads digits, at most `most` of them; `n` is what was read before. -/
def readDigits : Nat → Nat → List Char → Nat × List Char
  | most + 1, n, c :: rest =>
    match digit? c with
    | some d => readDigits most (n * 10 + d) rest
    | none => (n, c :: rest)
  | _, n, cs => (n, cs)

/-- Reads a number of one to `most` digits. -/
def readNumber (most : Nat) (cs : List Char) : Option (Nat × List Char) :=
  let (n, rest) := readDigits most 0 cs
  if rest.length = cs.length then none else some (n, rest)

/-- Reads a number behind blanks. -/
def readField (most : Nat) (cs : List Char) : Option (Nat × List Char) :=
  readNumber most (Text.dropBlank cs)

/-- Reads a year: up to four digits, or a sign and any number of digits. -/
def readYear (cs : List Char) : Option (Int × List Char) :=
  match Text.dropBlank cs with
  | '-' :: rest => (readNumber rest.length rest).map fun (n, rest) => (-(n : Int), rest)
  | '+' :: rest => (readNumber rest.length rest).map fun (n, rest) => ((n : Int), rest)
  | rest => (readNumber 4 rest).map fun (n, rest) => ((n : Int), rest)

/-- Reads a mark behind blanks. -/
def readMark (mark : Char) (cs : List Char) : Option (List Char) :=
  match Text.dropBlank cs with
  | c :: rest => if c = mark then some rest else none
  | [] => none

/-- Reads a fraction of a second, in nanoseconds; digits after the ninth are passed over. -/
def readFraction (cs : List Char) : Option (Nat × List Char) :=
  match cs with
  | '.' :: rest => do
    let (n, after) ← readNumber 9 rest
    let used := rest.length - after.length
    return (n * Nat.pow 10 (9 - used), after.dropWhile fun c => (digit? c).isSome)
  | _ => some (0, cs)

/-- Two digits of an offset. -/
def readPair (tens : Nat) : List Char → Option (Nat × List Char)
  | a :: b :: rest => do
    let a ← digit? a
    let b ← digit? b
    if a < tens then some (a * 10 + b, rest) else none
  | _ => none

/-- Reads an offset from UTC in seconds: `Z`, `UTC`, or a sign, hours and minutes. -/
def readOffset (cs : List Char) : Option (Int × List Char) :=
  match cs with
  | 'Z' :: rest | 'z' :: rest => some (0, rest)
  | a :: b :: c :: rest =>
    if (String.ofList [a, b, c]).toUpper = "UTC" then some (0, rest)
    else do
      let negative ←
        if a = '+' then some false else if a = '-' ∨ a = '\u2212' then some true else none
      let (hours, rest) ← readPair 10 (b :: c :: rest)
      let (minutes, rest) ← readPair 6 (rest.dropWhile fun c => c == ':' || Text.isBlank c)
      let seconds : Int := hours * 3600 + minutes * 60
      return (if negative then -seconds else seconds, rest)
  | _ => none

/-- Takes off the mark between date and time. -/
def readDivider : List Char → Option (List Char)
  | c :: rest => if c = 't' ∨ c = 'T' ∨ c = ' ' then some rest else none
  | [] => none

/-- The instant of a date, a time of day and an offset, if each is possible and the instant is in
range. Second 60 is the leap second after second 59. -/
def instant? (date : Date) (hour minute second nanos : Nat) (offset : Int) : Option Instant := do
  if ¬date.Exists ∨ 24 ≤ hour ∨ 60 ≤ minute ∨ 61 ≤ second ∨ 86400 ≤ offset.natAbs then none
  let leap := if second = 60 then 1 else 0
  let ofDay : Int := hour * 3600 + minute * 60 + (second - leap : Nat)
  let localSeconds := date.toDays * 86400 + ofDay
  if localSeconds < firstSecond ∨ lastSecond < localSeconds then none
  let seconds := localSeconds - offset
  if h : (firstSecond ≤ seconds ∧ seconds ≤ lastSecond) ∧ nanos + leap * perSecond < 2 * perSecond
  then some ⟨seconds, nanos + leap * perSecond, h.1.1, h.1.2, h.2⟩
  else none

end Stamp

open Stamp in
/-- The instant that a time stamp names. -/
def Instant.ofText? (text : String) : Option Instant := do
  let (year, cs) ← readYear text.toList
  let cs ← readMark '-' cs
  let (month, cs) ← readField 2 cs
  let cs ← readMark '-' cs
  let (day, cs) ← readField 2 cs
  let cs ← readDivider cs
  let (hour, cs) ← readField 2 cs
  let cs ← readMark ':' cs
  let (minute, cs) ← readField 2 cs
  let cs ← readMark ':' cs
  let (second, cs) ← readField 2 cs
  let (nanos, cs) ← readFraction cs
  let (offset, cs) ← readOffset (Text.dropBlank cs)
  if cs.isEmpty then instant? ⟨year, month, day⟩ hour minute second nanos offset else none

end JobSwarm.Time
