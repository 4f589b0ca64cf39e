import JobSwarm.Json.Numeral

/-!
# JSON text, read

The reader takes a text with nothing but blanks around one value. Of two members with one name the
later counts. Lists and objects are nested up to a limit; the length of the text bounds the steps.
-/

namespace JobSwarm.Json

/-- Skips the blanks of JSON. -/
def skipBlanks (cs : List Char) : List Char :=
  cs.dropWhile fun c => c == ' ' || c == '\t' || c == '\n' || c == '\r'

/-- The value of a hexadecimal digit. -/
def hexDigit? (c : Char) : Option Nat :=
  if '0' ≤ c ∧ c ≤ '9' then some (c.toNat - '0'.toNat)
  else if 'a' ≤ c ∧ c ≤ 'f' then some (c.toNat - 'a'.toNat + 10)
  else if 'A' ≤ c ∧ c ≤ 'F' then some (c.toNat - 'A'.toNat + 10)
  else none

/-- Reads four hexadecimal digits. -/
def readQuad : List Char → Option (Nat × List Char)
  | a :: b :: c :: d :: rest => do
    let a ← hexDigit? a
    let b ← hexDigit? b
    let c ← hexDigit? c
    let d ← hexDigit? d
    return (((a * 16 + b) * 16 + c) * 16 + d, rest)
  | _ => none

/-- Reads the character of a `\u` escape: one code unit, or a pair of surrogates. -/
def readUnits (cs : List Char) : Option (Char × List Char) := do
  let (high, rest) ← readQuad cs
  if high < 0xd800 ∨ 0xe000 ≤ high then return (Char.ofNat high, rest)
  if 0xdc00 ≤ high then none
  match rest with
  | '\\' :: 'u' :: rest =>
    let (low, rest) ← readQuad rest
    if low < 0xdc00 ∨ 0xe000 ≤ low then none
    return (Char.ofNat (0x10000 + (high - 0xd800) * 0x400 + (low - 0xdc00)), rest)
  | _ => none

/-- Reads the character behind a backslash. -/
def readEscape : List Char → Option (Char × List Char)
  | '"' :: rest => some ('"', rest)
  | '\\' :: rest => some ('\\', rest)
  | '/' :: rest => some ('/', rest)
  | 'b' :: rest => some ('\x08', rest)
  | 'f' :: rest => some ('\x0c', rest)
  | 'n' :: rest => some ('\n', rest)
  | 'r' :: rest => some ('\r', rest)
  | 't' :: rest => some ('\t', rest)
  | 'u' :: rest => readUnits rest
  | _ => none

/-- Reads a text up to its closing quotation mark; `done` holds what is read, backwards. -/
def readText : Nat → List Char → List Char → Option (String × List Char)
  | 0, _, _ => none
  | _ + 1, _, [] => none
  | fuel + 1, done, c :: rest =>
    if c = '"' then some (String.ofList done.reverse, rest)
    else if c = '\\' then do
      let (c, rest) ← readEscape rest
      readText fuel (c :: done) rest
    else if c.toNat < 0x20 then none
    else readText fuel (c :: done) rest

/-- Reads a text whose opening quotation mark is still there. -/
def readQuoted : List Char → Option (String × List Char)
  | '"' :: rest => readText (rest.length + 1) [] rest
  | _ => none

/-- Takes a word off the text. -/
def expect (word : String) (cs : List Char) : Option (List Char) :=
  if word.toList.isPrefixOf cs then some (cs.drop word.length) else none

/-- How many lists and objects may be open at once. -/
def deepest : Nat := 127

mutual

/-- Reads a value; the first argument bounds the steps, the second the nesting. -/
def readValue : Nat → Nat → List Char → Option (Json × List Char)
  | 0, _, _ => none
  | fuel + 1, levels, cs =>
    match skipBlanks cs with
    | '"' :: rest => (readQuoted ('"' :: rest)).map fun (word, rest) => (.text word, rest)
    | '[' :: rest =>
      match levels, skipBlanks rest with
      | 0, _ => none
      | _ + 1, ']' :: rest => some (.list [], rest)
      | levels + 1, _ =>
        (readItems fuel levels [] rest).map fun (items, rest) => (.list items, rest)
    | '\x7b' :: rest =>
      match levels, skipBlanks rest with
      | 0, _ => none
      | _ + 1, '\x7d' :: rest => some (.object [], rest)
      | levels + 1, _ =>
        (readMembers fuel levels [] rest).map fun (members, rest) => (.object members, rest)
    | 'n' :: rest => (expect "ull" rest).map fun rest => (.null, rest)
    | 't' :: rest => (expect "rue" rest).map fun rest => (.bool true, rest)
    | 'f' :: rest => (expect "alse" rest).map fun rest => (.bool false, rest)
    | rest => readNumber rest

/-- Reads the items of a list up to its end; `done` holds them backwards. -/
def readItems : Nat → Nat → List Json → List Char → Option (List Json × List Char)
  | 0, _, _, _ => none
  | fuel + 1, levels, done, cs => do
    let (item, rest) ← readValue fuel levels cs
    match skipBlanks rest with
    | ',' :: rest => readItems fuel levels (item :: done) rest
    | ']' :: rest => some ((item :: done).reverse, rest)
    | _ => none

/-- Reads the members of an object up to its end. -/
def readMembers : Nat → Nat → Members → List Char → Option (Members × List Char)
  | 0, _, _, _ => none
  | fuel + 1, levels, done, cs => do
    let (name, rest) ← readQuoted (skipBlanks cs)
    match skipBlanks rest with
    | ':' :: rest =>
      let (value, rest) ← readValue fuel levels rest
      match skipBlanks rest with
      | ',' :: rest => readMembers fuel levels (done.set name value) rest
      | '\x7d' :: rest => some (done.set name value, rest)
      | _ => none
    | _ => none

end

/-- The value of a JSON text. -/
def parse? (text : String) : Option Json :=
  match readValue (text.length + 1) deepest text.toList with
  | some (value, rest) => if (skipBlanks rest).isEmpty then some value else none
  | none => none

end JobSwarm.Json
