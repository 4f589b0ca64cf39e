import JobSwarm.Decimal.Layout
import JobSwarm.Json.Basic

/-!
# JSON text, written

A fraction is written with the fewest digits that read back, and always as a fraction. JSON has no
text for the doubles that are no numbers: they are written `null`.
-/

namespace JobSwarm.Json

/-- Four hexadecimal digits. -/
def hexQuad (n : Nat) : String :=
  String.ofList ([n / 4096, n / 256, n / 16, n].map fun d => Nat.digitChar (d % 16))

/-- A character inside a JSON text. -/
def escape (c : Char) : String :=
  if c = '"' then "\\\""
  else if c = '\\' then "\\\\"
  else if c = '\x08' then "\\b"
  else if c = '\x0c' then "\\f"
  else if c = '\n' then "\\n"
  else if c = '\r' then "\\r"
  else if c = '\t' then "\\t"
  else if c.toNat < 0x20 then "\\u" ++ hexQuad c.toNat
  else c.toString

/-- A text in quotation marks. -/
def quote (text : String) : String :=
  "\"" ++ String.join (text.toList.map escape) ++ "\""

/-- Texts with a comma between any two. -/
def commaSeparated (texts : List String) : String :=
  ",".intercalate texts

mutual

/-- The text of a value, without blanks. -/
def render : Json → String
  | .null => "null"
  | .bool value => if value then "true" else "false"
  | .whole value => toString value
  | .fraction value => (Decimal.numeral? value).getD "null"
  | .text value => quote value
  | .list items => "[" ++ commaSeparated (renderItems items) ++ "]"
  | .object members => "\x7b" ++ commaSeparated (renderMembers members) ++ "\x7d"

def renderItems : List Json → List String
  | [] => []
  | item :: rest => render item :: renderItems rest

def renderMembers : List (String × Json) → List String
  | [] => []
  | (name, value) :: rest => (quote name ++ ":" ++ render value) :: renderMembers rest

end

end JobSwarm.Json
