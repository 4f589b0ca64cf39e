/-!
# Blank characters

The white space of the Unicode character database, as the ranges of the property `White_Space`.
-/

namespace JobSwarm.Text

/-- The property `White_Space`: 25 characters in ten ranges. -/
def blankRanges : List (Nat × Nat) :=
  [(0x9, 0xd), (0x20, 0x20), (0x85, 0x85), (0xa0, 0xa0), (0x1680, 0x1680), (0x2000, 0x200a),
    (0x2028, 0x2029), (0x202f, 0x202f), (0x205f, 0x205f), (0x3000, 0x3000)]

/-- Whether a character is white space anywhere in Unicode. -/
def isBlank (c : Char) : Bool :=
  blankRanges.any fun range => range.1 ≤ c.toNat && c.toNat ≤ range.2

/-- Whether a text holds nothing but white space; the empty text does. -/
def allBlank (text : String) : Bool :=
  text.toList.all isBlank

/-- The characters after the leading white space. -/
def dropBlank (cs : List Char) : List Char :=
  cs.dropWhile isBlank

example : (blankRanges.map fun range => range.2 + 1 - range.1).sum = 25 := by decide

end JobSwarm.Text
