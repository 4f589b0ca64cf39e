import JobSwarm.Json.Record

/-!
# Paths

A path is a row of bytes with its names between slashes. It is mostly spelled as a text, but nothing
asks its bytes to be one: JSON has no value for a path that is no text. Two spellings are one path
when they have the same components: doubled slashes, slashes at the end, and single dots, except one
in front, do not count.

Results:

* `Path.text?_eq_some_iff`: a path is one text, or none.
-/

namespace JobSwarm.Files

/-- A path as the operating system takes it. -/
structure Path where
  bytes : List UInt8
  deriving DecidableEq, Repr

namespace Path

/-- The path that a text spells. -/
def ofText (text : String) : Path :=
  ⟨text.toByteArray.data.toList⟩

instance : Coe String Path := ⟨ofText⟩

/-- The text of a path, unless its bytes are no UTF-8. -/
def text? (path : Path) : Option String :=
  String.fromUTF8? path.bytes.toByteArray

def isEmpty (path : Path) : Bool :=
  path.bytes.isEmpty

instance : Append Path := ⟨fun path ending => ⟨path.bytes ++ ending.bytes⟩⟩

def read : Json.Reads Path := fun value =>
  (Json.text? value).map ofText

/-- A path that is no text cannot be written. -/
def write (path : Path) : Option Json :=
  path.text?.map .text

@[simp] theorem text?_ofText (text : String) : (ofText text).text? = some text := by
  have bytes : text.toByteArray.data.toList.toByteArray = text.toByteArray :=
    ByteArray.ext (by rw [List.data_toByteArray, Array.toArray_toList])
  rw [text?, ofText, bytes, String.fromUTF8?, dif_pos text.isValidUTF8]
  rfl

/-- A path is one text, or none. -/
theorem text?_eq_some_iff {path : Path} {text : String} :
    path.text? = some text ↔ path = ofText text := by
  refine ⟨fun reads => ?_, fun same => same ▸ text?_ofText text⟩
  rw [text?, String.fromUTF8?] at reads
  split at reads
  · cases reads
    show path = ⟨path.bytes.toByteArray.data.toList⟩
    rw [List.data_toByteArray]
  · cases reads

end Path

/-- What stands between two names. -/
def slash : UInt8 := 0x2f

/-- The pieces of a row of bytes between its slashes; there is always one. -/
def splitSlashes : List UInt8 → List (List UInt8)
  | [] => [[]]
  | byte :: rest =>
    if byte = slash then [] :: splitSlashes rest
    else
      match splitSlashes rest with
      | [] => [[byte]]
      | piece :: pieces => (byte :: piece) :: pieces

/-- The pieces of a path between its slashes. -/
def pieces (path : Path) : List Path :=
  (splitSlashes path.bytes).map Path.mk

/-- Whether a path starts at the root. -/
def isAbsolute (path : Path) : Bool :=
  path.bytes.head? == some slash

/-- The names of a path, without those that lead nowhere. -/
def names (path : Path) : List Path :=
  (pieces path).filter fun piece => piece != "" && piece != "."

/-- The components of a path: the root, or a dot in front, and then its names. -/
def components (path : Path) : List Path :=
  if isAbsolute path then ↑"/" :: names path
  else if (pieces path).head? == some "." then ↑"." :: names path
  else names path

/-- Whether two spellings are one path. -/
def samePath (a b : Path) : Bool :=
  components a == components b

end JobSwarm.Files
