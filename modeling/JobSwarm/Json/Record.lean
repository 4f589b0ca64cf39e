import JobSwarm.Json.Basic

/-!
# Records in JSON

A record is an object with its fields by name, or a list with its fields in order. Of a list,
fields at the end may be missing, but nothing may be left over; of an object, members that are no
fields are passed over. How a missing field is taken depends on the field: `required`, `defaulted`
or `optional`. A reading that does not succeed gives no reason.

Results:

* `word?_word`: a count of 64 bits reads back.
-/

namespace JobSwarm.Json

/-- How a value of a type is read. -/
abbrev Reads (α : Type) := Json → Option α

/-- The fields of a record whose fields are called `names`. -/
def fields? (names : List String) : Reads Members
  | .object members => some members
  | .list items => if items.length ≤ names.length then some (names.zip items) else none
  | _ => none

/-- A field that has to be there. -/
def required {α : Type} (read : Reads α) (members : Members) (name : String) : Option α :=
  (members.get? name).bind read

/-- A field with a value of its own when it is missing. -/
def defaulted {α : Type} (read : Reads α) (standard : α) (members : Members) (name : String) :
    Option α :=
  match members.get? name with
  | some value => read value
  | none => some standard

/-- A field that may be missing or `null`. -/
def optional {α : Type} (read : Reads α) (members : Members) (name : String) :
    Option (Option α) :=
  match members.get? name with
  | none | some .null => some none
  | some value => (read value).map some

/-! ## Reading plain values -/

def text? : Reads String
  | .text value => some value
  | _ => none

def flag? : Reads Bool
  | .bool value => some value
  | _ => none

/-- A whole number below `bound`. -/
def below? (bound : Nat) : Reads Nat
  | .whole value => if 0 ≤ value ∧ value < bound then some value.toNat else none
  | _ => none

/-- A count of 64 bits. -/
def word? (value : Json) : Option UInt64 :=
  (below? UInt64.size value).map UInt64.ofNat

/-- A count of 32 bits. -/
def halfWord? (value : Json) : Option UInt32 :=
  (below? UInt32.size value).map UInt32.ofNat

/-- A count of 8 bits. -/
def byte? (value : Json) : Option UInt8 :=
  (below? UInt8.size value).map UInt8.ofNat

/-- Any number, as the nearest double. -/
def number? : Reads Float
  | .fraction value => some value
  | .whole value => some (Float.ofInt value)
  | _ => none

/-- A list of values that are all read in one way. -/
def listOf {α : Type} (read : Reads α) : Reads (List α)
  | .list items => items.mapM read
  | _ => none

/-- The members of an object. -/
def members? : Reads Members
  | .object members => some members
  | _ => none

/-- One of a few names; also given as an object whose one member is the name, with `null`. -/
def choice {α : Type} (ofName? : String → Option α) : Reads α
  | .text name => ofName? name
  | .object [(name, .null)] => ofName? name
  | _ => none

/-! ## Writing -/

/-- A count. -/
def word (value : UInt64) : Json :=
  .whole value.toNat

/-- A number; JSON has none for a double that is no number. -/
def number (value : Float) : Json :=
  if value.isFinite then .fraction value else .null

/-- A value or `null`. -/
def orNull (value : Option Json) : Json :=
  value.getD .null

/-- A member that is only written when there is something to write. -/
def memberIf (name : String) (value : Option Json) : Members :=
  match value with
  | some value => [(name, value)]
  | none => []

theorem word?_word (value : UInt64) : word? (word value) = some value := by
  have h := value.toNat_lt
  simp only [word?, below?, word, UInt64.size]
  rw [if_pos ⟨Int.natCast_nonneg _, by omega⟩]
  simp

end JobSwarm.Json
