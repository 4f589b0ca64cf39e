import JobSwarm.Json.Record
import JobSwarm.Proofs.Json.Text

/-!
# Fields read back

A record is written field by field, those without a value left out. What is read under a name is
what was written under it, and names come in the order of the fields, so none comes twice.

Results:

* `required_of_get?`, `optional_of_get?`: a field is read as it was written, or is missing.
* `legible_object`: an object of legible fields in order is legible.
-/

namespace JobSwarm.Json

/-! ## Lookup -/

namespace Members

variable (a b : Members) (name key : String)

@[simp]
theorem get?_nil : get? [] name = none :=
  rfl

@[simp]
theorem get?_cons (value : Json) :
    get? ((key, value) :: a) name = if name = key then some value else a.get? name := by
  by_cases h : name = key <;> simp [get?, List.lookup_cons, h, beq_eq_false_iff_ne.2]

@[simp]
theorem get?_append : get? (a ++ b) name = (a.get? name).or (b.get? name) := by
  induction a with
  | nil => rfl
  | cons member a ih =>
    obtain ⟨key, value⟩ := member
    rw [List.cons_append, get?_cons, get?_cons, ih]
    split <;> rfl

@[simp]
theorem get?_memberIf (value : Option Json) :
    (memberIf key value).get? name = if name = key then value else none := by
  cases value <;> simp [memberIf]

@[simp]
theorem get?_ite (c : Prop) [Decidable c] :
    get? (if c then a else b) name = if c then a.get? name else b.get? name :=
  apply_ite (fun members => get? members name) c a b

end Members

/-! ## Reading fields -/

section

variable {α : Type} {read : Reads α} {write : α → Json} {members : Members} {name : String}

/-- The fields of an object are its members. -/
theorem fields?_bind (names : List String) (members : Members) (next : Members → Option α) :
    (fields? names (.object members) >>= next) = next members :=
  rfl

theorem required_of_get? {value : Json} {a : α} (h : members.get? name = some value)
    (reads : read value = some a) : required read members name = some a := by
  rw [required, h, Option.bind_some, reads]

theorem defaulted_of_get? {value : Json} {standard a : α} (h : members.get? name = some value)
    (reads : read value = some a) : defaulted read standard members name = some a := by
  rw [defaulted, h]
  exact reads

/-- A field that is left out when it has its standard. -/
theorem defaulted_of_ite {c : Prop} [Decidable c] {value : Json} {standard a : α}
    (h : members.get? name = if c then none else some value) (absent : c → a = standard)
    (reads : read value = some a) : defaulted read standard members name = some a := by
  rw [defaulted, h]
  by_cases hc : c
  · rw [if_pos hc, absent hc]
  · rw [if_neg hc]
    exact reads

/-- A field that is left out when it has no value, or `null` then. -/
theorem optional_of_get? (value : Option α)
    (h : members.get? name = value.map write ∨ members.get? name = some (orNull (value.map write)))
    (reads : ∀ a ∈ value, read (write a) = some a) (present : ∀ a ∈ value, write a ≠ .null) :
    optional read members name = some value := by
  cases value with
  | none => rcases h with h | h <;> (rw [optional, h]; rfl)
  | some a =>
    have written : members.get? name = some (write a) := by
      rcases h with h | h <;> exact h
    rw [optional, written]
    split
    · next missing => cases missing
    · next null => exact absurd (Option.some.inj null) (present a rfl)
    · next other => cases other; rw [reads a rfl]; rfl

end

theorem text?_text (value : String) : text? (.text value) = some value :=
  rfl

theorem flag?_bool (value : Bool) : flag? (.bool value) = some value :=
  rfl

theorem members?_object (members : Members) : members? (.object members) = some members :=
  rfl

theorem number?_number {x : Float} (finite : x.isFinite = true) : number? (number x) = some x := by
  rw [number, if_pos finite]
  rfl

theorem number_ne_null {x : Float} (finite : x.isFinite = true) : number x ≠ .null := by
  rw [number, if_pos finite]
  exact nofun

theorem byte?_whole (value : UInt8) : byte? (.whole value.toNat) = some value := by
  have h := value.toNat_lt
  simp only [byte?, below?, UInt8.size]
  rw [if_pos ⟨Int.natCast_nonneg _, by omega⟩]
  simp

theorem halfWord?_whole (value : UInt32) : halfWord? (.whole value.toNat) = some value := by
  have h := value.toNat_lt
  simp only [halfWord?, below?, UInt32.size]
  rw [if_pos ⟨Int.natCast_nonneg _, by omega⟩]
  simp

/-! ## Legible fields -/

section

variable {fields others : List String} {members more : Members} {name : String}

/-- Whether members come in the order of some fields, each at most once. -/
def Ordered (fields : List String) (members : Members) : Prop :=
  (members.map Prod.fst).Sublist fields

theorem ordered_self (members : Members) : Ordered (members.map Prod.fst) members :=
  List.Sublist.refl _

theorem ordered_unless (c : Prop) [Decidable c] (name : String) (value : Json) :
    Ordered [name] (if c then [] else [(name, value)]) := by
  split
  · exact List.nil_sublist _
  · exact List.Sublist.refl _

theorem ordered_memberIf (name : String) (value : Option Json) :
    Ordered [name] (memberIf name value) := by
  cases value with
  | none => exact List.nil_sublist _
  | some value => exact List.Sublist.refl _

theorem Ordered.append (h : Ordered fields members) (h' : Ordered others more) :
    Ordered (fields ++ others) (members ++ more) := by
  rw [Ordered, List.map_append]
  exact List.Sublist.append h h'

/-- An object of legible fields in order is legible. -/
theorem legible_object (fields : List String) (ordered : Ordered fields members)
    (unique : fields.Nodup) (parts : LegibleMembers members) : Legible (.object members) :=
  ⟨ordered.nodup unique, parts⟩

@[simp]
theorem legibleMembers_cons (name : String) (value : Json) (more : Members) :
    LegibleMembers ((name, value) :: more) ↔ value.Legible ∧ LegibleMembers more :=
  Iff.rfl

@[simp]
theorem legibleMembers_append :
    LegibleMembers (members ++ more) ↔ LegibleMembers members ∧ LegibleMembers more := by
  simp only [legibleMembers_iff, List.forall_mem_append]

@[simp]
theorem legibleMembers_memberIf (name : String) (value : Option Json) :
    LegibleMembers (memberIf name value) ↔ ∀ v ∈ value, v.Legible := by
  cases value <;> simp [memberIf, legibleMembers_iff]

@[simp]
theorem legibleMembers_ite (c : Prop) [Decidable c] :
    LegibleMembers (if c then members else more) ↔
      if c then LegibleMembers members else LegibleMembers more :=
  Iff.of_eq (apply_ite LegibleMembers c members more)

@[simp]
theorem legible_text (value : String) : Legible (.text value) :=
  trivial

theorem legible_whole {n : Nat} (h : n ≤ greatestWord) : Legible (.whole n) :=
  ⟨by simp only [leastMagnitude]; omega, Int.ofNat_le.2 h⟩

@[simp]
theorem legible_word (value : UInt64) : Legible (word value) :=
  legible_whole (Nat.le_pred_of_lt value.toNat_lt)

theorem legible_number {x : Float} (h : ReadsBack x) : Legible (number x) := by
  rw [number]
  split
  · exact h
  · trivial

theorem legible_orNull_number {value : Option Float} (h : ∀ x ∈ value, ReadsBack x) :
    Legible (orNull (value.map number)) := by
  cases value with
  | none => trivial
  | some x => exact legible_number (h x rfl)

end

end JobSwarm.Json
