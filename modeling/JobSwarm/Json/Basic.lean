/-!
# JSON values

Whole numbers and fractions are kept apart, because a field that counts something takes only the
former: `4` is a count, `4.0` is not.

Results:

* `Members.get?_set`: what a member is after a write.
-/

namespace JobSwarm

/-- A JSON value. A `whole` number lies between `-2 ^ 63` and `2 ^ 64 - 1`. -/
inductive Json where
  | null
  | bool (value : Bool)
  | whole (value : Int)
  | fraction (value : Float)
  | text (value : String)
  | list (items : List Json)
  | object (members : List (String × Json))

namespace Json

instance : Inhabited Json := ⟨.null⟩

/-- The members of an object, each name once, in the order in which the names first came. -/
abbrev Members := List (String × Json)

namespace Members

/-- The member called `name`. -/
def get? (members : Members) (name : String) : Option Json :=
  members.lookup name

/-- Writes a member: in its old place, or at the end when it is new. -/
def set (members : Members) (name : String) (value : Json) : Members :=
  match members with
  | [] => [(name, value)]
  | (other, old) :: rest =>
    if name == other then (name, value) :: rest else (other, old) :: set rest name value

/-- Removes a member. -/
def erase (members : Members) (name : String) : Members :=
  members.filter fun member => !(name == member.1)

theorem get?_set (members : Members) (name other : String) (value : Json) :
    (members.set name value).get? other =
      if other = name then some value else members.get? other := by
  induction members with
  | nil =>
    by_cases h : other = name <;>
      simp [set, get?, List.lookup_cons, h, beq_eq_false_iff_ne.2]
  | cons member rest ih =>
    obtain ⟨key, old⟩ := member
    simp only [get?] at ih ⊢
    by_cases hk : name = key
    · subst hk
      by_cases ho : other = name <;> simp [set, List.lookup_cons, ho, beq_eq_false_iff_ne.2]
    · rw [set, if_neg (by simpa using hk)]
      by_cases ho : other = key
      · subst ho
        simp [Ne.symm hk]
      · simp only [List.lookup_cons, beq_eq_false_iff_ne.2 ho, ih]

end Members

/-- The member called `name` of an object; `null` when there is none, or no object. -/
def member (value : Json) (name : String) : Json :=
  match value with
  | .object members => (Members.get? members name).getD .null
  | _ => .null

end Json

end JobSwarm
