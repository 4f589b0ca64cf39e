import JobSwarm.Json.Record

/-!
# Priorities

Four ranks of urgency. Work of a higher rank is started first.
-/

namespace JobSwarm

inductive Priority where
  | low
  | normal
  | high
  | critical
  deriving DecidableEq, Repr

namespace Priority

/-- Work that names no priority is normal. -/
instance : Inhabited Priority := ⟨.normal⟩

/-- The place in the order, from 0 for the least urgent. -/
def rank : Priority → Nat
  | .low => 0
  | .normal => 1
  | .high => 2
  | .critical => 3

instance : LT Priority := ⟨fun a b => a.rank < b.rank⟩

instance (a b : Priority) : Decidable (a < b) :=
  inferInstanceAs (Decidable (a.rank < b.rank))

instance : Ord Priority := ⟨fun a b => compare a.rank b.rank⟩

def name : Priority → String
  | .low => "low"
  | .normal => "normal"
  | .high => "high"
  | .critical => "critical"

def ofName? : String → Option Priority
  | "low" => some .low
  | "normal" => some .normal
  | "high" => some .high
  | "critical" => some .critical
  | _ => none

/-- Reads the name of a priority; another text is handed back (`from_str`). -/
def parse (text : String) : Except String Priority :=
  match ofName? text with
  | some priority => .ok priority
  | none => .error text

/-- What is said of a text that names no priority. -/
def unknownMessage (text : String) : String :=
  "unknown priority '" ++ text ++ "'"

def read : Json.Reads Priority :=
  Json.choice ofName?

def write (priority : Priority) : Json :=
  .text priority.name

theorem ofName?_name (priority : Priority) : ofName? priority.name = some priority := by
  cases priority <;> rfl

theorem rank_injective {a b : Priority} (h : a.rank = b.rank) : a = b := by
  cases a <;> cases b <;> simp_all [rank]

end Priority

end JobSwarm
