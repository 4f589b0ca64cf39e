import JobSwarm.Json.Record

/-!
# Agent identifiers

An agent is called after its entry in the catalog, with its number among the agents of that entry.
-/

namespace JobSwarm.Agent

/-- The identifier of an agent (`AgentId`). -/
structure Id where
  text : String
  deriving DecidableEq, Repr

namespace Id

/-- The identifier of one agent of a catalog entry: `name-number`. -/
def replica (name : String) (number : Nat) : Id :=
  ⟨name ++ "-" ++ toString number⟩

def read : Json.Reads Id
  | .text text => some ⟨text⟩
  | _ => none

def write (id : Id) : Json :=
  .text id.text

end Id

end JobSwarm.Agent
