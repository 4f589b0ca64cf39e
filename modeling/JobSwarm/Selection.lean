import JobSwarm.Agent.Basic

/-!
# Choosing an agent

Among the idle agents with a capability the cheapest is chosen, then the one that has completed the
fewest tasks, then the first of the catalog. Only if there is none, and if that is allowed, a
degraded agent is chosen in the same way. Busy and offline agents are never chosen.
-/

namespace JobSwarm

/-- What has to be known about an agent to choose it. -/
structure Candidate where
  id : Agent.Id
  tier : Agent.Tier
  capability : String
  status : Agent.Status
  tasksCompleted : UInt64
  ordinal : UInt64
  deriving DecidableEq, Repr

namespace Candidate

def ofAgent (agent : Agent) : Candidate where
  id := agent.id
  tier := agent.tier
  capability := agent.capability
  status := agent.status
  tasksCompleted := agent.metrics.tasksCompleted
  ordinal := agent.ordinal

def read : Json.Reads Candidate := fun value => do
  let members ← Json.members? value
  return {
    id := ← Json.required Agent.Id.read members "id"
    tier := ← Json.required Agent.Tier.read members "tier"
    capability := ← Json.required Json.text? members "capability"
    status := ← Json.required Agent.Status.read members "status"
    tasksCompleted := ← Json.required Json.word? members "tasks_completed"
    ordinal := ← Json.required Json.word? members "ordinal" }

/-- Whether `a` is to be preferred to `b`: by tier, then by completed tasks, then by place. -/
def beats (a b : Candidate) : Bool :=
  a.tier < b.tier ||
    (a.tier == b.tier &&
      (a.tasksCompleted < b.tasksCompleted ||
        (a.tasksCompleted == b.tasksCompleted && a.ordinal < b.ordinal)))

/-- The candidate that no other beats; of equals, the first. -/
def best? : List Candidate → Option Candidate
  | [] => none
  | c :: rest => some (rest.foldl (fun best next => if next.beats best then next else best) c)

end Candidate

/-- Whether degraded agents may be chosen (`FallbackPolicy`). -/
inductive Fallback where
  | idleOnly
  | allowDegraded
  deriving DecidableEq, Repr

def Fallback.ofFlag (allowed : Bool) : Fallback :=
  if allowed then .allowDegraded else .idleOnly

/-- A chosen agent, and whether it was idle or a degraded one for want of another. -/
inductive Selection where
  | idle (id : Agent.Id)
  | degraded (id : Agent.Id)
  deriving DecidableEq, Repr

namespace Selection

def agentId : Selection → Agent.Id
  | .idle id | .degraded id => id

/-- The candidates with a capability that stand in a status. -/
def eligible (capability : String) (status : Agent.Status) (cs : List Candidate) :
    List Candidate :=
  cs.filter fun c => c.capability == capability && c.status == status

/-- Chooses an agent for a capability (`select_agent`). -/
def choose (capability : String) (cs : List Candidate) (fallback : Fallback) : Option Selection :=
  match Candidate.best? (eligible capability .idle cs) with
  | some c => some (.idle c.id)
  | none =>
    match fallback with
    | .idleOnly => none
    | .allowDegraded =>
      (Candidate.best? (eligible capability .degraded cs)).map fun c => .degraded c.id

end Selection

end JobSwarm
