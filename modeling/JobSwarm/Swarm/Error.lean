import JobSwarm.Agent.Id
import JobSwarm.Agent.Status

/-!
# What a swarm refuses
-/

namespace JobSwarm.Swarm

/-- What an agent was asked to do. -/
inductive Request where
  | release
  | goOffline
  | comeOnline
  | reset
  deriving DecidableEq, Repr

def Request.words : Request → String
  | .release => "release"
  | .goOffline => "go offline"
  | .comeOnline => "come online"
  | .reset => "reset"

/-- Why a swarm refuses a call (`SwarmError`). -/
inductive Error where
  | alreadyInitialized
  | agentNotFound (id : Agent.Id)
  | duplicateAgent (id : Agent.Id)
  | invalidState (id : Agent.Id) (status : Agent.Status) (request : Request)
  deriving DecidableEq, Repr

/-- The name by which programs know the error. -/
def Error.code : Error → String
  | .alreadyInitialized => "AlreadyInitialized"
  | .agentNotFound _ => "AgentNotFound"
  | .duplicateAgent _ => "DuplicateAgent"
  | .invalidState .. => "InvalidState"

def Error.message : Error → String
  | .alreadyInitialized => "swarm is already initialized"
  | .agentNotFound id => "agent not found: " ++ id.text
  | .duplicateAgent id => "agent " ++ id.text ++ " is defined more than once"
  | .invalidState id status request =>
    "agent " ++ id.text ++ " cannot " ++ request.words ++ " while " ++ status.name

end JobSwarm.Swarm
