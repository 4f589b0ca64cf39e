import JobSwarm.Coordinator.Config
import JobSwarm.Job.Basic
import JobSwarm.Queue.Stats
import JobSwarm.Swarm.Health

/-!
# The standards

What holds where nothing else is said: the standard of every setting, of every choice and of every
record that may be empty, by name.
-/

namespace JobSwarm.Coordinator

/-- The least level, the standard one and the greatest. -/
def levels : Json :=
  .list ([Job.minLevel, Job.standardLevel, Job.maxLevel].map fun level => .whole level.toNat)

/-- The standards by name. -/
def standards : Json.Members :=
  [("catalog", .list (Agent.standardCatalog.map Agent.Definition.write)),
    ("queue_config", Queue.Config.write default),
    ("swarm_config", Swarm.Config.write default),
    ("event_config", Emitter.Config.write default),
    ("coordinator_config", Config.write default),
    ("levels", levels),
    ("priority", Priority.write default),
    ("status", Job.Status.write default),
    ("kind", Job.Kind.write default),
    ("tier", Agent.Tier.write default),
    ("agent_status", Agent.Status.write default),
    ("health_level", Swarm.Level.write default),
    ("progress", Job.Progress.write {}),
    ("stats", Queue.Stats.write {}),
    ("health", Swarm.Health.write {})]

end JobSwarm.Coordinator
