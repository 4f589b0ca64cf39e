import JobSwarm.Agent.Basic
import JobSwarm.Swarm.Config

/-!
# The health of a swarm

A summary of all agents: how many stand in each status, how long tasks take, and how healthy that
makes the swarm.
-/

namespace JobSwarm.Swarm

/-- A summary of a swarm (`SwarmHealth`). -/
structure Health where
  total : UInt64 := 0
  idle : UInt64 := 0
  busy : UInt64 := 0
  degraded : UInt64 := 0
  offline : UInt64 := 0
  idleFraction : Float := 0
  busyFraction : Float := 0
  degradedFraction : Float := 0
  offlineFraction : Float := 0
  /-- The mean duration of tasks, over all agents. -/
  avgTaskDurationMs : Option Float := none
  level : Level := .healthy

namespace Health

/-- How many agents stand in a status. -/
def count (agents : List Agent) (status : Agent.Status) : UInt64 :=
  .ofNat (agents.countP fun agent => agent.status = status)

/-- A share of a total; of nothing, nothing. -/
def share (part total : UInt64) : Float :=
  if total = 0 then 0 else part.toFloat / total.toFloat

/-- Adds the time and the tasks of an agent to those of others. -/
def addWork (sum : UInt64 × UInt64) (agent : Agent) : Except Overflow (UInt64 × UInt64) := do
  let duration ← addWord sum.1 agent.metrics.totalDurationMs
  let tasks ← addWord sum.2 (← agent.metrics.timedTasks)
  return (duration, tasks)

/-- The share of agents that work: the idle and the busy. An empty swarm has none. -/
def operational (idle busy total : UInt64) : Float :=
  if total = 0 then 0 else share idle total + share busy total

/-- The summary of some agents, unless their times or tasks overflow when added up (`from_agents`).
-/
def ofAgents (config : Config) (agents : List Agent) : Except Overflow Health := do
  let work ← agents.foldlM addWork (0, 0)
  let total : UInt64 := .ofNat agents.length
  let idle := count agents .idle
  let busy := count agents .busy
  let degraded := count agents .degraded
  let offline := count agents .offline
  return {
    total := total
    idle := idle
    busy := busy
    degraded := degraded
    offline := offline
    idleFraction := share idle total
    busyFraction := share busy total
    degradedFraction := share degraded total
    offlineFraction := share offline total
    avgTaskDurationMs := Agent.Metrics.mean work.1 work.2
    level := config.level (operational idle busy total) }

def fieldNames : List String :=
  ["total", "idle", "busy", "degraded", "offline", "idle_fraction", "busy_fraction",
    "degraded_fraction", "offline_fraction", "avg_task_duration_ms", "level"]

def read : Json.Reads Health := fun value => do
  let fields ← Json.fields? fieldNames value
  return {
    total := ← Json.required Json.word? fields "total"
    idle := ← Json.required Json.word? fields "idle"
    busy := ← Json.required Json.word? fields "busy"
    degraded := ← Json.required Json.word? fields "degraded"
    offline := ← Json.required Json.word? fields "offline"
    idleFraction := ← Json.required Json.number? fields "idle_fraction"
    busyFraction := ← Json.required Json.number? fields "busy_fraction"
    degradedFraction := ← Json.required Json.number? fields "degraded_fraction"
    offlineFraction := ← Json.required Json.number? fields "offline_fraction"
    avgTaskDurationMs := ← Json.optional Json.number? fields "avg_task_duration_ms"
    level := ← Json.required Level.read fields "level" }

def write (health : Health) : Json :=
  .object [("total", .word health.total), ("idle", .word health.idle), ("busy", .word health.busy),
    ("degraded", .word health.degraded), ("offline", .word health.offline),
    ("idle_fraction", .number health.idleFraction),
    ("busy_fraction", .number health.busyFraction),
    ("degraded_fraction", .number health.degradedFraction),
    ("offline_fraction", .number health.offlineFraction),
    ("avg_task_duration_ms", Json.orNull (health.avgTaskDurationMs.map Json.number)),
    ("level", health.level.write)]

end Health

end JobSwarm.Swarm
