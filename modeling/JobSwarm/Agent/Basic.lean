import JobSwarm.Agent.Id
import JobSwarm.Agent.Status
import JobSwarm.Checked
import JobSwarm.Job.Id
import JobSwarm.Job.Progress

/-!
# Agents

An agent is a worker with one capability. It runs one task at a time and keeps count of how its
tasks ended.
-/

namespace JobSwarm

open Time (Instant)

namespace Agent

/-- What an agent has done so far (`AgentMetrics`). -/
structure Metrics where
  tasksCompleted : UInt64 := 0
  tasksFailed : UInt64 := 0
  tasksCancelled : UInt64 := 0
  /-- The time spent on tasks that completed or failed. -/
  totalDurationMs : UInt64 := 0
  /-- When the agent last came online. -/
  onlineSince : Instant

namespace Metrics

/-- How many tasks have a duration: those that completed and those that failed. -/
def timedTasks (metrics : Metrics) : Except Overflow UInt64 :=
  addWord metrics.tasksCompleted metrics.tasksFailed

/-- The mean of some durations, if there are any. -/
def mean (total count : UInt64) : Option Float :=
  if count = 0 then none else some (total.toFloat / count.toFloat)

/-- The mean duration of the tasks that have one (`avg_duration_ms`). -/
def averageMs (metrics : Metrics) : Except Overflow (Option Float) := do
  return mean metrics.totalDurationMs (← metrics.timedTasks)

def fieldNames : List String :=
  ["tasks_completed", "tasks_failed", "tasks_cancelled", "total_duration_ms", "online_since"]

def read : Json.Reads Metrics := fun value => do
  let fields ← Json.fields? fieldNames value
  return {
    tasksCompleted := ← Json.required Json.word? fields "tasks_completed"
    tasksFailed := ← Json.required Json.word? fields "tasks_failed"
    tasksCancelled := ← Json.required Json.word? fields "tasks_cancelled"
    totalDurationMs := ← Json.required Json.word? fields "total_duration_ms"
    onlineSince := ← Json.required Instant.read fields "online_since" }

def write (metrics : Metrics) : Json :=
  .object [("tasks_completed", .word metrics.tasksCompleted),
    ("tasks_failed", .word metrics.tasksFailed), ("tasks_cancelled", .word metrics.tasksCancelled),
    ("total_duration_ms", .word metrics.totalDurationMs),
    ("online_since", metrics.onlineSince.write)]

end Metrics

end Agent

/-- A worker for one capability. -/
structure Agent where
  id : Agent.Id
  tier : Agent.Tier
  capability : String
  status : Agent.Status
  /-- The job whose task the agent runs. -/
  currentTask : Option Job.Id := none
  metrics : Agent.Metrics
  /-- How many tasks have failed since the last that did not. -/
  failureStreak : UInt32 := 0
  degradedSince : Option Instant := none
  /-- The place in the catalog. -/
  ordinal : UInt64

namespace Agent

/-- An agent that has just been made (`new`). -/
def fresh (id : Id) (tier : Tier) (capability : String) (ordinal : UInt64) (now : Instant) :
    Agent where
  id := id
  tier := tier
  capability := capability
  status := .idle
  metrics := { onlineSince := now }
  ordinal := ordinal

/-- Nanoseconds since the agent came online; none while it is offline, or if the clock went back
(`uptime`). -/
def uptime (agent : Agent) (now : Instant) : Nat :=
  if agent.status = .offline then 0 else (now.since agent.metrics.onlineSince).toNat

def fieldNames : List String :=
  ["id", "tier", "capability", "status", "current_task", "metrics", "failure_streak",
    "degraded_since", "ordinal"]

def read : Json.Reads Agent := fun value => do
  let fields ← Json.fields? fieldNames value
  return {
    id := ← Json.required Id.read fields "id"
    tier := ← Json.required Tier.read fields "tier"
    capability := ← Json.required Json.text? fields "capability"
    status := ← Json.required Status.read fields "status"
    currentTask := ← Json.optional Job.Id.read fields "current_task"
    metrics := ← Json.required Metrics.read fields "metrics"
    failureStreak := ← Json.required Json.halfWord? fields "failure_streak"
    degradedSince := ← Json.optional Instant.read fields "degraded_since"
    ordinal := ← Json.required Json.word? fields "ordinal" }

def write (agent : Agent) : Json :=
  .object <|
    [("id", agent.id.write), ("tier", agent.tier.write), ("capability", .text agent.capability),
      ("status", agent.status.write)] ++
    Json.memberIf "current_task" (agent.currentTask.map Job.Id.write) ++
    [("metrics", agent.metrics.write), ("failure_streak", .whole agent.failureStreak.toNat)] ++
    Json.memberIf "degraded_since" (agent.degradedSince.map Instant.write) ++
    [("ordinal", .word agent.ordinal)]

end Agent

end JobSwarm
