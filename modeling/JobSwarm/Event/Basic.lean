import JobSwarm.Decimal.Layout
import JobSwarm.Event.Topic
import JobSwarm.Job.Basic
import JobSwarm.Swarm.Health

/-!
# Events

A notice says what happened; an event is a notice with its number and its time.
-/

namespace JobSwarm

open Time (Instant)

namespace Event

/-- What happened (`EventKind`). -/
inductive Notice where
  | jobQueued (job : Job)
  | jobStarted (jobId : Job.Id) (agentId : Agent.Id)
  | progressUpdated (jobId : Job.Id) (progress : Job.Progress)
  | jobPaused (jobId : Job.Id)
  | jobResumed (jobId : Job.Id)
  | jobCompleted (jobId : Job.Id) (durationMs : UInt64) (bytesProcessed : UInt64)
  | jobFailed (jobId : Job.Id) (error : String)
  | jobCancelled (jobId : Job.Id)
  | agentStatusChanged (agentId : Agent.Id) (old new : Agent.Status)
  | swarmHealthChanged (health : Swarm.Health)

namespace Notice

/-- What the notice is about (`event_type`). -/
def topic : Notice → Topic
  | .jobQueued .. => .jobQueued
  | .jobStarted .. => .jobStarted
  | .progressUpdated .. => .progressUpdated
  | .jobPaused .. => .jobPaused
  | .jobResumed .. => .jobResumed
  | .jobCompleted .. => .jobCompleted
  | .jobFailed .. => .jobFailed
  | .jobCancelled .. => .jobCancelled
  | .agentStatusChanged .. => .agentStatusChanged
  | .swarmHealthChanged .. => .swarmHealthChanged

/-- The job that the notice is about (`job_id`). -/
def jobId? : Notice → Option Job.Id
  | .jobQueued job => some job.id
  | .jobStarted id _ | .progressUpdated id _ | .jobPaused id | .jobResumed id
  | .jobCompleted id _ _ | .jobFailed id _ | .jobCancelled id => some id
  | .agentStatusChanged .. | .swarmHealthChanged .. => none

/-- The agent that the notice is about (`agent_id`). -/
def agentId? : Notice → Option Agent.Id
  | .jobStarted _ id | .agentStatusChanged id _ _ => some id
  | _ => none

/-- Whether the notice is the last about its job (`is_terminal`). -/
def isTerminal : Notice → Bool
  | .jobCompleted .. | .jobFailed .. | .jobCancelled .. => true
  | _ => false

/-- One line for a log (`description`). -/
def description : Notice → String
  | .jobQueued job =>
    "Job " ++ job.id.toText ++ " queued (" ++ job.config.kind.name ++ ", " ++ job.priority.name ++
      ")"
  | .jobStarted jobId agentId => "Job " ++ jobId.toText ++ " started on " ++ agentId.text
  | .progressUpdated jobId progress =>
    "Job " ++ jobId.toText ++ " at " ++ Decimal.onePlace progress.percent ++ "%"
  | .jobPaused jobId => "Job " ++ jobId.toText ++ " paused"
  | .jobResumed jobId => "Job " ++ jobId.toText ++ " resumed"
  | .jobCompleted jobId duration _ =>
    "Job " ++ jobId.toText ++ " completed in " ++ toString duration.toNat ++ "ms"
  | .jobFailed jobId error => "Job " ++ jobId.toText ++ " failed: " ++ error
  | .jobCancelled jobId => "Job " ++ jobId.toText ++ " cancelled"
  | .agentStatusChanged agentId old new =>
    "Agent " ++ agentId.text ++ " " ++ old.name ++ " -> " ++ new.name
  | .swarmHealthChanged health =>
    "Swarm " ++ health.level.name ++ " (" ++ toString health.idle.toNat ++ "/" ++
      toString health.total.toNat ++ " idle)"

end Notice

end Event

/-- A notice as it is delivered (`CompressionEvent`). -/
structure Event where
  /-- The number of the event; the first of an emitter is 1. -/
  sequence : UInt64
  timestamp : Instant
  notice : Event.Notice

end JobSwarm
