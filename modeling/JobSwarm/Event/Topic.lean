import JobSwarm.Json.Record

/-!
# Topics of events
-/

namespace JobSwarm.Event

/-- What an event is about (`EventType`). -/
inductive Topic where
  | jobQueued
  | jobStarted
  | progressUpdated
  | jobPaused
  | jobResumed
  | jobCompleted
  | jobFailed
  | jobCancelled
  | agentStatusChanged
  | swarmHealthChanged
  deriving DecidableEq, Repr

namespace Topic

/-- All topics, in the order of their numbers. -/
def all : List Topic :=
  [.jobQueued, .jobStarted, .progressUpdated, .jobPaused, .jobResumed, .jobCompleted, .jobFailed,
    .jobCancelled, .agentStatusChanged, .swarmHealthChanged]

def name : Topic → String
  | .jobQueued => "job_queued"
  | .jobStarted => "job_started"
  | .progressUpdated => "progress_updated"
  | .jobPaused => "job_paused"
  | .jobResumed => "job_resumed"
  | .jobCompleted => "job_completed"
  | .jobFailed => "job_failed"
  | .jobCancelled => "job_cancelled"
  | .agentStatusChanged => "agent_status_changed"
  | .swarmHealthChanged => "swarm_health_changed"

def ofName? (name : String) : Option Topic :=
  all.find? fun topic => topic.name == name

def read : Json.Reads Topic :=
  Json.choice ofName?

def write (topic : Topic) : Json :=
  .text topic.name

theorem ofName?_name (topic : Topic) : ofName? topic.name = some topic := by
  cases topic <;> decide

end Topic

end JobSwarm.Event
