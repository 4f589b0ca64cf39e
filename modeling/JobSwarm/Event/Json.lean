import JobSwarm.Event.Basic

/-!
# Events in JSON

A notice carries its topic as the member `event`, beside its own fields. An event adds its number
and its time to them.
-/

namespace JobSwarm.Event

open Time (Instant)

namespace Notice

/-- The fields of the notices on a topic, in order. -/
def fieldNames : Topic → List String
  | .jobQueued => ["job"]
  | .jobStarted => ["job_id", "agent_id"]
  | .progressUpdated => ["job_id", "progress"]
  | .jobPaused | .jobResumed | .jobCancelled => ["job_id"]
  | .jobCompleted => ["job_id", "duration_ms", "bytes_processed"]
  | .jobFailed => ["job_id", "error"]
  | .agentStatusChanged => ["agent_id", "old_status", "new_status"]
  | .swarmHealthChanged => ["health"]

/-- Reads the fields of a notice on a topic. -/
def readFields (topic : Topic) (fields : Json.Members) : Option Notice := do
  let jobId := Json.required Job.Id.read fields "job_id"
  match topic with
  | .jobQueued => return .jobQueued (← Json.required Job.read fields "job")
  | .jobStarted => return .jobStarted (← jobId) (← Json.required Agent.Id.read fields "agent_id")
  | .progressUpdated =>
    return .progressUpdated (← jobId) (← Json.required Job.Progress.read fields "progress")
  | .jobPaused => return .jobPaused (← jobId)
  | .jobResumed => return .jobResumed (← jobId)
  | .jobCompleted =>
    return .jobCompleted (← jobId) (← Json.required Json.word? fields "duration_ms")
      (← Json.required Json.word? fields "bytes_processed")
  | .jobFailed => return .jobFailed (← jobId) (← Json.required Json.text? fields "error")
  | .jobCancelled => return .jobCancelled (← jobId)
  | .agentStatusChanged =>
    return .agentStatusChanged (← Json.required Agent.Id.read fields "agent_id")
      (← Json.required Agent.Status.read fields "old_status")
      (← Json.required Agent.Status.read fields "new_status")
  | .swarmHealthChanged =>
    return .swarmHealthChanged (← Json.required Swarm.Health.read fields "health")

/-- Reads a notice: an object with its topic as `event`, or a list with the topic in front. -/
def read : Json.Reads Notice
  | .object members => do
    let name ← Json.required Json.text? members "event"
    readFields (← Topic.ofName? name) members
  | .list (.text name :: items) => do
    let topic ← Topic.ofName? name
    readFields topic (← Json.fields? (fieldNames topic) (.list items))
  | _ => none

/-- The fields of a notice, if its job can be written. -/
def fields : Notice → Option Json.Members
  | .jobQueued job => job.write.map fun job => [("job", job)]
  | .jobStarted jobId agentId => some [("job_id", jobId.write), ("agent_id", agentId.write)]
  | .progressUpdated jobId progress =>
    some [("job_id", jobId.write), ("progress", progress.write)]
  | .jobPaused jobId | .jobResumed jobId | .jobCancelled jobId => some [("job_id", jobId.write)]
  | .jobCompleted jobId duration bytes =>
    some [("job_id", jobId.write), ("duration_ms", .word duration),
      ("bytes_processed", .word bytes)]
  | .jobFailed jobId error => some [("job_id", jobId.write), ("error", .text error)]
  | .agentStatusChanged agentId old new =>
    some [("agent_id", agentId.write), ("old_status", old.write), ("new_status", new.write)]
  | .swarmHealthChanged health => some [("health", health.write)]

end Notice

/-- Reads the topic of an event, which may also be given by its number. -/
def readTopic : Json.Reads Topic
  | .text name => Topic.ofName? name
  | .whole n => if 0 ≤ n then Topic.all[n.toNat]? else none
  | _ => none

/-- Reads an event, which is always an object. -/
def read : Json.Reads Event
  | .object members => do
    let sequence ← Json.required Json.word? members "sequence"
    let timestamp ← Json.required Instant.read members "timestamp"
    let topic ← Json.required readTopic members "event"
    return ⟨sequence, timestamp, ← Notice.readFields topic members⟩
  | _ => none

/-- Writes an event, if its notice can be written. The topic stands in front of the fields. -/
def write (event : Event) : Option Json :=
  event.notice.fields.map fun fields =>
    .object (("sequence", .word event.sequence) :: ("timestamp", event.timestamp.write) ::
      ("event", event.notice.topic.write) :: fields)

end JobSwarm.Event
