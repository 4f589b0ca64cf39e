import JobSwarm.Agent.Id
import JobSwarm.Job.Config
import JobSwarm.Job.Id
import JobSwarm.Job.Progress
import JobSwarm.Job.Status
import JobSwarm.Priority

/-!
# Jobs

A job is the record of one piece of work: what was asked for, how it stands, and when that changed.

Results:

* `transition_eq_ok_iff`: a job moves along the edges of the life cycle and nowhere else.
-/

namespace JobSwarm

open Time (Instant)

/-- A piece of work in a queue. -/
structure Job where
  id : Job.Id
  priority : Priority
  status : Job.Status
  config : Job.Config
  progress : Job.Progress
  /-- The agent that runs the job, or ran it last. -/
  agentId : Option Agent.Id := none
  /-- Why the job failed. -/
  error : Option String := none
  /-- The place in the order of submission. -/
  sequence : UInt64
  createdAt : Instant
  startedAt : Option Instant := none
  finishedAt : Option Instant := none
  updatedAt : Instant

namespace Job

/-- A job that has just been submitted (`new`). -/
def submitted (id : Id) (config : Config) (priority : Priority) (sequence : UInt64)
    (now : Instant) : Job where
  id := id
  priority := priority
  status := .queued
  config := config
  progress := {}
  sequence := sequence
  createdAt := now
  updatedAt := now

/-- A job in its next status. The first start and the end are stamped. -/
def moved (job : Job) (next : Status) (now : Instant) : Job :=
  { job with
    status := next
    startedAt := if next = .running then job.startedAt.or (some now) else job.startedAt
    finishedAt := if next.isTerminal then some now else job.finishedAt
    updatedAt := now }

/-- Moves a job to another status, if the life cycle allows it (`transition`). -/
def transition (job : Job) (next : Status) (now : Instant) : Except BadTransition Job :=
  if job.status.canBecome next then .ok (job.moved next now) else .error ⟨job.status, next⟩

/-- Whole milliseconds from start to end, when both are known; a clock that went back counts as one
that stood still (`duration_ms`). -/
def durationMs (job : Job) : Option UInt64 := do
  let started ← job.startedAt
  let finished ← job.finishedAt
  return .ofNat (Instant.wholeMillis (finished.since started)).toNat

theorem transition_eq_ok_iff {job moved : Job} {next : Status} {now : Instant} :
    job.transition next now = .ok moved ↔
      job.status.canBecome next = true ∧ job.moved next now = moved := by
  rw [transition]
  split
  · next h => simp [h]
  · next h => simp [h]

/-! ## JSON -/

def fieldNames : List String :=
  ["id", "priority", "status", "config", "progress", "agent_id", "error", "sequence",
    "created_at", "started_at", "finished_at", "updated_at"]

def read : Json.Reads Job := fun value => do
  let fields ← Json.fields? fieldNames value
  return {
    id := ← Json.required Id.read fields "id"
    priority := ← Json.required Priority.read fields "priority"
    status := ← Json.required Status.read fields "status"
    config := ← Json.required Config.read fields "config"
    progress := ← Json.required Progress.read fields "progress"
    agentId := ← Json.optional Agent.Id.read fields "agent_id"
    error := ← Json.optional Json.text? fields "error"
    sequence := ← Json.required Json.word? fields "sequence"
    createdAt := ← Json.required Instant.read fields "created_at"
    startedAt := ← Json.optional Instant.read fields "started_at"
    finishedAt := ← Json.optional Instant.read fields "finished_at"
    updatedAt := ← Json.required Instant.read fields "updated_at" }

/-- The members, with what is written for the configuration. -/
def members (job : Job) (config : Json) : Json.Members :=
  [("id", job.id.write), ("priority", job.priority.write), ("status", job.status.write),
    ("config", config), ("progress", job.progress.write)] ++
    Json.memberIf "agent_id" (job.agentId.map Agent.Id.write) ++
    Json.memberIf "error" (job.error.map .text) ++
    [("sequence", .word job.sequence), ("created_at", job.createdAt.write)] ++
    Json.memberIf "started_at" (job.startedAt.map Instant.write) ++
    Json.memberIf "finished_at" (job.finishedAt.map Instant.write) ++
    [("updated_at", job.updatedAt.write)]

/-- Writes the job, if its configuration can be written. -/
def write (job : Job) : Option Json :=
  job.config.write.map fun config => .object (job.members config)

end Job

end JobSwarm
