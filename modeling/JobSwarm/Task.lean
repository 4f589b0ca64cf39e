import JobSwarm.Job.Id
import JobSwarm.Job.Progress

/-!
# Tasks

A task hands one job to one agent, for a limited time.

Results:

* `isOverdue_iff`: a task is overdue after its deadline, not at it.
-/

namespace JobSwarm

open Time (Instant)

/-- A job in the hands of an agent. -/
structure Task where
  jobId : Job.Id
  capability : String
  /-- The last instant at which the job may still run. -/
  deadline : Instant

namespace Task

/-- A task that may take `timeout` nanoseconds from now (`new`). A deadline that lies beyond the
range of instants is the end of that range. -/
def starting (jobId : Job.Id) (capability : String) (timeout : Nat) (now : Instant) : Task :=
  ⟨jobId, capability, (now.add? timeout).getD .last⟩

def isOverdue (task : Task) (now : Instant) : Bool :=
  task.deadline < now

theorem isOverdue_iff (task : Task) (now : Instant) :
    task.isOverdue now = true ↔ task.deadline < now := by
  simp [isOverdue]

def fieldNames : List String :=
  ["job_id", "capability", "deadline"]

def read : Json.Reads Task := fun value => do
  let fields ← Json.fields? fieldNames value
  return {
    jobId := ← Json.required Job.Id.read fields "job_id"
    capability := ← Json.required Json.text? fields "capability"
    deadline := ← Json.required Instant.read fields "deadline" }

def write (task : Task) : Json :=
  .object [("job_id", task.jobId.write), ("capability", .text task.capability),
    ("deadline", task.deadline.write)]

/-- How a task ended (`TaskOutcome`). A task that was cancelled has no duration, and counts neither
for nor against its agent. -/
inductive Outcome where
  | succeeded (durationMs : UInt64)
  | failed (durationMs : UInt64)
  | cancelled
  deriving DecidableEq, Repr

namespace Outcome

/-- Reads an outcome: an object with its name as `outcome`, or a list with the name in front. -/
def read : Json.Reads Outcome
  | .object members => do
    match ← Json.required Json.text? members "outcome" with
    | "succeeded" => return .succeeded (← Json.required Json.word? members "duration_ms")
    | "failed" => return .failed (← Json.required Json.word? members "duration_ms")
    | "cancelled" => return .cancelled
    | _ => none
  | .list [.text "succeeded", duration] => (Json.word? duration).map .succeeded
  | .list [.text "failed", duration] => (Json.word? duration).map .failed
  | .list [.text "cancelled"] => some .cancelled
  | _ => none

def write : Outcome → Json
  | .succeeded duration => .object [("outcome", .text "succeeded"), ("duration_ms", .word duration)]
  | .failed duration => .object [("outcome", .text "failed"), ("duration_ms", .word duration)]
  | .cancelled => .object [("outcome", .text "cancelled")]

end Outcome

end Task

end JobSwarm
