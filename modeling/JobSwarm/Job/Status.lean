import JobSwarm.Json.Record

/-!
# The life of a job

A job is queued, then runs, perhaps with pauses, and ends in one of three ways:

    queued ---> running ---> completed, failed or cancelled
      |          |   ^
      |          v   |
      |         paused ----> cancelled
      +--------------------> cancelled

Results:

* `not_canBecome_of_isTerminal`: nothing follows an end.
* `canBecome_cancelled`: whatever has not ended can be cancelled.
-/

namespace JobSwarm.Job

inductive Status where
  | queued
  | running
  | paused
  | completed
  | failed
  | cancelled
  deriving DecidableEq, Repr

namespace Status

instance : Inhabited Status := ⟨.queued⟩

/-- Whether the job has ended (`is_terminal`). -/
def isTerminal : Status → Bool
  | .completed | .failed | .cancelled => true
  | .queued | .running | .paused => false

/-- Whether one status may follow another (`can_transition_to`). -/
def canBecome : Status → Status → Bool
  | .queued, .running | .queued, .cancelled => true
  | .running, .paused | .running, .completed | .running, .failed | .running, .cancelled => true
  | .paused, .running | .paused, .cancelled => true
  | _, _ => false

def name : Status → String
  | .queued => "queued"
  | .running => "running"
  | .paused => "paused"
  | .completed => "completed"
  | .failed => "failed"
  | .cancelled => "cancelled"

def ofName? : String → Option Status
  | "queued" => some .queued
  | "running" => some .running
  | "paused" => some .paused
  | "completed" => some .completed
  | "failed" => some .failed
  | "cancelled" => some .cancelled
  | _ => none

def read : Json.Reads Status :=
  Json.choice ofName?

def write (status : Status) : Json :=
  .text status.name

theorem ofName?_name (status : Status) : ofName? status.name = some status := by
  cases status <;> rfl

theorem not_canBecome_of_isTerminal (a b : Status) (h : a.isTerminal = true) :
    a.canBecome b = false := by
  cases a <;> cases h <;> cases b <;> rfl

theorem canBecome_cancelled (a : Status) : a.canBecome .cancelled = !a.isTerminal := by
  cases a <;> rfl

theorem running_or_paused {a : Status} (open_ : a.isTerminal = false) (started : a ≠ .queued) :
    a = .running ∨ a = .paused := by
  cases a with
  | running => exact .inl rfl
  | paused => exact .inr rfl
  | queued => exact absurd rfl started
  | completed | failed | cancelled => cases open_

end Status

/-- A change of status that is not allowed (`TransitionError`). -/
structure BadTransition where
  source : Status
  target : Status
  deriving DecidableEq, Repr

def BadTransition.message (t : BadTransition) : String :=
  "invalid transition from " ++ t.source.name ++ " to " ++ t.target.name

end JobSwarm.Job
