import JobSwarm.Queue.Scene

/-!
# How jobs get on and end

Progress and outcomes come from the engine, late or early, in any order. Progress never takes a job
back. The outcome of a paused job is held until the job is resumed.
-/

namespace JobSwarm.Queue

open Time (Clock)

variable {σ : Type}

/-! ## Progress -/

/-- A job with the progress of a snapshot. Its percentage does not fall, and stays where it is when
the total is not known. -/
def advanced (job : Job) (snapshot : Engine.Snapshot) (now : Time.Instant) : Job :=
  let told := snapshot.percent.getD job.progress.percent
  let percent := if told < job.progress.percent then job.progress.percent else told
  { job with
    progress := {
      percent := percent
      bytesProcessed := snapshot.bytesProcessed
      totalBytes := snapshot.totalBytes
      estimatedCompletion := job.startedAt.bind fun started =>
        Job.Progress.estimate started now percent }
    updatedAt := now }

/-- Whether progress of a job may be announced again. -/
def mayAnnounce (config : Config) (active : Active) (clock : Clock) : Bool :=
  active.announcedAt.all fun last =>
    decide (config.progressIntervalMs.toNat * Time.perMilli ≤ clock.steady - last)

/-- Takes in progress (`on_progress`). It counts for running jobs alone, and not when it lies behind
what is known already. -/
def takeProgress (id : Job.Id) (snapshot : Engine.Snapshot) (clock : Clock) :
    Step (Scene σ) Unit := do
  let queue := (← get).queue
  match queue.job? id, queue.active? id with
  | some job, some active =>
    if job.status = .running ∧ ¬snapshot.bytesProcessed < job.progress.bytesProcessed then do
      let job := advanced job snapshot clock.wall
      Scene.modifyQueue (·.putJob job)
      if mayAnnounce queue.config active clock then do
        Scene.modifyQueue (·.modifyActive id fun active =>
          { active with announcedAt := some clock.steady })
        Scene.announce (.progressUpdated id job.progress)
  | _, _ => pure ()

/-! ## Outcomes -/

/-- Counts a completed job. -/
def countCompleted (duration : UInt64) : Step Queue Unit := do
  let total ← Step.ofSum (addWord (← get).completedMs duration)
  modify fun queue => { queue with completedMs := total }
  let count ← Step.ofSum (addWord (← get).completedCount 1)
  modify fun queue => { queue with completedCount := count }

/-- Ends a job that its run has completed. The bytes of the run count, unless more were told
before. -/
def complete (job : Job) (agent : Agent.Id) (bytes : UInt64) (clock : Clock) :
    Step (Scene σ) Unit := do
  let bytes := max bytes job.progress.bytesProcessed
  let job := { job with progress := .complete bytes }
  match job.transition .completed clock.wall with
  | .error transition => do
    Scene.modifyQueue (·.putJob job)
    Scene.report ⟨.complete, job.id, transition⟩
  | .ok job => do
    Scene.modifyQueue (·.putJob job)
    let duration := job.durationMs.getD 0
    Step.onPart (·.queue) (fun queue s => { s with queue := queue }) (countCompleted duration)
    Scene.release agent (.succeeded duration) clock.wall
    Scene.announce (.jobCompleted job.id duration bytes)

/-- Ends a job that has failed. -/
def fail (job : Job) (agent : Agent.Id) (reason : String) (clock : Clock) :
    Step (Scene σ) Unit := do
  let job := { job with error := some reason }
  match job.transition .failed clock.wall with
  | .error transition => do
    Scene.modifyQueue (·.putJob job)
    Scene.report ⟨.fail, job.id, transition⟩
  | .ok job => do
    Scene.modifyQueue (·.putJob job)
    Scene.release agent (.failed (job.durationMs.getD 0)) clock.wall
    Scene.announce (.jobFailed job.id reason)

/-- Ends an active job with the outcome of its run (`settle`). -/
def conclude (id : Job.Id) (outcome : Engine.Outcome) (clock : Clock) : Step (Scene σ) Unit := do
  match (← get).queue.active? id with
  | none => pure ()
  | some active => do
    Scene.modifyQueue (·.retire id)
    match (← get).queue.job? id with
    | none => pure ()
    | some job =>
      match outcome with
      | .completed bytes => complete job active.agentId bytes clock
      | .failed reason => fail job active.agentId reason clock

/-- Takes in an outcome, which a paused job holds for later (`on_finished`). -/
def takeOutcome (id : Job.Id) (outcome : Engine.Outcome) (clock : Clock) :
    Step (Scene σ) Unit := do
  if ((← get).queue.job? id).any (·.status = .paused) then
    Scene.modifyQueue (·.modifyActive id fun active => { active with held := some outcome })
  else conclude id outcome clock

end JobSwarm.Queue
