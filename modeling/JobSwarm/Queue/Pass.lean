import JobSwarm.Decimal.Layout
import JobSwarm.Draw
import JobSwarm.Queue.Outcome

/-!
# The scheduling pass

A pass gives up the running jobs that are past their deadline, lets rested agents recover, and
starts queued jobs in order of precedence while there are slots and agents. A job that finds no
agent waits, and with it the later jobs that need the same capability; the others go on.
-/

namespace JobSwarm.Queue

open Time (Clock)

variable {σ : Type}

/-! ## Deadlines -/

/-- Whether a job that is not paused is past its deadline. -/
def isExpired (now : Time.Instant) (active : Active) : Bool :=
  active.pausedAt.isNone && active.task.isOverdue now

/-- Why a job that is past its deadline has failed. -/
def timeoutReason (seconds : UInt64) : String :=
  "timed out after " ++ Decimal.plain seconds.toFloat ++ "s"

/-- Gives up a job that is past its deadline. The engine may refuse to cancel its run. -/
def expire (engine : Engine σ) (active : Active) (clock : Clock) : Step (Scene σ) Unit := do
  discard (Scene.callEngine (engine.cancel active.handle))
  conclude active.jobId (.failed (timeoutReason active.timeoutSecs)) clock

/-- Gives up the jobs that are past their deadline, in whichever order the table has them
(`expire_overdue`). -/
def expireAll (engine : Engine σ) (clock : Clock) : Step (Scene σ) Unit := do
  (draw clock.lot ((← get).queue.active.filter (isExpired clock.wall))).forM fun active =>
    expire engine active clock

/-! ## Starting jobs -/

/-- Fails a job that the engine refused to start. -/
def refuseStart (job : Job) (agent : Agent.Id) (reason : String) (clock : Clock) :
    Step (Scene σ) Unit := do
  let job := { job with error := some reason }
  match job.transition .failed clock.wall with
  | .error transition => do
    Scene.modifyQueue (·.putJob job)
    Scene.report ⟨.fail, job.id, transition⟩
  | .ok job => Scene.modifyQueue (·.putJob job)
  Scene.release agent (.failed 0) clock.wall
  Scene.announce (.jobFailed job.id reason)

/-- Starts a job on an agent (`start_job`). When the engine refuses, the job has failed. -/
def startJob (engine : Engine σ) (task : Task) (timeoutSecs : UInt64) (agent : Agent.Id)
    (clock : Clock) : Step (Scene σ) Unit := do
  match (← get).queue.job? task.jobId with
  | none => Scene.release agent .cancelled clock.wall
  | some job =>
    match job.transition .running clock.wall with
    | .error transition => do
      Scene.report ⟨.start, job.id, transition⟩
      Scene.release agent .cancelled clock.wall
    | .ok job => do
      let job := { job with agentId := some agent }
      Scene.modifyQueue (·.putJob job)
      Scene.announce (.jobStarted job.id agent)
      match ← Scene.callEngine (engine.start job.config) with
      | .ok handle =>
        Scene.modifyQueue (·.activate
          { task := task, agentId := agent, handle := handle, timeoutSecs := timeoutSecs })
      | .error refusal => refuseStart job agent refusal.message clock

/-- The task of a queued job. -/
def taskOf (queue : Queue) (job : Job) (now : Time.Instant) : Task :=
  .starting job.id job.config.requiredCapability
    ((queue.timeoutOf job.config).toNat * Time.perSecond) now

/-- Looks at a queued job, as long as there is room: it starts if an agent is to be had (a turn of
the loop of `schedule`). None is to be had for the capabilities in `blocked`. Gives the capabilities
for which that holds afterwards. -/
def consider (engine : Engine σ) (clock : Clock) (blocked : List String) (entry : Pending) :
    Step (Scene σ) (List String) := do
  let queue := (← get).queue
  if !queue.hasRoom then return blocked
  match queue.job? entry.id with
  | none => do
    Scene.modifyQueue (·.withdraw entry.id)
    return blocked
  | some job =>
    let capability := job.config.requiredCapability
    if blocked.contains capability then return blocked
    let task := taskOf queue job clock.wall
    match ← Scene.onSwarm (Swarm.Session.acquireFor task clock.wall) with
    | none => return capability :: blocked
    | some agent => do
      Scene.modifyQueue (·.withdraw entry.id)
      startJob engine task (queue.timeoutOf job.config) agent clock
      return blocked

/-- Starts queued jobs, first to last. -/
def dispatch (engine : Engine σ) (clock : Clock) (entries : List Pending) :
    Step (Scene σ) Unit :=
  discard (entries.foldlM (consider engine clock) [])

/-- A scheduling pass (`schedule`). -/
def pass (engine : Engine σ) (clock : Clock) : Step (Scene σ) Unit := do
  expireAll engine clock
  discard (Scene.onSwarm (Swarm.Session.recover clock.wall))
  dispatch engine clock (← get).queue.pending

end JobSwarm.Queue
