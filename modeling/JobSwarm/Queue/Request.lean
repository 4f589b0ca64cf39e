import JobSwarm.Queue.Outcome

/-!
# What callers ask of a queue

A job can be submitted, cancelled, paused and resumed. A refused request changes nothing.

Results:

* `submit_invalid`: a job that cannot be valid is refused, and nothing changes.
-/

namespace JobSwarm.Queue

open Time (Clock)

variable {σ : Type}

/-- Takes in a job, if it is valid and some agent has the capability that it requires (`submit`). -/
def submit (id : Job.Id) (config : Job.Config) (priority : Priority) (clock : Clock) :
    Step (Scene σ) (Except Error Unit) := do
  match config.validate with
  | .error fault => return .error (.validation fault)
  | .ok () =>
    let s ← get
    if !s.swarm.supports config.requiredCapability then
      return .error (.validation (.unsupportedCapability config.requiredCapability))
    else do
      let sequence ← Step.ofSum (addWord s.queue.sequence 1)
      let job := Job.submitted id config priority sequence clock.wall
      Scene.modifyQueue (·.add job)
      Scene.announce (.jobQueued job)
      return .ok ()

/-- Takes what a cancelled job held: its run is cancelled, its agent is given back. The engine may
refuse to cancel the run. -/
def abandon (engine : Engine σ) (active : Active) (clock : Clock) : Step (Scene σ) Unit := do
  Scene.modifyQueue (·.retire active.jobId)
  discard (Scene.callEngine (engine.cancel active.handle))
  Scene.release active.agentId .cancelled clock.wall

/-- Ends a job that has not ended yet (`cancel`). -/
def cancel (engine : Engine σ) (id : Job.Id) (clock : Clock) :
    Step (Scene σ) (Except Error Unit) := do
  let queue := (← get).queue
  match queue.job? id with
  | none => return .error (.jobNotFound id)
  | some job =>
    if job.status.isTerminal then return .error (.invalidState id job.status .cancel)
    else
      match job.transition .cancelled clock.wall with
      | .error transition => return .error (.invalidTransition transition)
      | .ok cancelled => do
        Scene.modifyQueue (·.putJob cancelled)
        if job.status = .queued then Scene.modifyQueue (·.withdraw id)
        else
          match queue.active? id with
          | none => pure ()
          | some active => abandon engine active clock
        Scene.announce (.jobCancelled id)
        return .ok ()

/-- Suspends a running job, if the engine can suspend its run (`pause`). -/
def pause (engine : Engine σ) (id : Job.Id) (clock : Clock) :
    Step (Scene σ) (Except Error Unit) := do
  let queue := (← get).queue
  match queue.job? id with
  | none => return .error (.jobNotFound id)
  | some job =>
    match queue.active? id with
    | none => return .error (.invalidState id job.status .pause)
    | some active =>
      if job.status ≠ .running then return .error (.invalidState id job.status .pause)
      else
        match ← Scene.callEngine (engine.suspend active.handle) with
        | .error refusal => return .error (.engine refusal)
        | .ok () =>
          match job.transition .paused clock.wall with
          | .error transition => return .error (.invalidTransition transition)
          | .ok paused => do
            Scene.modifyQueue (·.putJob paused)
            Scene.modifyQueue (·.modifyActive id fun active =>
              { active with pausedAt := some clock.steady })
            Scene.announce (.jobPaused id)
            return .ok ()

/-- What a job holds after its pause: the deadline is later by the pause, if that instant exists. -/
def Active.resumed (active : Active) (clock : Clock) : Active :=
  let deadline := (active.pausedAt.bind fun since =>
    active.task.deadline.add? ((clock.steady - since : Nat) : Int)).getD active.task.deadline
  { active with task := { active.task with deadline := deadline }, held := none, pausedAt := none }

/-- Lets the run of a job go on, unless it has ended during the pause. -/
def wake (engine : Engine σ) (active : Active) : Step (Scene σ) (Except Engine.Error Unit) :=
  match active.held with
  | some _ => pure (.ok ())
  | none => Scene.callEngine (engine.resume active.handle)

/-- Lets a paused job go on, if the engine can resume its run (`resume`). A job whose run ended
during the pause ends at once. -/
def resume (engine : Engine σ) (id : Job.Id) (clock : Clock) :
    Step (Scene σ) (Except Error Unit) := do
  let queue := (← get).queue
  match queue.job? id with
  | none => return .error (.jobNotFound id)
  | some job =>
    match queue.active? id with
    | none => return .error (.invalidState id job.status .resume)
    | some active =>
      if job.status ≠ .paused then return .error (.invalidState id job.status .resume)
      else
        match ← wake engine active with
        | .error refusal => return .error (.engine refusal)
        | .ok () =>
          match job.transition .running clock.wall with
          | .error transition => return .error (.invalidTransition transition)
          | .ok running => do
            Scene.modifyQueue (·.putJob running)
            Scene.modifyQueue (·.modifyActive id (·.resumed clock))
            Scene.announce (.jobResumed id)
            match active.held with
            | none => pure ()
            | some outcome => conclude id outcome clock
            return .ok ()

/-- Cancels every job that has not ended, in the order of submission (`drain`). -/
def drain (engine : Engine σ) (clock : Clock) : Step (Scene σ) Unit := do
  (← get).queue.unfinished.forM fun job => discard (cancel engine job.id clock)

theorem submit_invalid (id : Job.Id) (config : Job.Config) (priority : Priority) (clock : Clock)
    (fault : Job.Config.Fault) (s : Scene σ) (h : config.validate = .error fault) :
    submit id config priority clock s = .ok (.error (.validation fault)) s := by
  simp only [submit, h]
  rfl

end JobSwarm.Queue
