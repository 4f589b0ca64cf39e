import JobSwarm.Proofs.Queue.Sound
import JobSwarm.Proofs.Swarm.Calls
import JobSwarm.Queue.Outcome
import JobSwarm.Queue.Request

/-!
# The turns of a job

Whatever a queue does, the slice of each job takes one of a few turns, or stays as it is. Each turn
has its own announcements.

Results:

* `Slice.Turn.fits`: after a turn the parts of a slice still go together.
* `Slice.Turn.of_ended`: a job that has ended takes no more turns.
* `Session.story_tell`, `Session.Quiet.story`: what is told of a job, and when nothing is.
-/

namespace JobSwarm

open Event (Notice)
open Time (Instant Clock)

/-! ## What is told of a job -/

/-- What concerns no job does not start one. -/
theorem Event.Notice.topic_ne_jobStarted {notice : Notice} (h : notice.jobId? = none) :
    notice.topic ≠ .jobStarted := by
  cases notice <;> simp_all [Notice.jobId?, Notice.topic]

namespace Swarm.Session

variable {s t : Session} {id own : Job.Id} {notice : Notice}

/-- What has been announced of a job. -/
def story (session : Session) (id : Job.Id) : List Notice :=
  session.announced.filter fun notice => notice.jobId? == some id

/-- A session after one more notice. -/
def tell (session : Session) (notice : Notice) : Session :=
  { session with announced := session.announced ++ [notice] }

theorem story_tell (about : notice.jobId? = some own) :
    (s.tell notice).story id = if id = own then s.story id ++ [notice] else s.story id := by
  simp only [story, tell, List.filter_append, List.filter_singleton, about]
  by_cases h : id = own
  · simp [h]
  · simp [h, beq_eq_false_iff_ne.2 (Ne.symm h)]

theorem Quiet.story (h : s.Quiet t) : t.story id = s.story id := by
  obtain ⟨notices, hnotices, quiet⟩ := h
  have none : (notices.filter fun notice => notice.jobId? == some id) = [] :=
    List.filter_eq_nil_iff.2 fun notice hmem => by simp [quiet notice hmem]
  rw [Session.story, Session.story, hnotices, List.filter_append, none, List.append_nil]

end Swarm.Session

/-! ## Records -/

namespace Job

/-- A job that an agent has taken up. -/
def started (job : Job) (agent : Agent.Id) (now : Instant) : Job :=
  { job.moved .running now with agentId := some agent }

/-- A job that has failed. -/
def failed (job : Job) (reason : String) (now : Instant) : Job :=
  { job with error := some reason }.moved .failed now

/-- A job that its run has completed. -/
def completed (job : Job) (bytes : UInt64) (now : Instant) : Job :=
  { job with progress := .complete (max bytes job.progress.bytesProcessed) }.moved .completed now

variable {job : Job} {next : Status} {agent : Agent.Id} {reason : String} {bytes : UInt64}
  {now : Instant}

@[simp] theorem moved_id : (job.moved next now).id = job.id := rfl
@[simp] theorem started_id : (job.started agent now).id = job.id := rfl
@[simp] theorem failed_id : (job.failed reason now).id = job.id := rfl
@[simp] theorem completed_id : (job.completed bytes now).id = job.id := rfl
@[simp] theorem moved_sequence : (job.moved next now).sequence = job.sequence := rfl
@[simp] theorem started_sequence : (job.started agent now).sequence = job.sequence := rfl
@[simp] theorem failed_sequence : (job.failed reason now).sequence = job.sequence := rfl
@[simp] theorem completed_sequence : (job.completed bytes now).sequence = job.sequence := rfl

end Job

namespace Queue

@[simp] theorem advanced_id {job : Job} {snapshot : Engine.Snapshot} {now : Instant} :
    (advanced job snapshot now).id = job.id := rfl
@[simp] theorem advanced_sequence {job : Job} {snapshot : Engine.Snapshot} {now : Instant} :
    (advanced job snapshot now).sequence = job.sequence := rfl
@[simp] theorem advanced_status {job : Job} {snapshot : Engine.Snapshot} {now : Instant} :
    (advanced job snapshot now).status = job.status := rfl

/-! ## Turns -/

/-- What a turn of a job may rest on: the outcomes of its run that the queue has heard, the runs
that the engine was asked to cancel, the settings of the queue, and whether it hears of progress. -/
structure Slice.Grounds where
  heard : Engine.Outcome → Prop
  stopped : Engine.Handle → Prop
  config : Config
  advancing : Bool

/-- One turn of a job: its slice before, what is announced of it, and its slice after. -/
inductive Slice.Turn (clock : Clock) (grounds : Grounds) : Slice → List Notice → Slice → Prop
  | still {slice : Slice} : Turn clock grounds slice [] slice
  | submit {job : Job}
      (new : job = .submitted job.id job.config job.priority job.sequence clock.wall) :
      Turn clock grounds ⟨none, none, []⟩ [.jobQueued job] ⟨some job, none, [.ofJob job]⟩
  | start {job : Job} (active : Active) (status : job.status = .queued)
      (free : active.pausedAt = none) (unheld : active.held = none)
      (silent : active.announcedAt = none)
      (limit : active.timeoutSecs = job.config.timeoutSecs.getD grounds.config.defaultTimeoutSecs)
      (due : active.task.deadline =
        (clock.wall.add? (active.timeoutSecs.toNat * Time.perSecond : Nat)).getD .last) :
      Turn clock grounds ⟨some job, none, [.ofJob job]⟩ [.jobStarted job.id active.agentId]
        ⟨some (job.started active.agentId clock.wall), some active, []⟩
  | refuse {job : Job} (agent : Agent.Id) (refusal : Engine.Error) (status : job.status = .queued) :
      Turn clock grounds ⟨some job, none, [.ofJob job]⟩
        [.jobStarted job.id agent, .jobFailed job.id refusal.message]
        ⟨some ((job.started agent clock.wall).failed refusal.message clock.wall), none, []⟩
  | advance {job : Job} {active : Active} (snapshot : Engine.Snapshot)
      (status : job.status = .running)
      (news : ¬snapshot.bytesProcessed < job.progress.bytesProcessed)
      (quiet : mayAnnounce grounds.config active clock = false) (may : grounds.advancing = true) :
      Turn clock grounds ⟨some job, some active, []⟩ []
        ⟨some (advanced job snapshot clock.wall), some active, []⟩
  | announce {job : Job} {active : Active} (snapshot : Engine.Snapshot)
      (status : job.status = .running)
      (news : ¬snapshot.bytesProcessed < job.progress.bytesProcessed)
      (due : mayAnnounce grounds.config active clock = true) (may : grounds.advancing = true) :
      Turn clock grounds ⟨some job, some active, []⟩
        [.progressUpdated job.id (advanced job snapshot clock.wall).progress]
        ⟨some (advanced job snapshot clock.wall),
          some { active with announcedAt := some clock.steady }, []⟩
  | hold {job : Job} {active : Active} (outcome : Engine.Outcome) (status : job.status = .paused)
      (heard : grounds.heard outcome) :
      Turn clock grounds ⟨some job, some active, []⟩ []
        ⟨some job, some { active with held := some outcome }, []⟩
  | complete {job done : Job} {active : Active} {bytes : UInt64} (status : job.status = .running)
      (ended : job.completed bytes clock.wall = done) (heard : grounds.heard (.completed bytes)) :
      Turn clock grounds ⟨some job, some active, []⟩
        [.jobCompleted job.id (done.durationMs.getD 0) done.progress.bytesProcessed]
        ⟨some done, none, []⟩
  | fail {job : Job} {active : Active} (reason : String) (status : job.status = .running)
      (cause : grounds.heard (.failed reason) ∨ grounds.stopped active.handle) :
      Turn clock grounds ⟨some job, some active, []⟩ [.jobFailed job.id reason]
        ⟨some (job.failed reason clock.wall), none, []⟩
  | withdraw {job : Job} (status : job.status = .queued) :
      Turn clock grounds ⟨some job, none, [.ofJob job]⟩ [.jobCancelled job.id]
        ⟨some (job.moved .cancelled clock.wall), none, []⟩
  | abandon {job : Job} {active : Active} (status : job.status = .running ∨ job.status = .paused)
      (stopped : grounds.stopped active.handle) :
      Turn clock grounds ⟨some job, some active, []⟩ [.jobCancelled job.id]
        ⟨some (job.moved .cancelled clock.wall), none, []⟩
  | pause {job : Job} {active : Active} (status : job.status = .running) :
      Turn clock grounds ⟨some job, some active, []⟩ [.jobPaused job.id]
        ⟨some (job.moved .paused clock.wall),
          some { active with pausedAt := some clock.steady }, []⟩
  | resume {job : Job} {active : Active} (resumed : Active) (status : job.status = .paused)
      (same : resumed.agentId = active.agentId) (free : resumed.pausedAt = none)
      (unheld : resumed.held = none) (run : resumed.handle = active.handle)
      (own : resumed = active.resumed clock) :
      Turn clock grounds ⟨some job, some active, []⟩ [.jobResumed job.id]
        ⟨some (job.moved .running clock.wall), some resumed, []⟩

namespace Slice.Turn

variable {clock : Clock} {grounds : Grounds} {a b : Slice} {job : Job} {news : List Notice}

theorem fits (turn : Turn clock grounds a news b) (fits : a.Fits) : b.Fits := by
  cases turn with
  | still => exact fits
  | submit new => exact .queued (by rw [new]; rfl)
  | start _ status free unheld => exact .running rfl rfl free unheld
  | refuse | withdraw | abandon | fail => exact .ended rfl
  | complete status ended => exact .ended (by rw [← ended]; rfl)
  | advance _ status | announce _ status =>
    obtain ⟨_, heq, agent, free, unheld⟩ := fits.of_running rfl status
    cases heq
    exact .running status agent free unheld
  | hold _ status =>
    obtain ⟨_, heq, agent, since⟩ := fits.of_paused rfl status
    cases heq
    exact .paused status agent since
  | pause status =>
    obtain ⟨_, heq, agent, -⟩ := fits.of_running rfl status
    cases heq
    exact .paused rfl agent rfl
  | resume _ status same free unheld =>
    obtain ⟨_, heq, agent, -⟩ := fits.of_paused rfl status
    cases heq
    exact .running rfl (agent.trans (congrArg some same.symm)) free unheld

theorem of_ended (turn : Turn clock grounds a news b) (h : a.job = some job)
    (ended : job.status.isTerminal = true) : news = [] ∧ b = a := by
  cases turn with
  | still => exact ⟨rfl, rfl⟩
  | submit => cases h
  | start _ status | refuse _ _ status | withdraw status | advance _ status | announce _ status
  | hold _ status | complete status | fail _ status | pause status | resume _ status =>
    cases h
    rw [status] at ended
    cases ended
  | abandon status =>
    cases h
    rcases status with status | status <;> rw [status] at ended <;> cases ended

end Slice.Turn

end Queue

end JobSwarm
