import JobSwarm.Proofs.Queue.Run

/-!
# The log of a job

What a queue announces of a job is its log. A log begins with the submission, follows the life cycle
and ends with it. Whoever replays it knows the record.

Results:

* `Slice.Turn.remainder`: what may be announced after a turn may follow the news of the turn.
* `Slice.Turn.recorded`: a turn writes the record as it announces it.
* `Run.log`: at every point of a run, the log of a job is the beginning of a life, its replay gives
  the record, and neither changes once the job has ended.
-/

namespace JobSwarm.Queue

open Event (Notice Topic)
open Time (Instant Clock)

namespace Log

/-! ## Lives -/

/-- What is announced of a job that runs, up to its end. -/
inductive Course : List Topic → Prop
  | progress {rest : List Topic} (course : Course rest) : Course (.progressUpdated :: rest)
  | complete : Course [.jobCompleted]
  | fail : Course [.jobFailed]
  | cancel : Course [.jobCancelled]
  | pauseCancel : Course [.jobPaused, .jobCancelled]
  | pauseResume {rest : List Topic} (course : Course rest) :
      Course (.jobPaused :: .jobResumed :: rest)

/-- What is announced of a job, from its submission to its end. -/
inductive Life : List Topic → Prop
  | cancel : Life [.jobQueued, .jobCancelled]
  | start {rest : List Topic} (course : Course rest) : Life (.jobQueued :: .jobStarted :: rest)

/-- What is left to announce of a job, by its status. -/
def Remainder : Option Job.Status → List Topic → Prop
  | none, rest => Life rest
  | some .queued, rest => Life (.jobQueued :: rest)
  | some .running, rest => Course rest
  | some .paused, rest => Course (.jobPaused :: rest)
  | some .completed, rest | some .failed, rest | some .cancelled, rest => rest = []

/-- Something is always left to announce, if only nothing. -/
theorem exists_remainder (status : Option Job.Status) : ∃ rest, Remainder status rest := by
  cases status with
  | none => exact ⟨_, .cancel⟩
  | some status =>
    cases status with
    | queued => exact ⟨_, Life.cancel⟩
    | running => exact ⟨_, Course.cancel⟩
    | paused => exact ⟨_, Course.pauseCancel⟩
    | completed | failed | cancelled => exact ⟨[], rfl⟩

theorem Remainder.eq_nil {status : Job.Status} {rest : List Topic}
    (h : Remainder (some status) rest) (ended : status.isTerminal = true) : rest = [] := by
  cases status with
  | completed | failed | cancelled => exact h
  | queued | running | paused => cases ended

/-! ## Replay -/

/-- What a log tells of a job. -/
@[ext] structure Digest where
  status : Option Job.Status := none
  agent : Option Agent.Id := none
  error : Option String := none
  /-- The duration in milliseconds and the bytes of a job that is complete. -/
  result : Option (UInt64 × UInt64) := none

/-- What is known after one more notice. -/
def Digest.after (digest : Digest) : Notice → Digest
  | .jobQueued _ => { digest with status := some .queued }
  | .jobStarted _ agent => { digest with status := some .running, agent := some agent }
  | .jobPaused _ => { digest with status := some .paused }
  | .jobResumed _ => { digest with status := some .running }
  | .jobCompleted _ duration bytes =>
    { digest with status := some .completed, result := some (duration, bytes) }
  | .jobFailed _ error => { digest with status := some .failed, error := some error }
  | .jobCancelled _ => { digest with status := some .cancelled }
  | .progressUpdated .. | .agentStatusChanged .. | .swarmHealthChanged .. => digest

/-- What a log tells in all. -/
def replay (log : List Notice) : Digest :=
  log.foldl Digest.after {}

/-- What the record says of the same. -/
def Digest.ofJob (job : Job) : Digest where
  status := some job.status
  agent := job.agentId
  error := job.error
  result :=
    if job.status = .completed then
      job.durationMs.map fun duration => (duration, job.progress.bytesProcessed)
    else none

theorem replay_append (log news : List Notice) :
    replay (log ++ news) = news.foldl Digest.after (replay log) :=
  List.foldl_append

end Log

open Log

/-! ## Turns -/

namespace Slice.Turn

variable {clock : Clock} {grounds : Grounds} {a b : Slice} {news : List Notice}

/-- What may be announced after a turn may follow the news of the turn. -/
theorem remainder (turn : Turn clock grounds a news b) {rest : List Topic}
    (h : Remainder (b.job.map (·.status)) rest) :
    Remainder (a.job.map (·.status)) (news.map (·.topic) ++ rest) := by
  cases turn with
  | still => exact h
  | submit new =>
    have status : _ = Job.Status.queued := congrArg Job.status new
    simp only [Option.map_some, status] at h
    exact h
  | start _ status =>
    simp only [Option.map_some, status]
    exact Life.start h
  | refuse _ _ status =>
    simp only [Option.map_some, status]
    obtain rfl : rest = [] := h
    exact Life.start .fail
  | advance _ status =>
    simp only [Option.map_some, advanced_status, status] at h ⊢
    exact h
  | announce _ status =>
    simp only [Option.map_some, advanced_status, status] at h ⊢
    exact Course.progress h
  | hold => exact h
  | complete status ended =>
    obtain rfl : rest = [] := Remainder.eq_nil h (by rw [← ended]; rfl)
    simp only [Option.map_some, status]
    exact Course.complete
  | fail _ status =>
    obtain rfl : rest = [] := h
    simp only [Option.map_some, status]
    exact Course.fail
  | withdraw status =>
    obtain rfl : rest = [] := h
    simp only [Option.map_some, status]
    exact Life.cancel
  | abandon status =>
    obtain rfl : rest = [] := h
    rcases status with status | status
    · simp only [Option.map_some, status]
      exact Course.cancel
    · simp only [Option.map_some, status]
      exact Course.pauseCancel
  | pause status =>
    simp only [Option.map_some, status]
    exact h
  | resume _ status =>
    simp only [Option.map_some, status]
    exact Course.pauseResume h

end Slice.Turn

/-- How a record and a log go together. -/
inductive Log.Recorded : Option Job → List Notice → Prop
  | unknown : Recorded none []
  | known {job : Job} {log : List Notice} (replayed : replay log = .ofJob job)
      (failed_iff : job.error.isSome ↔ job.status = .failed)
      (started : job.status = .running ∨ job.status = .paused → job.startedAt.isSome) :
      Recorded (some job) log

/-- A record that was changed as it was announced goes with the longer log. -/
theorem Log.Recorded.next {job job' : Job} {log news : List Notice}
    (recorded : Recorded (some job) log)
    (told : (job.status = .running ∨ job.status = .paused → job.startedAt.isSome) →
      news.foldl Digest.after (.ofJob job) = .ofJob job')
    (failed_iff : (job.error.isSome ↔ job.status = .failed) →
      (job'.error.isSome ↔ job'.status = .failed))
    (started : (job.status = .running ∨ job.status = .paused → job.startedAt.isSome) →
      job'.status = .running ∨ job'.status = .paused → job'.startedAt.isSome) :
    Recorded (some job') (log ++ news) := by
  cases recorded with
  | known replayed hfailed hstarted =>
    refine .known ?_ (failed_iff hfailed) (started hstarted)
    rw [replay_append, replayed, told hstarted]

namespace Slice.Turn

variable {clock : Clock} {grounds : Grounds} {a b : Slice} {news log : List Notice}

/-- A turn writes the record as it announces it. -/
theorem recorded (turn : Turn clock grounds a news b) (recorded : Recorded a.job log) :
    Recorded b.job (log ++ news) := by
  cases turn with
  | still =>
    rw [List.append_nil]
    exact recorded
  | submit new =>
    cases recorded with
    | unknown =>
      rw [new]
      exact .known rfl (by simp [Job.submitted]) (by simp [Job.submitted])
  | start active status =>
    refine recorded.next (fun _ => ?_) (fun h => ?_) (fun _ _ => ?_)
    · simp [Digest.after, Digest.ofJob, status, Job.started, Job.moved]
    · simpa [status, Job.started, Job.moved] using h
    · simp [Job.started, Job.moved]
  | refuse agent reason status =>
    refine recorded.next (fun _ => ?_) (fun h => ?_) (fun _ h => ?_)
    · simp [Digest.after, Digest.ofJob, status, Job.started, Job.failed, Job.moved]
    · simp [Job.failed, Job.moved]
    · simp [Job.failed, Job.moved] at h
  | advance snapshot status =>
    refine recorded.next (fun _ => ?_) (fun h => ?_) (fun h => ?_)
    · simp [Digest.ofJob, status, advanced]
    · exact h
    · exact h
  | announce snapshot status =>
    refine recorded.next (fun _ => ?_) (fun h => ?_) (fun h => ?_)
    · simp [Digest.after, Digest.ofJob, status, advanced]
    · exact h
    · exact h
  | hold =>
    rw [List.append_nil]
    exact recorded
  | @complete job done _ bytes status ended =>
    subst ended
    refine recorded.next (fun started => ?_) (fun h => ?_) (fun _ h => ?_)
    · obtain ⟨since, hsince⟩ := Option.isSome_iff_exists.1 (started (.inl status))
      simp [Digest.after, Digest.ofJob, status, Job.completed, Job.moved, Job.durationMs, hsince,
        Job.Status.isTerminal]
    · simpa [status, Job.completed, Job.moved] using h
    · simp [Job.completed, Job.moved] at h
  | fail reason status =>
    refine recorded.next (fun _ => ?_) (fun h => ?_) (fun _ h => ?_)
    · simp [Digest.after, Digest.ofJob, status, Job.failed, Job.moved]
    · simp [Job.failed, Job.moved]
    · simp [Job.failed, Job.moved] at h
  | withdraw status =>
    refine recorded.next (fun _ => ?_) (fun h => ?_) (fun _ h => ?_)
    · simp [Digest.after, Digest.ofJob, status, Job.moved]
    · simpa [status, Job.moved] using h
    · simp [Job.moved] at h
  | abandon status =>
    refine recorded.next (fun _ => ?_) (fun h => ?_) (fun _ h => ?_)
    · rcases status with status | status <;> simp [Digest.after, Digest.ofJob, status, Job.moved]
    · rcases status with status | status <;> simpa [status, Job.moved] using h
    · simp [Job.moved] at h
  | pause status =>
    refine recorded.next (fun _ => ?_) (fun h => ?_) (fun started _ => ?_)
    · simp [Digest.after, Digest.ofJob, status, Job.moved]
    · simpa [status, Job.moved] using h
    · exact started (.inl status)
  | resume resumed status =>
    refine recorded.next (fun _ => ?_) (fun h => ?_) (fun _ _ => ?_)
    · simp [Digest.after, Digest.ofJob, status, Job.moved]
    · simpa [status, Job.moved] using h
    · simp [Job.moved]

end Slice.Turn

/-! ## Runs -/

section Keeps

variable {σ : Type} {engine : Engine σ} {clock : Clock} {scope : Scope} {s t : Scene σ}

/-- The grounds of the turns that a job takes in a scope, under some settings. -/
structure Slice.Grounds.Within (grounds : Grounds) (scope : Scope) (config : Config)
    (id : Job.Id) : Prop where
  heard : grounds.heard = scope.heard id
  config : grounds.config = config
  advancing : grounds.advancing = scope.advancing

/-- What holds of a slice and a log, and still holds after each turn in the scope, holds after a
path in the scope. -/
theorem Path.keeps_within (P : Slice → List Notice → Prop) (id : Job.Id)
    (path : Path engine clock scope s t) (sound : s.queue.Sound)
    (turns : ∀ {grounds a b news log}, Slice.Turn clock grounds a news b →
      grounds.Within scope s.queue.config id → a.Fits → P a log → P b (log ++ news))
    (h : P (s.queue.slice id) (s.story id)) : P (t.queue.slice id) (t.story id) := by
  induction path with
  | refl => exact h
  | tail before move ih =>
    have sound := Path.sound before sound
    obtain ⟨news, turn, said⟩ := move.turn sound id
    rw [said]
    exact turns turn ⟨rfl, Path.config_eq before, rfl⟩ (sound.fits id) ih

/-- What holds of a slice and a log, and still holds after each turn, holds after a path. -/
theorem Path.keeps (P : Slice → List Notice → Prop) (id : Job.Id)
    (path : Path engine clock scope s t) (sound : s.queue.Sound)
    (turns : ∀ {grounds a b news log}, Slice.Turn clock grounds a news b → P a log →
      P b (log ++ news))
    (h : P (s.queue.slice id) (s.story id)) : P (t.queue.slice id) (t.story id) :=
  path.keeps_within P id sound (fun turn _ _ => turns turn) h

/-- What holds of a slice and a log, and still holds after each turn, holds all through a run. -/
theorem Run.keeps (P : Slice → List Notice → Prop) (id : Job.Id) (run : Run engine s t)
    (sound : s.queue.Sound)
    (turns : ∀ {clock grounds a b news log}, Slice.Turn clock grounds a news b → P a log →
      P b (log ++ news))
    (h : P (s.queue.slice id) (s.story id)) : P (t.queue.slice id) (t.story id) := by
  refine run.keeps_moves (P := fun s => P (s.queue.slice id) (s.story id)) sound
    (fun move sound before => ?_) (fun _ _ before => before) h
  obtain ⟨news, turn, said⟩ := move.turn sound id
  rw [said]
  exact turns turn before

end Keeps

section Logs

variable {σ : Type} {engine : Engine σ} {config : Config} {swarm : Swarm} {state : σ}
  {s t : Scene σ} {id : Job.Id} {job : Job}

/-- What is left to announce of a job completes its log to a life. -/
theorem Run.life (run : Run engine (.initial config swarm state) s) {rest : List Topic}
    (h : Remainder ((s.queue.job? id).map (·.status)) rest) :
    Life ((s.story id).map (·.topic) ++ rest) := by
  refine run.keeps (fun slice log => ∀ rest, Remainder (slice.job.map (·.status)) rest →
    Life (log.map (·.topic) ++ rest)) id (sound_initial config)
    (fun turn before rest h => ?_) (fun _ h => h) rest h
  rw [List.map_append, List.append_assoc]
  exact before _ (turn.remainder h)

theorem Run.recorded (run : Run engine (.initial config swarm state) s) :
    Recorded (s.queue.job? id) (s.story id) :=
  run.keeps (fun slice log => Recorded slice.job log) id (sound_initial config)
    (fun turn before => turn.recorded before) .unknown

/-- Nothing happens to a job that has ended. -/
theorem Run.ended (run : Run engine s t) (sound : s.queue.Sound)
    (found : s.queue.job? id = some job) (ended : job.status.isTerminal = true) :
    t.queue.job? id = some job ∧ t.story id = s.story id := by
  refine run.keeps (fun slice log => slice.job = some job ∧ log = s.story id) id sound
    (fun {_ _ a _ _ _} turn h => ?_) ⟨found, rfl⟩
  obtain ⟨hjob, rfl⟩ := h
  obtain ⟨rfl, rfl⟩ := turn.of_ended hjob ended
  exact ⟨hjob, List.append_nil _⟩

/-- At every point of a run from the beginning, the log of a job is the beginning of a life, and its
replay gives the record. Once the job has ended, neither ever changes. -/
theorem Run.log (run : Run engine (.initial config swarm state) s) (later : Run engine s t)
    (id : Job.Id) :
    (∃ life, Life life ∧ (s.story id).map (·.topic) <+: life) ∧
    (s.queue.job? id = none → s.story id = []) ∧
    ∀ job, s.queue.job? id = some job →
      replay (s.story id) = .ofJob job ∧ (job.error.isSome ↔ job.status = .failed) ∧
      (job.status.isTerminal = true → t.queue.job? id = some job ∧ t.story id = s.story id) := by
  have sound := (run.sound (sound_initial config)).1
  have recorded : Recorded (s.queue.job? id) (s.story id) := run.recorded
  refine ⟨?_, fun unknown => ?_, fun job found => ?_⟩
  · obtain ⟨rest, h⟩ := exists_remainder ((s.queue.job? id).map (·.status))
    exact ⟨_, run.life h, List.prefix_append _ _⟩
  · rw [unknown] at recorded
    generalize s.story id = log at recorded
    cases recorded
    rfl
  · rw [found] at recorded
    generalize hlog : s.story id = log at recorded
    cases recorded with
    | known replayed failed_iff _ =>
      refine ⟨replayed, failed_iff, fun ended => ?_⟩
      rw [← hlog]
      exact later.ended sound found ended

/-- A job is cancelled during a pause, and then its run ends. -/
theorem Run.log_of_cancelled :
    ∃ s t, Run Engine.Stub.engine (.initial {} loneSwarm Engine.Stub.standard) s ∧
      Run Engine.Stub.engine s t ∧
      (s.story ⟨1⟩).map (·.topic) = [.jobQueued, .jobStarted, .jobPaused, .jobCancelled] ∧
      ∃ job, s.queue.job? ⟨1⟩ = some job ∧ replay (s.story ⟨1⟩) = .ofJob job ∧
        t.queue.job? ⟨1⟩ = some job ∧ t.story ⟨1⟩ = s.story ⟨1⟩ := by
  have played : (play Engine.Stub.engine
      [.told (.epoch 0) (.submit ⟨1⟩ { targetPath := "notes" } .normal),
        .told (.epoch 1) (.pause ⟨1⟩), .left loneSwarm Engine.Stub.standard,
        .told (.epoch 2) (.cancel ⟨1⟩)]
      (.initial {} loneSwarm Engine.Stub.standard)).any (fun s =>
        (s.story ⟨1⟩).map (·.topic) = [.jobQueued, .jobStarted, .jobPaused, .jobCancelled] ∧
        (s.queue.job? ⟨1⟩).any (·.status.isTerminal) = true ∧
        (play Engine.Stub.engine [.told (.epoch 3) (.finished ⟨1⟩ (.completed 8))] s).isSome) =
      true := by
    decide +kernel
  obtain ⟨s, hs, facts⟩ := (Option.any_eq_true _ _).1 played
  obtain ⟨topics, ended, on⟩ := of_decide_eq_true facts
  obtain ⟨t, ht⟩ := Option.isSome_iff_exists.1 on
  obtain ⟨job, found, terminal⟩ := (Option.any_eq_true _ _).1 ended
  obtain ⟨-, -, known⟩ := Run.log (run_of_play hs) (run_of_play ht) ⟨1⟩
  obtain ⟨replayed, -, kept⟩ := known job found
  exact ⟨s, t, run_of_play hs, run_of_play ht, topics, job, found, replayed, kept terminal⟩

end Logs

end JobSwarm.Queue
