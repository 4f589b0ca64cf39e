import JobSwarm.Proofs.Queue.Turn
import JobSwarm.Queue.Pass
import JobSwarm.Queue.Request

/-!
# The moves of a queue

All that a queue does is made of a few moves. Each concerns one job, or none, and takes a sound
queue to a sound queue. Work that goes wrong is not among them.

Results:

* `Move.sound`: a move keeps a queue sound.
* `Move.turn`: a move is a turn of one job.
* `Move.config_eq`, `Move.mishaps_eq`: a move leaves the settings and the log of mishaps alone.
* `Move.said`: a move adds to what has been announced.
-/

namespace JobSwarm

open Time (Instant Clock)

namespace Queue

open Swarm (Session)

variable {σ : Type}

/-- What a started job holds. -/
def begun (queue : Queue) (job : Job) (agent : Agent.Id) (handle : Engine.Handle) (now : Instant) :
    Active where
  task := taskOf queue job now
  agentId := agent
  handle := handle
  timeoutSecs := queue.timeoutOf job.config

@[simp] theorem begun_jobId {queue : Queue} {job : Job} {agent : Agent.Id}
    {handle : Engine.Handle} {now : Instant} :
    (begun queue job agent handle now).jobId = job.id := rfl
@[simp] theorem begun_agentId {queue : Queue} {job : Job} {agent : Agent.Id}
    {handle : Engine.Handle} {now : Instant} :
    (begun queue job agent handle now).agentId = agent := rfl

/-- Which moves are open to a queue: whether jobs may start, of which jobs it has heard which
outcomes, and whether it hears of progress. Where nothing is said of the latter two, it may have
heard anything. -/
structure Scope where
  starting : Bool
  heard : Job.Id → Engine.Outcome → Prop := fun _ _ => True
  advancing : Bool := true

instance : Coe Bool Scope := ⟨fun starting => { starting := starting }⟩

/-- Why a running job fails: its run has failed, as was heard, or its time is over and the run was
given up. -/
inductive Cause (engine : Engine σ) (clock : Clock) (active : Active)
    (heard : Engine.Outcome → Prop) (state : σ) : String → σ → Prop
  | told (reason : String) (known : heard (.failed reason)) :
      Cause engine clock active heard state reason state
  | late (overdue : isExpired clock.wall active = true) :
      Cause engine clock active heard state (timeoutReason active.timeoutSecs)
        (engine.cancel active.handle state).2

theorem Cause.heard_or_stopped {engine : Engine σ} {clock : Clock} {active : Active}
    {heard : Engine.Outcome → Prop} {before after : σ} {reason : String}
    (cause : Cause engine clock active heard before reason after) :
    heard (.failed reason) ∨ after = (engine.cancel active.handle before).2 := by
  cases cause with
  | told _ known => exact .inl known
  | late => exact .inr rfl

/-- One move of a queue, of those in its scope. -/
inductive Move (engine : Engine σ) (clock : Clock) (scope : Scope) (s : Scene σ) :
    Scene σ → Prop
  /-- A job is taken in. -/
  | submit (job : Job)
      (new : job = .submitted job.id job.config job.priority job.sequence clock.wall)
      (next : addWord s.queue.sequence 1 = .ok job.sequence)
      (fresh : s.queue.job? job.id = none) :
      Move engine clock scope s { s with
        toSession := s.toSession.tell (.jobQueued job)
        queue := s.queue.add job }
  /-- Agents recover. -/
  | recover {ids : List Agent.Id} {session : Session}
      (call : Session.recover clock.wall s.toSession = .ok ids session) :
      Move engine clock scope s { s with toSession := session }
  /-- No agent is to be had for a job. -/
  | want {task : Task} {session : Session}
      (call : Session.acquireFor task clock.wall s.toSession = .ok none session) :
      Move engine clock scope s { s with toSession := session }
  /-- A job starts on an agent. -/
  | start {job : Job} {agent : Agent.Id} {session : Session} {handle : Engine.Handle} {state : σ}
      (may : scope.starting = true) (room : s.queue.hasRoom = true)
      (found : s.queue.job? job.id = some job) (status : job.status = .queued)
      (call : Session.acquireFor (taskOf s.queue job clock.wall) clock.wall s.toSession =
        .ok (some agent) session)
      (run : engine.start job.config s.engineState = (.ok handle, state)) :
      Move engine clock scope s { s with
        toSession := session.tell (.jobStarted job.id agent)
        queue := ((s.queue.withdraw job.id).putJob (job.started agent clock.wall)).activate
          (begun s.queue job agent handle clock.wall)
        engineState := state }
  /-- A job is to start on an agent, and the engine refuses. -/
  | refuse {job : Job} {agent : Agent.Id} {session back : Session} {refusal : Engine.Error}
      {state : σ} {answer : Except Swarm.Error Agent.Status} (may : scope.starting = true)
      (room : s.queue.hasRoom = true) (found : s.queue.job? job.id = some job)
      (status : job.status = .queued)
      (call : Session.acquireFor (taskOf s.queue job clock.wall) clock.wall s.toSession =
        .ok (some agent) session)
      (run : engine.start job.config s.engineState = (.error refusal, state))
      (release : Session.release agent (.failed 0) clock.wall
        (session.tell (.jobStarted job.id agent)) = .ok answer back) :
      Move engine clock scope s { s with
        toSession := back.tell (.jobFailed job.id refusal.message)
        queue := (s.queue.withdraw job.id).putJob
          ((job.started agent clock.wall).failed refusal.message clock.wall)
        engineState := state }
  /-- A job gets on, and nothing is said of it. -/
  | advance {job : Job} {active : Active} {snapshot : Engine.Snapshot}
      (found : s.queue.job? job.id = some job) (holds : s.queue.active? job.id = some active)
      (status : job.status = .running)
      (news : ¬snapshot.bytesProcessed < job.progress.bytesProcessed)
      (quiet : mayAnnounce s.queue.config active clock = false) (may : scope.advancing = true) :
      Move engine clock scope s
        { s with queue := s.queue.putJob (advanced job snapshot clock.wall) }
  /-- A job gets on, and its progress is announced. -/
  | announce {job : Job} {active : Active} {snapshot : Engine.Snapshot}
      (found : s.queue.job? job.id = some job) (holds : s.queue.active? job.id = some active)
      (status : job.status = .running)
      (news : ¬snapshot.bytesProcessed < job.progress.bytesProcessed)
      (due : mayAnnounce s.queue.config active clock = true) (may : scope.advancing = true) :
      Move engine clock scope s { s with
        toSession := s.toSession.tell
          (.progressUpdated job.id (advanced job snapshot clock.wall).progress)
        queue := (s.queue.putJob (advanced job snapshot clock.wall)).modifyActive job.id
          fun active => { active with announcedAt := some clock.steady } }
  /-- The run of a paused job has ended. -/
  | hold {job : Job} {outcome : Engine.Outcome} (found : s.queue.job? job.id = some job)
      (status : job.status = .paused) (heard : scope.heard job.id outcome) :
      Move engine clock scope s { s with
        queue := s.queue.modifyActive job.id fun active => { active with held := some outcome } }
  /-- A running job is complete. -/
  | complete {job done : Job} {active : Active} {bytes total count : UInt64} {session : Session}
      {answer : Except Swarm.Error Agent.Status}
      (found : s.queue.job? job.id = some job) (holds : s.queue.active? job.id = some active)
      (status : job.status = .running) (ended : job.completed bytes clock.wall = done)
      (sum : addWord s.queue.completedMs (done.durationMs.getD 0) = .ok total)
      (next : addWord s.queue.completedCount 1 = .ok count)
      (release : Session.release active.agentId (.succeeded (done.durationMs.getD 0)) clock.wall
        s.toSession = .ok answer session) (heard : scope.heard job.id (.completed bytes)) :
      Move engine clock scope s { s with
        toSession := session.tell
          (.jobCompleted job.id (done.durationMs.getD 0) done.progress.bytesProcessed)
        queue := { (s.queue.retire job.id).putJob done with
          completedMs := total, completedCount := count } }
  /-- A running job has failed. -/
  | fail {job done : Job} {active : Active} {reason : String} {session : Session} {state : σ}
      {answer : Except Swarm.Error Agent.Status}
      (found : s.queue.job? job.id = some job) (holds : s.queue.active? job.id = some active)
      (status : job.status = .running) (ended : job.failed reason clock.wall = done)
      (cause : Cause engine clock active (scope.heard job.id) s.engineState reason state)
      (release : Session.release active.agentId (.failed (done.durationMs.getD 0)) clock.wall
        s.toSession = .ok answer session) :
      Move engine clock scope s { s with
        toSession := session.tell (.jobFailed job.id reason)
        queue := (s.queue.retire job.id).putJob done
        engineState := state }
  /-- A queued job is cancelled. -/
  | withdraw {job : Job} (found : s.queue.job? job.id = some job) (status : job.status = .queued) :
      Move engine clock scope s { s with
        toSession := s.toSession.tell (.jobCancelled job.id)
        queue := (s.queue.putJob (job.moved .cancelled clock.wall)).withdraw job.id }
  /-- An active job is cancelled. -/
  | abandon {job : Job} {active : Active} {session : Session}
      {answer : Except Swarm.Error Agent.Status}
      (found : s.queue.job? job.id = some job) (holds : s.queue.active? job.id = some active)
      (status : job.status = .running ∨ job.status = .paused)
      (release : Session.release active.agentId .cancelled clock.wall s.toSession =
        .ok answer session) :
      Move engine clock scope s { s with
        toSession := session.tell (.jobCancelled job.id)
        queue := (s.queue.putJob (job.moved .cancelled clock.wall)).retire job.id
        engineState := (engine.cancel active.handle s.engineState).2 }
  /-- A running job pauses. -/
  | pause {job : Job} {active : Active} {state : σ} (found : s.queue.job? job.id = some job)
      (holds : s.queue.active? job.id = some active) (status : job.status = .running)
      (run : engine.suspend active.handle s.engineState = (.ok (), state)) :
      Move engine clock scope s { s with
        toSession := s.toSession.tell (.jobPaused job.id)
        queue := (s.queue.putJob (job.moved .paused clock.wall)).modifyActive job.id
          fun active => { active with pausedAt := some clock.steady }
        engineState := state }
  /-- A paused job goes on. -/
  | resume {job : Job} {active : Active} {state : σ} (found : s.queue.job? job.id = some job)
      (holds : s.queue.active? job.id = some active) (status : job.status = .paused)
      (run : wake engine active s = .ok (.ok ()) { s with engineState := state }) :
      Move engine clock scope s { s with
        toSession := s.toSession.tell (.jobResumed job.id)
        queue := (s.queue.putJob (job.moved .running clock.wall)).modifyActive job.id
          (·.resumed clock)
        engineState := state }
  /-- The engine refuses to suspend the run of a running job. -/
  | keepOn {job : Job} {active : Active} {refusal : Engine.Error} {state : σ}
      (found : s.queue.job? job.id = some job) (holds : s.queue.active? job.id = some active)
      (status : job.status = .running)
      (run : engine.suspend active.handle s.engineState = (.error refusal, state)) :
      Move engine clock scope s { s with engineState := state }
  /-- The engine refuses to resume the run of a paused job. -/
  | keepStill {job : Job} {active : Active} {refusal : Engine.Error} {state : σ}
      (found : s.queue.job? job.id = some job) (holds : s.queue.active? job.id = some active)
      (status : job.status = .paused)
      (run : engine.resume active.handle s.engineState = (.error refusal, state)) :
      Move engine clock scope s { s with engineState := state }

namespace Move

variable {engine : Engine σ} {clock : Clock} {scope : Scope} {s t : Scene σ}

/-! ## One turn of one job -/

/-- What the turns of a job rest on in a move from one scene to another. -/
def grounds (engine : Engine σ) (scope : Scope) (s t : Scene σ) (id : Job.Id) : Slice.Grounds where
  heard := scope.heard id
  stopped handle := t.engineState = (engine.cancel handle s.engineState).2
  config := s.queue.config
  advancing := scope.advancing

/-- A change for one job alone is a turn of that job. -/
theorem turn_of_own {queue : Queue} {session : Session} {own : Job.Id} {old new : Slice}
    {grounds : Job.Id → Slice.Grounds} {news : List Event.Notice} (before : s.queue.slice own = old)
    (after : ∀ id, queue.slice id = if id = own then new else s.queue.slice id)
    (said : ∀ id, session.story id = if id = own then s.story id ++ news else s.story id)
    (turn : Slice.Turn clock (grounds own) old news new) (id : Job.Id) :
    ∃ news, Slice.Turn clock (grounds id) (s.queue.slice id) news (queue.slice id) ∧
      session.story id = s.story id ++ news := by
  by_cases h : id = own
  · refine ⟨news, ?_, by rw [said, if_pos h]⟩
    rw [after, if_pos h, h, before]
    exact turn
  · refine ⟨[], ?_, by rw [said, if_neg h, List.append_nil]⟩
    rw [after, if_neg h]
    exact .still

/-- A move is a turn of one job, and no other job has a part in it. -/
theorem turn (move : Move engine clock scope s t) (sound : s.queue.Sound) (id : Job.Id) :
    ∃ news, Slice.Turn clock (grounds engine scope s t id) (s.queue.slice id) news
        (t.queue.slice id) ∧
      t.story id = s.story id ++ news := by
  have unsaid {session : Session} (own : Job.Id) (quiet : s.Quiet session) (id : Job.Id) :
      session.story id = if id = own then s.story id ++ [] else s.story id := by
    rw [List.append_nil, ite_self, quiet.story]
  have told {session : Session} {own : Job.Id} {notice : Event.Notice} (quiet : s.Quiet session)
      (about : notice.jobId? = some own) (id : Job.Id) :
      (session.tell notice).story id = if id = own then s.story id ++ [notice] else s.story id := by
    rw [Session.story_tell about, quiet.story]
  cases move with
  | submit job new _ fresh =>
    have own := sound.slice_unknown fresh
    refine turn_of_own own (fun id => ?_) (told (.refl _) rfl) (.submit new) id
    rw [slice_add]
    split
    · next h =>
      have waiting : ((s.queue.add job).slice job.id).waiting = [.ofJob job] :=
        waiting_add (by rw [own])
      rw [h, waiting, own]
      rfl
    · rfl
  | recover call =>
    exact ⟨[], .still, by rw [(Session.recover_ok call).quiet.story, List.append_nil]⟩
  | want call => exact ⟨[], .still, by rw [(Session.acquire_quiet call).story, List.append_nil]⟩
  | @start job agent session handle state may room found status call run =>
    have own := sound.slice_queued found status
    refine turn_of_own own (fun id => ?_) (told (Session.acquire_quiet call) rfl)
      (.start (begun s.queue job agent handle clock.wall) status rfl rfl rfl rfl rfl) id
    by_cases h : id = job.id <;> simp [slice_activate, slice_putJob, slice_withdraw, h, own]
  | @refuse job agent session back refusal state answer may room found status call run release =>
    have own := sound.slice_queued found status
    refine turn_of_own own (fun id => ?_) (fun id => ?_) (.refuse agent refusal status) id
    · by_cases h : id = job.id <;> simp [slice_putJob, slice_withdraw, h, own]
    · rw [Session.story_tell rfl, (Session.release_quiet release).story,
        told (Session.acquire_quiet call) rfl]
      split <;> simp
  | @advance job active snapshot found holds status news quiet may =>
    have own := sound.slice_active found holds
    refine turn_of_own own (fun id => ?_) (unsaid _ (.refl _))
      (.advance snapshot status news (by exact quiet) (by exact may)) id
    by_cases h : id = job.id <;> simp [slice_putJob, h, own]
  | @announce job active snapshot found holds status news due may =>
    have own := sound.slice_active found holds
    refine turn_of_own own (fun id => ?_) (told (.refl _) rfl)
      (.announce snapshot status news (by exact due) (by exact may)) id
    refine Eq.trans (slice_modifyActive fun _ => rfl) ?_
    by_cases h : id = job.id <;> simp [slice_putJob, h, own]
  | @hold job outcome found status heard =>
    obtain ⟨active, holds, -⟩ := sound.holds_of_paused found status
    have own := sound.slice_active found holds
    refine turn_of_own own (fun id => ?_) (unsaid _ (.refl _)) (.hold outcome status heard) id
    refine Eq.trans (slice_modifyActive fun _ => rfl) ?_
    by_cases h : id = job.id <;> simp [h, own]
  | @complete job done active bytes total count _ _ found holds status ended _ _ release heard =>
    have own := sound.slice_active found holds
    have hid : done.id = job.id := by rw [← ended, Job.completed_id]
    refine turn_of_own own (fun id => ?_) (told (Session.release_quiet release) rfl)
      (.complete status ended heard) id
    have counts : ({ (s.queue.retire job.id).putJob done with
        completedMs := total, completedCount := count } : Queue).slice id =
          ((s.queue.retire job.id).putJob done).slice id := rfl
    rw [counts]
    by_cases h : id = job.id <;> simp [slice_putJob, slice_retire, hid, h, own]
  | @fail job done active reason session state answer found holds status ended cause release =>
    have own := sound.slice_active found holds
    subst ended
    refine turn_of_own own (fun id => ?_) (told (Session.release_quiet release) rfl)
      (.fail reason status cause.heard_or_stopped) id
    by_cases h : id = job.id <;> simp [slice_putJob, slice_retire, h, own]
  | @withdraw job found status =>
    have own := sound.slice_queued found status
    refine turn_of_own own (fun id => ?_) (told (.refl _) rfl) (.withdraw status) id
    by_cases h : id = job.id <;> simp [slice_putJob, slice_withdraw, h, own]
  | @abandon job active session answer found holds status release =>
    have own := sound.slice_active found holds
    refine turn_of_own own (fun id => ?_) (told (Session.release_quiet release) rfl)
      (.abandon status rfl) id
    by_cases h : id = job.id <;> simp [slice_putJob, slice_retire, h, own]
  | @pause job active state found holds status run =>
    have own := sound.slice_active found holds
    refine turn_of_own own (fun id => ?_) (told (.refl _) rfl) (.pause status) id
    refine Eq.trans (slice_modifyActive fun _ => rfl) ?_
    by_cases h : id = job.id <;> simp [slice_putJob, h, own]
  | @resume job active state found holds status run =>
    have own := sound.slice_active found holds
    refine turn_of_own own (fun id => ?_) (told (.refl _) rfl)
      (.resume (active.resumed clock) status rfl rfl rfl rfl rfl) id
    refine Eq.trans (slice_modifyActive fun _ => rfl) ?_
    by_cases h : id = job.id <;> simp [slice_putJob, h, own]
  | keepOn | keepStill => exact ⟨[], .still, (List.append_nil _).symm⟩

/-! ## Soundness -/

theorem regular (move : Move engine clock scope s t) (sound : s.queue.Sound) :
    t.queue.Regular := by
  have regular := sound.toRegular
  cases move with
  | submit job new next fresh =>
    have hnext := (addWord_eq_ok_iff _ _ _).1 next
    refine regular.add fresh hnext fun entry hmem heq => ?_
    obtain ⟨other, found, -, rfl⟩ := sound.mem_pending_iff.1 hmem
    have hle := sound.sequence_le (Keyed.mem_of_find? found).1
    have hsame : other.sequence.toNat = job.sequence.toNat := congrArg UInt64.toNat heq
    have hone : (1 : UInt64).toNat = 1 := rfl
    omega
  | recover | want | keepOn | keepStill => exact regular
  | @start job agent session handle state may room found status call run =>
    have own := sound.slice_queued found status
    refine ((regular.withdraw).putJob (job.started agent clock.wall) found rfl).activate room ?_
    exact congrArg Slice.active own
  | refuse may room found status call run release => exact (regular.withdraw).putJob _ found rfl
  | advance found => exact regular.putJob _ found rfl
  | announce found => exact Regular.modifyActive (regular.putJob _ found rfl) fun _ => rfl
  | hold => exact Regular.modifyActive regular fun _ => rfl
  | @complete job done _ _ _ _ _ _ found _ _ ended =>
    have kept : ((s.queue.retire job.id).putJob done).Regular := by
      subst ended
      exact regular.retire.putJob _ found rfl
    exact { kept with }
  | fail found _ _ ended =>
    subst ended
    exact regular.retire.putJob _ found rfl
  | withdraw found => exact Regular.withdraw (regular.putJob _ found rfl)
  | abandon found => exact Regular.retire (regular.putJob _ found rfl)
  | pause found => exact Regular.modifyActive (regular.putJob _ found rfl) fun _ => rfl
  | resume found => exact Regular.modifyActive (regular.putJob _ found rfl) fun _ => rfl

theorem sound (move : Move engine clock scope s t) (sound : s.queue.Sound) : t.queue.Sound where
  toRegular := move.regular sound
  fits id := by
    obtain ⟨_, turn, -⟩ := move.turn sound id
    exact turn.fits (sound.fits id)

theorem config_eq (move : Move engine clock scope s t) : t.queue.config = s.queue.config := by
  cases move <;> rfl

theorem initialized_eq (move : Move engine clock scope s t) :
    t.swarm.initialized = s.swarm.initialized := by
  cases move with
  | recover call => exact (Session.recover_ok call).initialized
  | want call | start _ _ _ _ call =>
    have same := Session.acquire_initialized call
    exact same
  | refuse _ _ _ _ call _ release =>
    have same := Session.acquire_initialized call
    exact (Session.release_initialized release).trans same
  | complete _ _ _ _ _ _ release | fail _ _ _ _ _ release | abandon _ _ _ release =>
    have same := Session.release_initialized release
    exact same
  | submit | advance | announce | hold | withdraw | pause | resume | keepOn | keepStill => rfl

theorem mishaps_eq (move : Move engine clock scope s t) : t.mishaps = s.mishaps := by
  cases move <;> rfl

/-! ## Announcements -/

/-- A move adds to what has been announced. No job starts by a move that may not start one. -/
theorem said (move : Move engine clock scope s t) :
    ∃ news, t.announced = s.announced ++ news ∧
      (scope.starting = false → ∀ notice ∈ news, notice.topic ≠ .jobStarted) := by
  have quietly {session : Session} (quiet : s.Quiet session) :
      ∃ news, session.announced = s.announced ++ news ∧
        (scope.starting = false → ∀ notice ∈ news, notice.topic ≠ .jobStarted) := by
    obtain ⟨news, hnews, quiet⟩ := quiet
    exact ⟨news, hnews, fun _ notice hmem => Event.Notice.topic_ne_jobStarted (quiet notice hmem)⟩
  have telling {session : Session} (quiet : s.Quiet session) (notice : Event.Notice)
      (other : notice.topic ≠ .jobStarted) :
      ∃ news, (session.tell notice).announced = s.announced ++ news ∧
        (scope.starting = false → ∀ notice ∈ news, notice.topic ≠ .jobStarted) := by
    obtain ⟨news, hnews, calm⟩ := quietly quiet
    refine ⟨news ++ [notice], by rw [Session.tell, hnews, List.append_assoc], fun h n hmem => ?_⟩
    rcases List.mem_append.1 hmem with hmem | hmem
    · exact calm h n hmem
    · rw [List.mem_singleton.1 hmem]
      exact other
  cases move with
  | submit | announce | withdraw | pause | resume =>
    exact telling (.refl _) _ (by simp [Event.Notice.topic])
  | complete _ _ _ _ _ _ release | fail _ _ _ _ _ release | abandon _ _ _ release =>
    exact telling (Session.release_quiet release) _ (by simp [Event.Notice.topic])
  | recover call => exact quietly (Session.recover_ok call).quiet
  | want call => exact quietly (Session.acquire_quiet call)
  | start may _ _ _ call =>
    obtain ⟨news, hnews, -⟩ := quietly (Session.acquire_quiet call)
    refine ⟨_, by rw [Session.tell, hnews, List.append_assoc], fun h => ?_⟩
    rw [may] at h
    cases h
  | refuse may _ _ _ call _ release =>
    obtain ⟨news, hnews, -⟩ := quietly (Session.acquire_quiet call)
    obtain ⟨more, hmore, -⟩ := Session.release_quiet release
    refine ⟨_, by rw [Session.tell, hmore, Session.tell, hnews, List.append_assoc,
      List.append_assoc, List.append_assoc], fun h => ?_⟩
    rw [may] at h
    cases h
  | advance | hold | keepOn | keepStill => exact quietly (.refl _)

end Move

end Queue

end JobSwarm
