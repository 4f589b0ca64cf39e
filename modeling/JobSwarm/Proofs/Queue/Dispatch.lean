import JobSwarm.Proofs.Queue.Path
import JobSwarm.Queue.Pass

/-!
# The path of a pass

A pass looks at the queued jobs one after another. Each look is a trial, and what is not looked at
stays as it is.

Results:

* `consider_trial`: a look at a queued job is a trial of it.
* `dispatch_from`: the trials of a row of queued jobs.
* `pass_path`: a pass is a path on which jobs start.
-/

namespace JobSwarm.Queue

open Swarm (Session)
open Time (Instant Clock)

variable {σ : Type} {engine : Engine σ} {clock : Clock} {s t : Scene σ}

/-- What comes of a look at a queued job: the capabilities that are known to be out of agents
afterwards, and the scene. -/
inductive Trial (engine : Engine σ) (clock : Clock) (s : Scene σ) (blocked : List String)
    (job : Job) : List String → Scene σ → Prop
  | full (room : s.queue.hasRoom = false) : Trial engine clock s blocked job blocked s
  | waits (known : job.config.requiredCapability ∈ blocked) :
      Trial engine clock s blocked job blocked s
  | wants {session : Session} (unknown : job.config.requiredCapability ∉ blocked)
      (call : Session.acquireFor (taskOf s.queue job clock.wall) clock.wall s.toSession =
        .ok none session) :
      Trial engine clock s blocked job (job.config.requiredCapability :: blocked)
        { s with toSession := session }
  | begins {agent : Agent.Id} {session : Session} {t : Scene σ} (news : List Event.Notice)
      (room : s.queue.hasRoom = true) (unknown : job.config.requiredCapability ∉ blocked)
      (call : Session.acquireFor (taskOf s.queue job clock.wall) clock.wall s.toSession =
        .ok (some agent) session)
      (move : ∀ scope : Scope, scope.starting = true → Move engine clock scope s t)
      (said : t.announced = session.announced ++ .jobStarted job.id agent :: news)
      (calm : ∀ notice ∈ news, notice.topic ≠ .jobStarted)
      (left : t.queue.pending = (s.queue.withdraw job.id).pending)
      (others : ∀ id, id ≠ job.id → t.queue.slice id = s.queue.slice id)
      (kept : t.swarm = session.swarm ∨ ∃ told answer back, told.swarm = session.swarm ∧
        Session.release agent (.failed 0) clock.wall told = .ok answer back ∧
          t.swarm = back.swarm) :
      Trial engine clock s blocked job blocked t

section Consider

variable {job : Job} {agent : Agent.Id} {blocked blocked' : List String}

theorem refuseStart_ok {reason : String} {r : Unit} (status : job.status = .running)
    (h : refuseStart job agent reason clock s = .ok r t) :
    ∃ answer back, Session.release agent (.failed 0) clock.wall s.toSession = .ok answer back ∧
      t = { s with
        toSession := back.tell (.jobFailed job.id reason)
        queue := s.queue.putJob (job.failed reason clock.wall) } := by
  have hfail : { job with error := some reason : Job }.transition .failed clock.wall =
      .ok (job.failed reason clock.wall) :=
    Job.transition_eq_ok_iff.2 ⟨by rw [status]; rfl, rfl⟩
  simp only [refuseStart, hfail, Step.bind_eq_ok, Scene.modifyQueue_eq_ok, Scene.release_eq_ok,
    Scene.announce_eq_ok] at h
  obtain ⟨_, _, rfl, _, _, ⟨back, ⟨answer, hrelease⟩, rfl⟩, rfl⟩ := h
  exact ⟨answer, back, hrelease, rfl⟩

/-- A job that is to start has started, or the engine has refused it and it has failed. -/
theorem startJob_ok {task : Task} {timeout : UInt64} {r : Unit} (own : task.jobId = job.id)
    (found : s.queue.job? job.id = some job) (status : job.status = .queued)
    (h : startJob engine task timeout agent clock s = .ok r t) :
    (∃ handle state, engine.start job.config s.engineState = (.ok handle, state) ∧
      t = { s with
        toSession := s.toSession.tell (.jobStarted job.id agent)
        queue := (s.queue.putJob (job.started agent clock.wall)).activate
          { task := task, agentId := agent, handle := handle, timeoutSecs := timeout }
        engineState := state }) ∨
    ∃ refusal state answer back, engine.start job.config s.engineState = (.error refusal, state) ∧
      Session.release agent (.failed 0) clock.wall
        (s.toSession.tell (.jobStarted job.id agent)) = .ok answer back ∧
      t = { s with
        toSession := back.tell (.jobFailed job.id refusal.message)
        queue := s.queue.putJob ((job.started agent clock.wall).failed refusal.message clock.wall)
        engineState := state } := by
  have hstart : job.transition .running clock.wall = .ok (job.moved .running clock.wall) :=
    Job.transition_eq_ok_iff.2 ⟨by rw [status]; rfl, rfl⟩
  simp only [startJob, Step.bind_eq_ok, Step.get_eq_ok] at h
  obtain ⟨_, _, ⟨rfl, rfl⟩, h⟩ := h
  rw [← own] at found
  simp only [found, hstart, Step.bind_eq_ok, Scene.modifyQueue_eq_ok, Scene.announce_eq_ok,
    Scene.callEngine_eq_ok] at h
  obtain ⟨_, _, rfl, _, _, rfl, answer, _, ⟨state, hcall, rfl⟩, h⟩ := h
  cases answer with
  | ok handle =>
    obtain rfl := Scene.modifyQueue_eq_ok.1 h
    exact .inl ⟨handle, state, hcall, rfl⟩
  | error refusal =>
    obtain ⟨answer, back, hrelease, rfl⟩ := refuseStart_ok rfl h
    refine .inr ⟨refusal, state, answer, back, hcall, hrelease, ?_⟩
    have once : (s.queue.putJob (job.started agent clock.wall)).putJob
        ((job.started agent clock.wall).failed refusal.message clock.wall) =
          s.queue.putJob ((job.started agent clock.wall).failed refusal.message clock.wall) :=
      putJob_twice rfl
    rw [← once]
    rfl

/-- A look at a queued job is a trial of it. -/
theorem consider_trial (found : s.queue.job? job.id = some job) (status : job.status = .queued)
    (h : consider engine clock blocked (.ofJob job) s = .ok blocked' t) :
    Trial engine clock s blocked job blocked' t := by
  simp only [consider, Step.bind_eq_ok, Step.get_eq_ok] at h
  obtain ⟨_, _, ⟨rfl, rfl⟩, h⟩ := h
  split at h
  · next room =>
    obtain ⟨rfl, rfl⟩ := Step.pure_eq_ok.1 h
    exact .full (by simpa using room)
  next room =>
  have room : s.queue.hasRoom = true := by simpa using room
  have hjob : s.queue.job? (Pending.ofJob job).id = some job := found
  simp only [hjob] at h
  split at h
  · next known =>
    obtain ⟨rfl, rfl⟩ := Step.pure_eq_ok.1 h
    exact .waits (by simpa using known)
  next unknown =>
  have unknown : job.config.requiredCapability ∉ blocked := by simpa using unknown
  simp only [Step.bind_eq_ok, Scene.onSwarm_eq_ok] at h
  obtain ⟨given, _, ⟨session, call, rfl⟩, h⟩ := h
  cases given with
  | none =>
    obtain ⟨rfl, rfl⟩ := Step.pure_eq_ok.1 h
    exact .wants unknown call
  | some agent =>
    simp only [Step.bind_eq_ok, Scene.modifyQueue_eq_ok, Step.pure_eq_ok] at h
    obtain ⟨_, _, rfl, _, _, hstart, rfl, rfl⟩ := h
    obtain ⟨handle, state, run, rfl⟩ | ⟨refusal, state, answer, back, run, release, rfl⟩ :=
      startJob_ok (s := { s with toSession := session, queue := s.queue.withdraw job.id }) rfl found
        status hstart
    · refine .begins [] room unknown call (fun _ may => .start may room found status call run) rfl
        (by simp) rfl (fun id hne => ?_) (.inl rfl)
      change (((s.queue.withdraw job.id).putJob (job.started agent clock.wall)).activate
        (begun s.queue job agent handle clock.wall)).slice id = s.queue.slice id
      simp [slice_activate, slice_putJob, slice_withdraw, hne]
    · obtain ⟨notices, hback, quiet⟩ := Session.release_quiet release
      refine .begins (notices ++ [.jobFailed job.id refusal.message]) room unknown call
        (fun _ may => .refuse may room found status call run release) ?_ (fun notice hmem => ?_) rfl
        (fun id hne => ?_)
        (.inr ⟨session.tell (.jobStarted job.id agent), answer, back, rfl, release, rfl⟩)
      · simp [Session.tell, hback]
      · rcases List.mem_append.1 hmem with hmem | hmem
        · exact Event.Notice.topic_ne_jobStarted (quiet notice hmem)
        · obtain rfl := List.mem_singleton.1 hmem
          simp [Event.Notice.topic]
      · simp [slice_putJob, slice_withdraw, hne]

end Consider

/-! ## Rows of trials -/

namespace Trial

variable {job : Job} {blocked blocked' : List String} {entry : Pending}

theorem path {scope : Scope} (trial : Trial engine clock s blocked job blocked' t)
    (may : scope.starting = true) : Path engine clock scope s t := by
  cases trial with
  | full | waits => exact .refl
  | wants _ call => exact .single (.want call)
  | begins _ _ _ _ move => exact .single (move scope may)

/-- The other queued jobs wait on. -/
theorem waits_on (trial : Trial engine clock s blocked job blocked' t)
    (waits : entry ∈ s.queue.pending) (other : entry.id ≠ job.id) : entry ∈ t.queue.pending := by
  cases trial with
  | full | waits | wants => exact waits
  | begins _ _ _ _ _ _ _ left =>
    rw [left]
    exact List.mem_filter.2 ⟨waits, by simpa using other⟩

/-- Nobody waits who did not wait before. -/
theorem waited (trial : Trial engine clock s blocked job blocked' t)
    (waits : entry ∈ t.queue.pending) : entry ∈ s.queue.pending := by
  cases trial with
  | full | waits | wants => exact waits
  | begins _ _ _ _ _ _ _ left =>
    rw [left] at waits
    exact (List.mem_filter.1 waits).1

end Trial

/-- The trials of a row of queued jobs. -/
theorem dispatch_from {scope : Scope} {entries : List Pending} {blocked blocked' : List String}
    (sound : s.queue.Sound) (may : scope.starting = true)
    (waits : ∀ entry ∈ entries, entry ∈ s.queue.pending)
    (unique : (entries.map (·.id)).Nodup)
    (h : entries.foldlM (consider engine clock) blocked s = .ok blocked' t) :
    Path engine clock scope s t := by
  induction entries generalizing s blocked with
  | nil =>
    obtain ⟨-, rfl⟩ := Step.pure_eq_ok.1 h
    exact .refl
  | cons entry rest ih =>
    rw [List.foldlM_cons] at h
    obtain ⟨_, u, hfirst, hrest⟩ := Step.bind_eq_ok.1 h
    obtain ⟨hnew, hunique⟩ := List.nodup_cons.1 unique
    obtain ⟨job, found, status, rfl⟩ := sound.mem_pending_iff.1 (waits entry List.mem_cons_self)
    have trial := consider_trial found status hfirst
    have path : Path engine clock scope s u := trial.path may
    refine path.trans (ih (path.sound sound) (fun other hmem => ?_) hunique hrest)
    exact trial.waits_on (waits other (List.mem_cons_of_mem _ hmem)) fun heq =>
      hnew (List.mem_map.2 ⟨other, hmem, heq⟩)

theorem pass_path {scope : Scope} {r : Unit} (sound : s.queue.Sound)
    (may : scope.starting = true) (h : pass engine clock s = .ok r t) :
    Path engine clock scope s t := by
  simp only [pass, dispatch, Step.bind_eq_ok, Step.discard_eq_ok, Step.get_eq_ok,
    Scene.onSwarm_eq_ok] at h
  obtain ⟨_, u, hexpire, _, _, ⟨ids, session, hrecover, rfl⟩, _, _, ⟨rfl, rfl⟩, blocked, h⟩ := h
  have expired : Path engine clock scope s u := expireAll_path sound hexpire
  have recovered : Move engine clock scope u { u with toSession := session } := .recover hrecover
  have sound' := recovered.sound (expired.sound sound)
  exact (expired.tail recovered).trans
    (dispatch_from sound' may (fun _ hmem => hmem) sound'.pending_unique h)

end JobSwarm.Queue
