import JobSwarm.Engine.Stub
import JobSwarm.Proofs.Queue.Handle

/-!
# Runs of a queue

A run of a queue begins without jobs. The queue handles messages, in any order and at any time, and
may be drained. Between two messages the swarm and the engine belong to others.

Results:

* `Run.sound`: the queue is sound at every point of a run.
* `Run.keeps_moves`: what each move keeps, a run keeps.
* `Run.consistent`: at every point of a run the records, the waiting entries and what active jobs
  hold agree, and nothing has gone wrong.
-/

namespace JobSwarm.Queue

open Time (Clock)

variable {σ : Type} {engine : Engine σ} {s t : Scene σ}

/-- A queue before its first message. -/
def Scene.initial (config : Config) (swarm : Swarm) (engineState : σ) : Scene σ where
  swarm := swarm
  queue := { config := config }
  engineState := engineState

/-- From one message to the next. -/
inductive Proceeds (engine : Engine σ) (s : Scene σ) : Scene σ → Prop
  | handles (clock : Clock) (message : Message) {reply : Reply} {t : Scene σ}
      (fresh : message.IsFresh s.queue) (call : handle engine clock message s = .ok reply t) :
      Proceeds engine s t
  | drains (clock : Clock) {t : Scene σ} (call : drain engine clock s = .ok () t) :
      Proceeds engine s t
  /-- Others use the swarm and the engine. -/
  | waits (swarm : Swarm) (engineState : σ) :
      Proceeds engine s { s with swarm := swarm, engineState := engineState }

/-- A run from one scene to another. -/
abbrev Run (engine : Engine σ) : Scene σ → Scene σ → Prop :=
  Relation.ReflTransGen (Proceeds engine)

/-- How the collections of a queue agree. -/
structure Consistent (queue : Queue) : Prop where
  /-- The records have different identifiers. -/
  jobs_once : (queue.jobs.map (·.id)).Nodup
  /-- One entry waits for each queued job, with its priority and number, and no other waits. -/
  pending_iff : ∀ entry, entry ∈ queue.pending ↔
    ∃ job ∈ queue.jobs, job.status = .queued ∧ entry = ⟨job.id, job.priority, job.sequence⟩
  pending_once : queue.pending.Nodup
  /-- The jobs that hold something are those that run or have paused. -/
  active_iff : ∀ id, id ∈ queue.active.map (·.jobId) ↔
    ∃ job ∈ queue.jobs, job.id = id ∧ (job.status = .running ∨ job.status = .paused)
  active_once : (queue.active.map (·.jobId)).Nodup
  /-- The agent that is held is the agent of the record. -/
  agent_eq : ∀ active ∈ queue.active, ∀ job ∈ queue.jobs, job.id = active.jobId →
    job.agentId = some active.agentId
  room : queue.active.length ≤ queue.config.concurrency.toNat
  /-- A pause has begun for the paused jobs alone. -/
  pausedAt_iff : ∀ active ∈ queue.active, ∀ job ∈ queue.jobs, job.id = active.jobId →
    (active.pausedAt.isSome ↔ job.status = .paused)
  /-- An outcome is held for paused jobs alone. -/
  paused_of_held : ∀ active ∈ queue.active, ∀ job ∈ queue.jobs, job.id = active.jobId →
    active.held.isSome → job.status = .paused

/-! ## Soundness -/

section Sound

variable {queue : Queue} {job : Job} {active : Active}

theorem sound_initial (config : Config) : Sound { config := config } where
  jobs_unique := .nil
  active_unique := .nil
  numbered := rfl
  counted := rfl
  ordered := .nil
  room := Nat.zero_le _
  fits _ := .unknown

theorem Sound.job?_of_mem (sound : queue.Sound) (h : job ∈ queue.jobs) :
    queue.job? job.id = some job :=
  Keyed.find?_of_mem sound.jobs_unique h

theorem Sound.active?_of_mem (sound : queue.Sound) (h : active ∈ queue.active) :
    queue.active? active.jobId = some active :=
  Keyed.find?_of_mem sound.active_unique h

/-- The record of a job that holds something. -/
theorem Sound.job_of_mem_active (sound : queue.Sound) (hactive : active ∈ queue.active)
    (hjob : job ∈ queue.jobs) (h : job.id = active.jobId) :
    job.agentId = some active.agentId ∧
      (job.status = .running ∧ active.pausedAt = none ∧ active.held = none ∨
        job.status = .paused ∧ active.pausedAt.isSome) := by
  obtain ⟨job', found, agent, state⟩ := sound.job_of_active (sound.active?_of_mem hactive)
  rw [← h, sound.job?_of_mem hjob] at found
  cases found
  exact ⟨agent, state⟩

theorem Sound.toConsistent (sound : queue.Sound) : queue.Consistent where
  jobs_once := sound.jobs_unique
  pending_iff entry := by
    rw [sound.mem_pending_iff]
    constructor
    · rintro ⟨job, found, status, rfl⟩
      exact ⟨job, (Keyed.mem_of_find? found).1, status, rfl⟩
    · rintro ⟨job, hmem, status, rfl⟩
      exact ⟨job, sound.job?_of_mem hmem, status, rfl⟩
  pending_once := .of_map _ sound.pending_unique
  active_iff id := by
    constructor
    · intro hmem
      obtain ⟨active, hactive, rfl⟩ := List.mem_map.1 hmem
      obtain ⟨job, found, -, state⟩ := sound.job_of_active (sound.active?_of_mem hactive)
      exact ⟨job, (Keyed.mem_of_find? found).1, job?_id found, state.imp And.left And.left⟩
    · rintro ⟨job, hmem, rfl, status | status⟩
      · obtain ⟨active, holds, -⟩ := sound.holds_of_running (sound.job?_of_mem hmem) status
        exact List.mem_map.2 ⟨active, (Keyed.mem_of_find? holds).1, active?_jobId holds⟩
      · obtain ⟨active, holds, -⟩ := sound.holds_of_paused (sound.job?_of_mem hmem) status
        exact List.mem_map.2 ⟨active, (Keyed.mem_of_find? holds).1, active?_jobId holds⟩
  active_once := sound.active_unique
  agent_eq active hactive job hjob h := (sound.job_of_mem_active hactive hjob h).1
  room := sound.room
  pausedAt_iff active hactive job hjob h := by
    rcases (sound.job_of_mem_active hactive hjob h).2 with ⟨status, free, -⟩ | ⟨status, since⟩
    · simp [status, free]
    · simp [status, since]
  paused_of_held active hactive job hjob h held := by
    rcases (sound.job_of_mem_active hactive hjob h).2 with ⟨-, -, unheld⟩ | ⟨status, -⟩
    · rw [unheld] at held
      cases held
    · exact status

end Sound

/-! ## Runs -/

/-- From one message to the next a sound queue stays sound, and nothing goes wrong. -/
theorem Proceeds.sound (step : Proceeds engine s t) (sound : s.queue.Sound) :
    t.queue.Sound ∧ t.queue.config = s.queue.config ∧ t.mishaps = s.mishaps := by
  cases step with
  | handles clock message fresh call =>
    have path := handle_path sound fresh call
    exact ⟨path.sound sound, path.config_eq, path.mishaps_eq⟩
  | drains clock call =>
    have path : Path engine clock false s t := drain_path sound call
    exact ⟨path.sound sound, path.config_eq, path.mishaps_eq⟩
  | waits => exact ⟨sound, rfl, rfl⟩

theorem Run.sound (run : Run engine s t) (sound : s.queue.Sound) :
    t.queue.Sound ∧ t.queue.config = s.queue.config ∧ t.mishaps = s.mishaps := by
  induction run with
  | refl => exact ⟨sound, rfl, rfl⟩
  | tail _ step ih =>
    obtain ⟨sound', config, mishaps⟩ := ih
    obtain ⟨sound'', config', mishaps'⟩ := step.sound sound'
    exact ⟨sound'', config'.trans config, mishaps'.trans mishaps⟩

/-- What each move keeps, and what the others leave alone, is kept all through a run. -/
theorem Run.keeps_moves {P : Scene σ → Prop} (run : Run engine s t) (sound : s.queue.Sound)
    (moves : ∀ {clock scope s t}, Move engine clock scope s t → s.queue.Sound → P s → P t)
    (waits : ∀ {s} swarm engineState,
      P s → P { s with swarm := swarm, engineState := engineState }) (h : P s) : P t := by
  induction run with
  | refl => exact h
  | tail before step ih =>
    have sound := (Run.sound before sound).1
    cases step with
    | handles clock message fresh call =>
      exact (handle_path sound fresh call).keeps_moves sound moves ih
    | drains clock call =>
      have path : Path engine clock false _ _ := drain_path sound call
      exact path.keeps_moves sound moves ih
    | waits swarm engineState => exact waits swarm engineState ih

/-- At every point of a run from the beginning, the collections of the queue agree, and no job could
not be started, completed or failed. -/
theorem Run.consistent {config : Config} {swarm : Swarm} {state : σ}
    (run : Run engine (.initial config swarm state) s) :
    s.queue.Consistent ∧ s.queue.config = config ∧ s.mishaps = [] := by
  obtain ⟨sound, same, mishaps⟩ := run.sound (sound_initial config)
  exact ⟨sound.toConsistent, same, mishaps⟩

/-! ## Computed runs -/

/-- What may come next in a run. -/
inductive Input (σ : Type) where
  | told (clock : Clock) (message : Message)
  | drained (clock : Clock)
  | left (swarm : Swarm) (engineState : σ)

/-- What comes of an input. -/
def Input.take (engine : Engine σ) : Input σ → Step (Scene σ) Unit
  | .told clock message => discard (handle engine clock message)
  | .drained clock => drain engine clock
  | .left swarm engineState =>
    modify fun s => { s with swarm := swarm, engineState := engineState }

instance (message : Message) (queue : Queue) : Decidable (message.IsFresh queue) :=
  match message with
  | .submit .. => inferInstanceAs (Decidable (_ = none))
  | .cancel _ | .pause _ | .resume _ | .progress .. | .finished .. | .schedule =>
    inferInstanceAs (Decidable True)

/-- Whether an input brings no job that the queue knows already. -/
def Input.isFresh (queue : Queue) : Input σ → Bool
  | .told _ message => message.IsFresh queue
  | .drained _ | .left .. => true

/-- The scene after some inputs, unless a job was not new or a sum did not fit. -/
def play (engine : Engine σ) : List (Input σ) → Scene σ → Option (Scene σ)
  | [], s => some s
  | input :: rest, s =>
    if input.isFresh s.queue then
      match input.take engine s with
      | .ok _ t => play engine rest t
      | .error .. => none
    else none

/-- One message, played. -/
theorem handle_of_play {clock : Clock} {message : Message}
    (h : play engine [.told clock message] s = some t) :
    message.IsFresh s.queue ∧ ∃ reply, handle engine clock message s = .ok reply t := by
  rw [play] at h
  split at h
  · next fresh =>
    split at h
    · next u htake =>
      cases h
      exact ⟨of_decide_eq_true fresh, Step.discard_eq_ok.1 htake⟩
    · cases h
  · cases h

/-- The scene after some inputs is reached by a run. -/
theorem run_of_play {inputs : List (Input σ)} (h : play engine inputs s = some t) :
    Run engine s t := by
  induction inputs generalizing s with
  | nil =>
    cases h
    exact .refl
  | cons input rest ih =>
    rw [play] at h
    split at h
    · next fresh =>
      split at h
      · next u htake =>
        refine Relation.ReflTransGen.head ?_ (ih h)
        cases input with
        | told clock message =>
          obtain ⟨reply, call⟩ := Step.discard_eq_ok.1 htake
          exact .handles clock message (of_decide_eq_true fresh) call
        | drained clock => exact .drains clock htake
        | left swarm engineState =>
          cases Step.modify_eq_ok.1 htake
          exact .waits swarm engineState
      · cases h
    · cases h

/-- A swarm of one agent. -/
def loneSwarm : Swarm where
  toRegistry := .ofAgents [.fresh ⟨"lz-swift-full-1"⟩ .fast "compress" 0 Time.Instant.epoch]
    (List.nodup_singleton _)
  config := {}
  initialized := true

/-- A job starts, pauses, and learns during the pause that its run has ended. -/
theorem Run.consistent_of_held :
    ∃ s, Run Engine.Stub.engine (.initial {} loneSwarm Engine.Stub.standard) s ∧
      s.queue.active.map (·.held) = [some (.completed 8)] ∧
      s.queue.Consistent ∧ s.queue.config = {} ∧ s.mishaps = [] := by
  have played : (play Engine.Stub.engine
      [.told (.epoch 0) (.submit ⟨1⟩ { targetPath := "notes" } .normal),
        .told (.epoch 1) (.pause ⟨1⟩),
        .told (.epoch 2) (.finished ⟨1⟩ (.completed 8))]
      (.initial {} loneSwarm Engine.Stub.standard)).any
        (fun s => s.queue.active.map (·.held) = [some (.completed 8)]) = true := by
    decide +kernel
  obtain ⟨s, hs, held⟩ := (Option.any_eq_true _ _).1 played
  exact ⟨s, run_of_play hs, of_decide_eq_true held, Run.consistent (run_of_play hs)⟩

end JobSwarm.Queue
