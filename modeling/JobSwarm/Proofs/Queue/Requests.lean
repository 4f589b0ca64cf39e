import JobSwarm.Proofs.Queue.Run

/-!
# Refused requests

A request is refused for one of a few reasons, and then nothing has changed but what the engine
notes of a call that it refused itself. A request that is not refused is answered, unless a count
overflows before the answer.

Results:

* `Refuses.answer`: a request with a reason to refuse it is refused, and changes nothing.
* `Accepts.answer`: one that may be accepted is not refused.
* `accepts_or_refuses`: there is a reason to refuse a request if and only if it may not be accepted.
* `Run.requests_answered`: what a request is answered, at every point of a run.
-/

namespace JobSwarm.Queue

open Time (Clock)

variable {σ : Type}

/-! ## Reasons -/

/-- The message by which something is asked for a job. -/
def Request.toMessage : Request → Job.Id → Message
  | .cancel, id => .cancel id
  | .pause, id => .pause id
  | .resume, id => .resume id

/-- The statuses in which something may be asked for a job. -/
def Request.Admits : Request → Job.Status → Prop
  | .cancel, status => status.isTerminal = false
  | .pause, status => status = .running
  | .resume, status => status = .paused

/-- Whether a message is answered to a caller. -/
def Message.isRequest : Message → Bool
  | .submit .. | .cancel _ | .pause _ | .resume _ => true
  | .progress .. | .finished .. | .schedule => false

/-- Why a request is refused, with the error that is answered and the state in which the engine is
left. Where the engine was not called, that is the state in which it was. -/
inductive Refuses (engine : Engine σ) (s : Scene σ) : Message → Error → σ → Prop
  | invalid {id : Job.Id} {config : Job.Config} {priority : Priority} {fault : Job.Config.Fault}
      (invalid : config.validate = .error fault) :
      Refuses engine s (.submit id config priority) (.validation fault) s.engineState
  | unsupported {id : Job.Id} {config : Job.Config} {priority : Priority}
      (valid : config.validate = .ok ())
      (none : ∀ agent ∈ s.swarm.agents, agent.capability ≠ config.requiredCapability) :
      Refuses engine s (.submit id config priority)
        (.validation (.unsupportedCapability config.requiredCapability)) s.engineState
  | unknown {id : Job.Id} (request : Request) (unknown : s.queue.job? id = none) :
      Refuses engine s (request.toMessage id) (.jobNotFound id) s.engineState
  | barred {id : Job.Id} {job : Job} (request : Request) (found : s.queue.job? id = some job)
      (barred : ¬request.Admits job.status) :
      Refuses engine s (request.toMessage id) (.invalidState id job.status request) s.engineState
  | suspend {id : Job.Id} {job : Job} {active : Active} {refusal : Engine.Error} {state : σ}
      (found : s.queue.job? id = some job)
      (holds : s.queue.active? id = some active) (status : job.status = .running)
      (run : engine.suspend active.handle s.engineState = (.error refusal, state)) :
      Refuses engine s (.pause id) (.engine refusal) state
  | wake {id : Job.Id} {job : Job} {active : Active} {refusal : Engine.Error} {state : σ}
      (found : s.queue.job? id = some job)
      (holds : s.queue.active? id = some active) (status : job.status = .paused)
      (unheld : active.held = none)
      (run : engine.resume active.handle s.engineState = (.error refusal, state)) :
      Refuses engine s (.resume id) (.engine refusal) state

/-- What it takes for a request to be accepted. -/
def Accepts (engine : Engine σ) (s : Scene σ) : Message → Prop
  | .submit _ config _ => config.validate = .ok () ∧
      ∃ agent ∈ s.swarm.agents, agent.capability = config.requiredCapability
  | .cancel id => ∃ job, s.queue.job? id = some job ∧ job.status.isTerminal = false
  | .pause id => ∃ job active, s.queue.job? id = some job ∧ job.status = .running ∧
      s.queue.active? id = some active ∧ (engine.suspend active.handle s.engineState).1 = .ok ()
  | .resume id => ∃ job active, s.queue.job? id = some job ∧ job.status = .paused ∧
      s.queue.active? id = some active ∧
        (active.held.isSome = true ∨ (engine.resume active.handle s.engineState).1 = .ok ())
  | .progress .. | .finished .. | .schedule => True

variable {engine : Engine σ} {clock : Clock} {s t : Scene σ} {message : Message} {id : Job.Id}
  {job : Job} {active : Active} {error : Error} {state : σ} {reply : Reply}

theorem supports_iff {swarm : Swarm} {capability : String} :
    swarm.supports capability = true ↔ ∃ agent ∈ swarm.agents, agent.capability = capability := by
  unfold Swarm.supports
  rw [List.any_eq_true]
  simp

/-! ## Refusals -/

namespace Refuses

theorem submit_unsupported {config : Job.Config} {priority : Priority}
    (valid : config.validate = .ok ())
    (none : ∀ agent ∈ s.swarm.agents, agent.capability ≠ config.requiredCapability) :
    submit id config priority clock s =
      .ok (.error (.validation (.unsupportedCapability config.requiredCapability))) s := by
  have unsupported : s.swarm.supports config.requiredCapability = false := by
    refine eq_false_of_ne_true fun h => ?_
    obtain ⟨agent, hmem, hcap⟩ := supports_iff.1 h
    exact none agent hmem hcap
  simp only [submit, valid, Step.get_bind]
  rw [unsupported]
  rfl

/-- A job that is not known is not found, whatever is asked for it. -/
theorem react_unknown (request : Request) (unknown : s.queue.job? id = none) :
    react engine clock (request.toMessage id) s = .ok (.error (.jobNotFound id)) s := by
  cases request with
  | cancel =>
    simp only [react, Request.toMessage, cancel, Step.get_bind, unknown]
    rfl
  | pause =>
    simp only [react, Request.toMessage, pause, Step.get_bind, unknown]
    rfl
  | resume =>
    simp only [react, Request.toMessage, resume, Step.get_bind, unknown]
    rfl

/-- A job in another status than is asked for is left alone. -/
theorem react_barred (request : Request) (found : s.queue.job? id = some job)
    (barred : ¬request.Admits job.status) :
    react engine clock (request.toMessage id) s =
      .ok (.error (.invalidState id job.status request)) s := by
  cases request with
  | cancel =>
    have ended : job.status.isTerminal = true := eq_true_of_ne_false barred
    simp only [react, Request.toMessage, cancel, Step.get_bind, found]
    rw [if_pos ended]
    rfl
  | pause =>
    have other : job.status ≠ .running := barred
    simp only [react, Request.toMessage, pause, Step.get_bind, found]
    cases s.queue.active? id with
    | none => rfl
    | some active =>
      simp only
      rw [if_pos other]
      rfl
  | resume =>
    have other : job.status ≠ .paused := barred
    simp only [react, Request.toMessage, resume, Step.get_bind, found]
    cases s.queue.active? id with
    | none => rfl
    | some active =>
      simp only
      rw [if_pos other]
      rfl

/-- A request with a reason to refuse it is refused, and changes nothing. -/
theorem answer (refuses : Refuses engine s message error state) :
    react engine clock message s = .ok (.error error) { s with engineState := state } := by
  cases refuses with
  | invalid h => exact submit_invalid _ _ _ _ _ _ h
  | unsupported valid none => exact submit_unsupported valid none
  | unknown request h => exact react_unknown request h
  | barred request found h => exact react_barred request found h
  | suspend found holds status run =>
    simp only [react, pause, Step.get_bind, found, holds]
    rw [if_neg (not_not.2 status)]
    simp only [Step.bind_eq_ok, Scene.callEngine_eq_ok]
    exact ⟨_, _, ⟨state, run, rfl⟩, rfl⟩
  | wake found holds status unheld run =>
    simp only [react, resume, Step.get_bind, found, holds]
    rw [if_neg (not_not.2 status)]
    simp only [Queue.wake, unheld, Step.bind_eq_ok, Scene.callEngine_eq_ok]
    exact ⟨_, _, ⟨state, run, rfl⟩, rfl⟩

end Refuses

/-! ## Acceptance -/

namespace Accepts

theorem submit_answer {config : Job.Config} {priority : Priority}
    (accepts : Accepts engine s (.submit id config priority))
    (h : submit id config priority clock s = .ok reply t) : reply = .ok () := by
  obtain ⟨valid, supported⟩ := accepts
  simp only [submit, valid, Step.get_bind] at h
  rw [supports_iff.2 supported, if_neg (by decide)] at h
  simp only [Step.bind_eq_ok, Step.pure_eq_ok] at h
  obtain ⟨_, _, _, _, _, _, _, _, _, rfl, -⟩ := h
  rfl

theorem cancel_answer (accepts : Accepts engine s (.cancel id))
    (h : cancel engine id clock s = .ok reply t) : reply = .ok () := by
  obtain ⟨job, found, unended⟩ := accepts
  have hmove : job.transition .cancelled clock.wall = .ok (job.moved .cancelled clock.wall) :=
    Job.transition_eq_ok_iff.2 ⟨by rw [Job.Status.canBecome_cancelled, unended]; rfl, rfl⟩
  simp only [cancel, Step.get_bind, found, hmove] at h
  rw [unended, if_neg (by decide)] at h
  simp only [Step.bind_eq_ok, Scene.modifyQueue_eq_ok] at h
  obtain ⟨_, _, -, h⟩ := h
  -- queued or not, the job is cancelled, and that is what is answered
  split at h
  · simp only [Step.bind_eq_ok, Step.pure_eq_ok] at h
    obtain ⟨_, _, _, _, _, _, rfl, -⟩ := h
    rfl
  · cases holds : s.queue.active? id <;>
      simp only [holds, Step.bind_eq_ok, Step.pure_eq_ok] at h
    · obtain ⟨_, _, -, rfl, -⟩ := h
      rfl
    · obtain ⟨_, _, _, _, _, _, rfl, -⟩ := h
      rfl

theorem pause_answer (accepts : Accepts engine s (.pause id))
    (h : pause engine id clock s = .ok reply t) : reply = .ok () := by
  obtain ⟨job, active, found, status, holds, run⟩ := accepts
  have hmove : job.transition .paused clock.wall = .ok (job.moved .paused clock.wall) :=
    Job.transition_eq_ok_iff.2 ⟨by rw [status]; rfl, rfl⟩
  simp only [pause, Step.get_bind, found, holds] at h
  rw [if_neg (not_not.2 status)] at h
  simp only [hmove, Step.bind_eq_ok, Scene.callEngine_eq_ok] at h
  obtain ⟨answer, _, ⟨state, call, -⟩, h⟩ := h
  rw [call] at run
  obtain rfl : answer = .ok () := run
  simp only [Step.bind_eq_ok, Step.pure_eq_ok] at h
  obtain ⟨_, _, _, _, _, _, _, _, _, rfl, -⟩ := h
  rfl

theorem resume_answer (accepts : Accepts engine s (.resume id))
    (h : resume engine id clock s = .ok reply t) : reply = .ok () := by
  obtain ⟨job, active, found, status, holds, run⟩ := accepts
  have hmove : job.transition .running clock.wall = .ok (job.moved .running clock.wall) :=
    Job.transition_eq_ok_iff.2 ⟨by rw [status]; rfl, rfl⟩
  simp only [resume, Step.get_bind, found, holds] at h
  rw [if_neg (not_not.2 status)] at h
  simp only [hmove, Step.bind_eq_ok] at h
  obtain ⟨answer, _, hwake, h⟩ := h
  obtain rfl : answer = .ok () := by
    obtain ⟨state, -, refused⟩ := wake_ok hwake
    cases answer with
    | ok => rfl
    | error refusal =>
      rcases run with held | run
      · obtain ⟨outcome, held⟩ := Option.isSome_iff_exists.1 held
        simp only [wake, held] at hwake
        cases (Step.pure_eq_ok.1 hwake).1
      · rw [refused refusal rfl] at run
        cases run
  simp only [Step.bind_eq_ok, Scene.modifyQueue_eq_ok, Scene.announce_eq_ok] at h
  obtain ⟨_, _, rfl, _, _, rfl, _, _, rfl, h⟩ := h
  cases held : active.held with
  | none =>
    simp only [held] at h
    exact (Step.pure_eq_ok.1 h).1.symm
  | some outcome =>
    simp only [held, Step.bind_eq_ok, Step.pure_eq_ok] at h
    obtain ⟨_, _, _, rfl, -⟩ := h
    rfl

/-- A request that may be accepted is not refused. -/
theorem answer (accepts : Accepts engine s message) (request : message.isRequest = true)
    (h : react engine clock message s = .ok reply t) : reply = .ok () := by
  cases message with
  | submit => exact accepts.submit_answer h
  | cancel => exact accepts.cancel_answer h
  | pause => exact accepts.pause_answer h
  | resume => exact accepts.resume_answer h
  | progress | finished | schedule => cases request

end Accepts

/-! ## One or the other -/

/-- A request may be accepted, or there is a reason to refuse it. -/
theorem accepts_or_refuses (sound : s.queue.Sound) (request : message.isRequest = true) :
    Accepts engine s message ∨ ∃ error state, Refuses engine s message error state := by
  cases message with
  | submit id config priority =>
    cases hvalid : config.validate with
    | error fault => exact .inr ⟨_, _, .invalid hvalid⟩
    | ok =>
      by_cases supported : ∃ agent ∈ s.swarm.agents, agent.capability = config.requiredCapability
      · exact .inl ⟨hvalid, supported⟩
      · refine .inr ⟨_, _, .unsupported hvalid fun agent hmem hcap => ?_⟩
        exact supported ⟨agent, hmem, hcap⟩
  | cancel id =>
    cases found : s.queue.job? id with
    | none => exact .inr ⟨_, _, .unknown .cancel found⟩
    | some job =>
      cases ended : job.status.isTerminal with
      | false => exact .inl ⟨job, found, ended⟩
      | true =>
        refine .inr ⟨_, _, .barred .cancel found fun unended => ?_⟩
        cases ended.symm.trans unended
  | pause id =>
    cases found : s.queue.job? id with
    | none => exact .inr ⟨_, _, .unknown .pause found⟩
    | some job =>
      by_cases status : job.status = .running
      · obtain ⟨active, holds, -⟩ := sound.holds_of_running found status
        cases run : engine.suspend active.handle s.engineState with
        | mk answer state =>
          cases answer with
          | ok => exact .inl ⟨job, active, found, status, holds, by rw [run]⟩
          | error refusal => exact .inr ⟨_, _, .suspend found holds status run⟩
      · exact .inr ⟨_, _, .barred .pause found status⟩
  | resume id =>
    cases found : s.queue.job? id with
    | none => exact .inr ⟨_, _, .unknown .resume found⟩
    | some job =>
      by_cases status : job.status = .paused
      · obtain ⟨active, holds, -⟩ := sound.holds_of_paused found status
        cases held : active.held with
        | some outcome => exact .inl ⟨job, active, found, status, holds, .inl (by rw [held]; rfl)⟩
        | none =>
          cases run : engine.resume active.handle s.engineState with
          | mk answer state =>
            cases answer with
            | ok => exact .inl ⟨job, active, found, status, holds, .inr (by rw [run])⟩
            | error refusal => exact .inr ⟨_, _, .wake found holds status held run⟩
      · exact .inr ⟨_, _, .barred .resume found status⟩
  | progress | finished | schedule => cases request

/-! ## Answers -/

/-- What is answered to a request. -/
structure Answers (engine : Engine σ) (clock : Clock) (s : Scene σ) (message : Message) : Prop where
  /-- An error is answered for a reason, and then nothing has changed but the state in which an
  engine that has refused the call leaves itself. -/
  refused_iff : ∀ error t, react engine clock message s = .ok (.error error) t ↔
    ∃ state, Refuses engine s message error state ∧ t = { s with engineState := state }
  /-- Unless a sum does not fit on the way, success is answered if and only if nothing stands in the
  way of the request. -/
  accepted_iff : Accepts engine s message ↔ (∃ t, react engine clock message s = .ok (.ok ()) t) ∨
    ∃ overflow t, react engine clock message s = .error overflow t
  /-- No pass follows a refusal. -/
  unchanged : ∀ error t, handle engine clock message s = .ok (.error error) t →
    react engine clock message s = .ok (.error error) t

/-- No pass follows a refusal. -/
theorem react_of_refused (request : message.isRequest = true)
    (h : handle engine clock message s = .ok (.error error) t) :
    react engine clock message s = .ok (.error error) t := by
  simp only [handle, Step.bind_eq_ok] at h
  obtain ⟨reply, u, hreact, h⟩ := h
  have quiet : passFollows message (.error error) = false := by
    cases message <;> first | rfl | cases request
  split at h
  · next follows =>
    simp only [Step.bind_eq_ok, Step.pure_eq_ok] at h
    obtain ⟨_, _, -, rfl, -⟩ := h
    cases quiet.symm.trans follows
  · obtain ⟨rfl, rfl⟩ := Step.pure_eq_ok.1 h
    exact hreact

/-- At every point of a run, whatever is requested: an error is answered for the reasons that there
are and changes nothing, and without a reason the request succeeds or stops at an overflow. -/
theorem Run.requests_answered {config : Config} {swarm : Swarm} {state : σ}
    (run : Run engine (.initial config swarm state) s) (request : message.isRequest = true)
    (clock : Clock) : Answers engine clock s message := by
  have sound := (run.sound (sound_initial config)).1
  have either : Accepts engine s message ∨ _ := accepts_or_refuses sound request
  refine ⟨fun error t => ⟨fun h => ?_, ?_⟩, ⟨fun accepts => ?_, fun h => ?_⟩,
    fun error t => react_of_refused request⟩
  · rcases either with accepts | ⟨error', state, refuses⟩
    · cases accepts.answer request h
    · have answer : react engine clock message s =
          .ok (.error error') { s with engineState := state } := refuses.answer
      rw [answer] at h
      cases h
      exact ⟨state, refuses, rfl⟩
  · rintro ⟨state, refuses, rfl⟩
    exact refuses.answer
  · cases h : react engine clock message s with
    | ok reply t =>
      obtain rfl := accepts.answer request h
      exact .inl ⟨t, rfl⟩
    | error overflow t => exact .inr ⟨overflow, t, rfl⟩
  · rcases either with accepts | ⟨error, state, refuses⟩
    · exact accepts
    · have answer : react engine clock message s =
          .ok (.error error) { s with engineState := state } := refuses.answer
      rcases h with ⟨t, h⟩ | ⟨overflow, t, h⟩ <;> cases answer.symm.trans h

/-- A running job cannot be resumed: that changes nothing. -/
theorem Run.requests_answered_of_running :
    ∃ s, Run Engine.Stub.engine (.initial {} loneSwarm Engine.Stub.standard) s ∧
      react Engine.Stub.engine (.epoch 1) (.resume ⟨1⟩) s =
        .ok (.error (.invalidState ⟨1⟩ .running .resume)) s ∧
      Answers Engine.Stub.engine (.epoch 1) s (.resume ⟨1⟩) := by
  have played : (play Engine.Stub.engine
      [.told (.epoch 0) (.submit ⟨1⟩ { targetPath := "notes" } .normal)]
      (.initial {} loneSwarm Engine.Stub.standard)).any
        (fun s => (s.queue.job? ⟨1⟩).any (·.status = .running)) = true := by
    decide +kernel
  obtain ⟨s, hs, known⟩ := (Option.any_eq_true _ _).1 played
  obtain ⟨job, found, status⟩ := (Option.any_eq_true _ _).1 known
  have running : job.status = .running := of_decide_eq_true status
  have barred : ¬Request.resume.Admits job.status := by
    rw [running]
    exact nofun
  have refused : react Engine.Stub.engine (.epoch 1) (.resume ⟨1⟩) s =
      .ok (.error (.invalidState ⟨1⟩ job.status .resume)) s :=
    Refuses.react_barred .resume found barred
  rw [running] at refused
  exact ⟨s, run_of_play hs, refused, Run.requests_answered (run_of_play hs) rfl _⟩

/-- An agent that has worked for as long as can be counted. -/
def wornSwarm : Swarm :=
  let wear (agent : Agent) : Agent :=
    { agent with metrics := { agent.metrics with totalDurationMs := 18446744073709551615 } }
  { loneSwarm with toRegistry := loneSwarm.toRegistry.map wear fun _ => rfl }

/-- A job has paused, its run has ended meanwhile, and still it cannot be resumed: the time that it
took does not fit on top of what its agent has worked before. -/
theorem Run.resume_overflows :
    ∃ s job active, Run Engine.Stub.engine (.initial {} wornSwarm Engine.Stub.standard) s ∧
      s.queue.job? ⟨1⟩ = some job ∧ job.status = .paused ∧ s.queue.active? ⟨1⟩ = some active ∧
      active.held.isSome = true ∧ ¬∃ reply t, react Engine.Stub.engine
        (Clock.forward (.epoch 0) 10) (.resume ⟨1⟩) s = .ok reply t := by
  have played : (play Engine.Stub.engine
      [.told (.epoch 0) (.submit ⟨1⟩ { targetPath := "notes" } .normal),
        .told (.epoch 1) (.pause ⟨1⟩),
        .told (.epoch 2) (.finished ⟨1⟩ (.completed 8))]
      (.initial {} wornSwarm Engine.Stub.standard)).any (fun s =>
        ((s.queue.job? ⟨1⟩).any (·.status = .paused) &&
          (s.queue.active? ⟨1⟩).any (·.held.isSome)) &&
        match react Engine.Stub.engine (Clock.forward (.epoch 0) 10) (.resume ⟨1⟩) s with
        | .ok .. => false
        | .error .. => true) = true := by
    decide +kernel
  obtain ⟨s, hs, facts⟩ := (Option.any_eq_true _ _).1 played
  obtain ⟨known, stops⟩ := Bool.and_eq_true_iff.1 facts
  obtain ⟨paused, held⟩ := Bool.and_eq_true_iff.1 known
  obtain ⟨job, found, status⟩ := (Option.any_eq_true _ _).1 paused
  obtain ⟨active, holds, held⟩ := (Option.any_eq_true _ _).1 held
  refine ⟨s, job, active, run_of_play hs, found, of_decide_eq_true status, holds, held, ?_⟩
  rintro ⟨reply, t, answered⟩
  rw [answered] at stops
  cases stops

end JobSwarm.Queue
