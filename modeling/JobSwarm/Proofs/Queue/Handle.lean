import JobSwarm.Proofs.Queue.Dispatch
import JobSwarm.Queue.Message

/-!
# The path of a message

What a queue does before it answers is a path on which no job starts. What it does with a message as
a whole is a path of moves.

Results:

* `submit_path`, `cancel_path`, `pause_path`, `resume_path`: the path of each request.
* `react_path`, `handle_path`: the path of a message up to its answer, and up to its end.
* `drain_path`: the path on which all jobs are cancelled.
-/

namespace JobSwarm.Queue

open Swarm (Session)
open Time (Instant Clock)

variable {σ : Type} {engine : Engine σ} {clock : Clock} {scope : Scope} {s t : Scene σ}

/-! ## Requests -/

section Request

variable {id : Job.Id} {job : Job} {active : Active} {reply : Reply}

theorem submit_path {config : Job.Config} {priority : Priority} (fresh : s.queue.job? id = none)
    (h : submit id config priority clock s = .ok reply t) : Path engine clock scope s t := by
  rw [submit] at h
  cases hvalid : config.validate with
  | error fault =>
    simp only [hvalid] at h
    obtain ⟨-, rfl⟩ := Step.pure_eq_ok.1 h
    exact .refl
  | ok =>
    simp only [hvalid, Step.bind_eq_ok, Step.get_eq_ok] at h
    obtain ⟨_, _, ⟨rfl, rfl⟩, h⟩ := h
    split at h
    · obtain ⟨-, rfl⟩ := Step.pure_eq_ok.1 h
      exact .refl
    · simp only [Step.bind_eq_ok, Step.ofSum_eq_ok, Scene.modifyQueue_eq_ok, Scene.announce_eq_ok,
        Step.pure_eq_ok] at h
      obtain ⟨sequence, _, ⟨next, rfl⟩, _, _, rfl, _, _, rfl, -, rfl⟩ := h
      exact .single (.submit (.submitted id config priority sequence clock.wall) rfl next fresh)

theorem abandon_ok {r : Unit} (h : abandon engine active clock s = .ok r t) :
    ∃ answer session, Session.release active.agentId .cancelled clock.wall s.toSession =
        .ok answer session ∧
      t = { s with
        toSession := session
        queue := s.queue.retire active.jobId
        engineState := (engine.cancel active.handle s.engineState).2 } := by
  simp only [abandon, Step.bind_eq_ok, Scene.modifyQueue_eq_ok, Step.discard_eq_ok,
    Scene.callEngine_eq_ok, Scene.release_eq_ok] at h
  obtain ⟨_, _, rfl, _, _, ⟨_, state, hcancel, rfl⟩, session, ⟨answer, hrelease⟩, rfl⟩ := h
  exact ⟨answer, session, hrelease, by rw [hcancel]⟩

/-- A job that has not ended is cancelled: it waits no more, or what it held is taken back. -/
inductive Cancels (engine : Engine σ) (clock : Clock) (job : Job) (s : Scene σ) : Scene σ → Prop
  | withdraw (status : job.status = .queued) :
      Cancels engine clock job s { s with
        toSession := s.toSession.tell (.jobCancelled job.id)
        queue := (s.queue.putJob (job.moved .cancelled clock.wall)).withdraw job.id }
  | abandon {active : Active} {session : Session} {answer : Except Swarm.Error Agent.Status}
      (holds : s.queue.active? job.id = some active)
      (status : job.status = .running ∨ job.status = .paused)
      (release : Session.release active.agentId .cancelled clock.wall s.toSession =
        .ok answer session) :
      Cancels engine clock job s { s with
        toSession := session.tell (.jobCancelled job.id)
        queue := (s.queue.putJob (job.moved .cancelled clock.wall)).retire job.id
        engineState := (engine.cancel active.handle s.engineState).2 }

theorem Cancels.move (cancels : Cancels engine clock job s t)
    (found : s.queue.job? job.id = some job) : Move engine clock scope s t := by
  cases cancels with
  | withdraw status => exact .withdraw found status
  | abandon holds status release => exact .abandon found holds status release

theorem cancel_cancels (sound : s.queue.Sound) (found : s.queue.job? job.id = some job)
    (open_ : job.status.isTerminal = false) (h : cancel engine job.id clock s = .ok reply t) :
    Cancels engine clock job s t := by
  have hmove : job.transition .cancelled clock.wall = .ok (job.moved .cancelled clock.wall) :=
    Job.transition_eq_ok_iff.2 ⟨by rw [Job.Status.canBecome_cancelled, open_]; rfl, rfl⟩
  simp only [cancel, Step.bind_eq_ok, Step.get_eq_ok] at h
  obtain ⟨_, _, ⟨rfl, rfl⟩, h⟩ := h
  simp only [found, open_, Bool.false_eq_true, ite_false, hmove, Step.bind_eq_ok,
    Scene.modifyQueue_eq_ok] at h
  obtain ⟨_, _, rfl, h⟩ := h
  split at h
  · next status =>
    simp only [Step.bind_eq_ok, Scene.modifyQueue_eq_ok, Scene.announce_eq_ok,
      Step.pure_eq_ok] at h
    obtain ⟨_, _, rfl, _, _, rfl, -, rfl⟩ := h
    exact .withdraw status
  · next started =>
    obtain ⟨active, holds, held⟩ : ∃ active, s.queue.active? job.id = some active ∧
        (job.status = .running ∨ job.status = .paused) := by
      rcases Job.Status.running_or_paused open_ started with status | status
      · obtain ⟨active, holds, -⟩ := sound.holds_of_running found status
        exact ⟨active, holds, .inl status⟩
      · obtain ⟨active, holds, -⟩ := sound.holds_of_paused found status
        exact ⟨active, holds, .inr status⟩
    simp only [holds, Step.bind_eq_ok, Scene.announce_eq_ok, Step.pure_eq_ok] at h
    obtain ⟨_, _, habandon, _, _, rfl, -, rfl⟩ := h
    obtain ⟨answer, session, release, rfl⟩ := abandon_ok habandon
    rw [active?_jobId holds]
    exact .abandon holds held release

theorem cancel_path (sound : s.queue.Sound) (h : cancel engine id clock s = .ok reply t) :
    Path engine clock scope s t := by
  have call := h
  simp only [cancel, Step.bind_eq_ok, Step.get_eq_ok] at h
  obtain ⟨_, _, ⟨rfl, rfl⟩, h⟩ := h
  cases found : s.queue.job? id with
  | none =>
    simp only [found] at h
    obtain ⟨-, rfl⟩ := Step.pure_eq_ok.1 h
    exact .refl
  | some job =>
    obtain rfl := job?_id found
    simp only [found] at h
    split at h
    · obtain ⟨-, rfl⟩ := Step.pure_eq_ok.1 h
      exact .refl
    · next open_ =>
      have open_ : job.status.isTerminal = false := by simpa using open_
      exact .single ((cancel_cancels sound found open_ call).move found)

theorem pause_path (h : pause engine id clock s = .ok reply t) :
    Path engine clock scope s t := by
  simp only [pause, Step.bind_eq_ok, Step.get_eq_ok] at h
  obtain ⟨_, _, ⟨rfl, rfl⟩, h⟩ := h
  cases found : s.queue.job? id with
  | none =>
    simp only [found] at h
    obtain ⟨-, rfl⟩ := Step.pure_eq_ok.1 h
    exact .refl
  | some job =>
    obtain rfl := job?_id found
    cases holds : s.queue.active? job.id with
    | none =>
      simp only [found, holds] at h
      obtain ⟨-, rfl⟩ := Step.pure_eq_ok.1 h
      exact .refl
    | some active =>
      simp only [found, holds] at h
      split at h
      · obtain ⟨-, rfl⟩ := Step.pure_eq_ok.1 h
        exact .refl
      next status =>
      have status : job.status = .running := not_not.1 status
      have hmove : job.transition .paused clock.wall = .ok (job.moved .paused clock.wall) :=
        Job.transition_eq_ok_iff.2 ⟨by rw [status]; rfl, rfl⟩
      simp only [hmove, Step.bind_eq_ok, Scene.callEngine_eq_ok] at h
      obtain ⟨answer, _, ⟨state, run, rfl⟩, h⟩ := h
      cases answer with
      | error refusal =>
        obtain ⟨-, rfl⟩ := Step.pure_eq_ok.1 h
        exact .single (.keepOn found holds status run)
      | ok =>
        simp only [Step.bind_eq_ok, Scene.modifyQueue_eq_ok, Scene.announce_eq_ok,
          Step.pure_eq_ok] at h
        obtain ⟨_, _, rfl, _, _, rfl, _, _, rfl, -, rfl⟩ := h
        exact .single (.pause found holds status run)

/-- A run goes on, unless the engine refuses; one that has ended has nothing to go on with. -/
theorem wake_ok {answer : Except Engine.Error Unit} (h : wake engine active s = .ok answer t) :
    ∃ state, t = { s with engineState := state } ∧
      ∀ refusal, answer = .error refusal →
        engine.resume active.handle s.engineState = (.error refusal, state) := by
  rw [wake] at h
  cases held : active.held with
  | some =>
    simp only [held] at h
    obtain ⟨rfl, rfl⟩ := Step.pure_eq_ok.1 h
    exact ⟨_, rfl, fun _ h => nomatch h⟩
  | none =>
    simp only [held] at h
    obtain ⟨state, run, rfl⟩ := Scene.callEngine_eq_ok.1 h
    exact ⟨state, rfl, fun _ hanswer => hanswer ▸ run⟩

theorem resume_path (sound : s.queue.Sound)
    (heard : ∀ active outcome, s.queue.active? id = some active → active.held = some outcome →
      scope.heard id outcome)
    (h : resume engine id clock s = .ok reply t) : Path engine clock scope s t := by
  simp only [resume, Step.bind_eq_ok, Step.get_eq_ok] at h
  obtain ⟨_, _, ⟨rfl, rfl⟩, h⟩ := h
  cases found : s.queue.job? id with
  | none =>
    simp only [found] at h
    obtain ⟨-, rfl⟩ := Step.pure_eq_ok.1 h
    exact .refl
  | some job =>
    obtain rfl := job?_id found
    cases holds : s.queue.active? job.id with
    | none =>
      simp only [found, holds] at h
      obtain ⟨-, rfl⟩ := Step.pure_eq_ok.1 h
      exact .refl
    | some active =>
      simp only [found, holds] at h
      split at h
      · obtain ⟨-, rfl⟩ := Step.pure_eq_ok.1 h
        exact .refl
      next status =>
      have status : job.status = .paused := not_not.1 status
      have hmove : job.transition .running clock.wall = .ok (job.moved .running clock.wall) :=
        Job.transition_eq_ok_iff.2 ⟨by rw [status]; rfl, rfl⟩
      simp only [hmove, Step.bind_eq_ok] at h
      obtain ⟨answer, _, hwake, h⟩ := h
      obtain ⟨state, rfl, refused⟩ := wake_ok hwake
      cases answer with
      | error refusal =>
        obtain ⟨-, rfl⟩ := Step.pure_eq_ok.1 h
        exact .single (.keepStill found holds status (refused refusal rfl))
      | ok =>
        simp only [Step.bind_eq_ok, Scene.modifyQueue_eq_ok, Scene.announce_eq_ok] at h
        obtain ⟨_, _, rfl, _, _, rfl, _, _, rfl, h⟩ := h
        have move : Move engine clock scope s { s with
            toSession := s.toSession.tell (.jobResumed job.id)
            queue := (s.queue.putJob (job.moved .running clock.wall)).modifyActive job.id
              (·.resumed clock)
            engineState := state } := .resume found holds status hwake
        cases held : active.held with
        | none =>
          simp only [held] at h
          obtain ⟨-, rfl⟩ := Step.pure_eq_ok.1 h
          exact .single move
        | some outcome =>
          simp only [held, Step.bind_eq_ok, Step.pure_eq_ok] at h
          obtain ⟨_, _, hconclude, -, rfl⟩ := h
          -- The run has ended during the pause: the job goes on only to end.
          have after : ((s.queue.putJob (job.moved .running clock.wall)).modifyActive job.id
              (·.resumed clock)).slice job.id =
                ⟨some (job.moved .running clock.wall), some (active.resumed clock), []⟩ := by
            refine Eq.trans (slice_modifyActive fun _ => rfl) ?_
            simp [slice_putJob, sound.slice_active found holds]
          have found : Queue.job? _ (job.moved .running clock.wall).id = _ :=
            congrArg Slice.job after
          exact (Relation.ReflTransGen.single move).tail
            (conclude_move found (congrArg Slice.active after) rfl
              (heard active outcome holds held) hconclude)

end Request

/-! ## Messages -/

/-- Whether a message brings no job that the queue knows already. -/
def Message.IsFresh (queue : Queue) : Message → Prop
  | .submit id _ _ => queue.job? id = none
  | _ => True

/-- Whether the queue has heard of the outcome that it takes in with a message: the one that it is
told, or the one that it holds for a job that is to go on. -/
def Message.IsHeard (heard : Job.Id → Engine.Outcome → Prop) (queue : Queue) : Message → Prop
  | .finished id outcome => heard id outcome
  | .resume id => ∀ active outcome, queue.active? id = some active →
      active.held = some outcome → heard id outcome
  | _ => True

/-- Whether a message tells of progress. -/
def Message.isProgress : Message → Bool
  | .progress .. => true
  | .submit .. | .cancel _ | .pause _ | .resume _ | .finished .. | .schedule => false

theorem react_within {message : Message} {reply : Reply} (sound : s.queue.Sound)
    (advances : message.isProgress = true → scope.advancing = true)
    (fresh : message.IsFresh s.queue) (heard : message.IsHeard scope.heard s.queue)
    (h : react engine clock message s = .ok reply t) : Path engine clock scope s t := by
  cases message with
  | submit => exact submit_path fresh h
  | cancel => exact cancel_path sound h
  | pause => exact pause_path h
  | resume => exact resume_path sound heard h
  | progress =>
    simp only [react, Step.bind_eq_ok, Step.pure_eq_ok] at h
    obtain ⟨_, _, h, -, rfl⟩ := h
    exact takeProgress_path (advances rfl) h
  | finished =>
    simp only [react, Step.bind_eq_ok, Step.pure_eq_ok] at h
    obtain ⟨_, _, h, -, rfl⟩ := h
    exact takeOutcome_path sound heard h
  | schedule =>
    obtain ⟨-, rfl⟩ := Step.pure_eq_ok.1 h
    exact .refl

theorem Message.isHeard_of_any {message : Message} {queue : Queue} :
    message.IsHeard (fun _ _ => True) queue := by
  cases message with
  | resume => exact fun _ _ _ _ => trivial
  | submit | cancel | pause | progress | finished | schedule => trivial

theorem react_path {starting : Bool} {message : Message} {reply : Reply} (sound : s.queue.Sound)
    (fresh : message.IsFresh s.queue) (h : react engine clock message s = .ok reply t) :
    Path engine clock starting s t :=
  react_within sound (fun _ => rfl) fresh Message.isHeard_of_any h

theorem handle_within {message : Message} {reply : Reply} (sound : s.queue.Sound)
    (may : scope.starting = true) (advances : message.isProgress = true → scope.advancing = true)
    (fresh : message.IsFresh s.queue) (heard : message.IsHeard scope.heard s.queue)
    (h : handle engine clock message s = .ok reply t) : Path engine clock scope s t := by
  simp only [handle, Step.bind_eq_ok] at h
  obtain ⟨reply, u, hreact, h⟩ := h
  have before : Path engine clock scope s u := react_within sound advances fresh heard hreact
  split at h
  · simp only [Step.bind_eq_ok, Step.pure_eq_ok] at h
    obtain ⟨_, _, hpass, -, rfl⟩ := h
    exact before.trans (pass_path (before.sound sound) may hpass)
  · obtain ⟨-, rfl⟩ := Step.pure_eq_ok.1 h
    exact before

theorem handle_path {message : Message} {reply : Reply} (sound : s.queue.Sound)
    (fresh : message.IsFresh s.queue) (h : handle engine clock message s = .ok reply t) :
    Path engine clock true s t :=
  handle_within sound rfl (fun _ => rfl) fresh Message.isHeard_of_any h

/-- The jobs are cancelled one after another. -/
theorem cancel_each {jobs : List Job} {r : PUnit} (sound : s.queue.Sound)
    (h : (jobs.forM fun job => discard (cancel engine job.id clock)) s = .ok r t) :
    Path engine clock scope s t := by
  induction jobs generalizing s with
  | nil =>
    obtain ⟨-, rfl⟩ := Step.pure_eq_ok.1 h
    exact .refl
  | cons job rest ih =>
    obtain ⟨_, u, hfirst, hrest⟩ := Step.bind_eq_ok.1 h
    obtain ⟨_, hcancel⟩ := Step.discard_eq_ok.1 hfirst
    have first : Path engine clock scope s u := cancel_path sound hcancel
    exact first.trans (ih (first.sound sound) hrest)

theorem drain_path {r : Unit} (sound : s.queue.Sound) (h : drain engine clock s = .ok r t) :
    Path engine clock scope s t := by
  simp only [drain, Step.bind_eq_ok, Step.get_eq_ok] at h
  obtain ⟨_, _, ⟨rfl, rfl⟩, h⟩ := h
  exact cancel_each sound h

end JobSwarm.Queue
