import JobSwarm.Proofs.Queue.Held

/-!
# Outcomes that wait for their job

A run may end while its job is paused. The job holds the outcome then, and ends with it when it is
resumed. Two ways lead to the end of such a job: the outcome comes and the job is resumed, or the
job is resumed and the outcome comes. They differ in what is asked of the engine, which is not
called for a run that has ended, and in nothing else.

Results:

* `conclude_leaving`: a job ends in the same way whatever the state of the engine.
* `resume_of_paused`, `cancel_of_paused`: how a paused job goes on, and how it is cancelled.
* `Run.outcome_waits`: at every point of a run, an outcome that is held during a pause comes to the
  same as one that is heard after it, and to nothing if the job is cancelled.
-/

namespace JobSwarm.Queue

open Time (Clock)

variable {σ α β : Type} {s t : Scene σ} {state : σ}

/-! ## Work without the engine -/

/-- The same end, with the engine in another state. -/
def leaving (state : σ) :
    EStateM.Result Overflow (Scene σ) α → EStateM.Result Overflow (Scene σ) α
  | .ok value t => .ok value { t with engineState := state }
  | .error overflow t => .error overflow { t with engineState := state }

/-- Work that neither asks the engine nor looks at it. -/
def Engineless (step : Step (Scene σ) α) : Prop :=
  ∀ (s : Scene σ) (state : σ), step { s with engineState := state } = leaving state (step s)

namespace Engineless

variable {step : Step (Scene σ) α}

theorem pure (value : α) : Engineless (pure value : Step (Scene σ) α) :=
  fun _ _ => rfl

/-- What follows work that has come to the same end comes to the same end. -/
theorem leaving_bind {other : Step (Scene σ) α} {next : α → Step (Scene σ) β}
    (first : step t = leaving state (other s)) (second : ∀ value, Engineless (next value)) :
    (step >>= next) t = leaving state ((other >>= next) s) := by
  change EStateM.bind step next t = leaving state (EStateM.bind other next s)
  simp only [EStateM.bind, first]
  cases other s with
  | ok value u => exact second value u state
  | error overflow u => rfl

theorem bind {next : α → Step (Scene σ) β} (first : Engineless step)
    (second : ∀ value, Engineless (next value)) : Engineless (step >>= next) :=
  fun s state => leaving_bind (first s state) second

theorem onPart {T : Type} {look : Scene σ → T} {put : T → Scene σ → Scene σ} {step : Step T α}
    (blind : ∀ (s : Scene σ) (state : σ), look { s with engineState := state } = look s)
    (keeps : ∀ part (s : Scene σ) (state : σ),
      put part { s with engineState := state } = { put part s with engineState := state }) :
    Engineless (Step.onPart look put step) := by
  intro s state
  simp only [Step.onPart, blind]
  cases step (look s) with
  | ok value part => exact congrArg (EStateM.Result.ok value) (keeps part s state)
  | error overflow part => exact congrArg (EStateM.Result.error overflow) (keeps part s state)

theorem modifyQueue (change : Queue → Queue) :
    Engineless (Scene.modifyQueue change : Step (Scene σ) Unit) :=
  fun _ _ => rfl

theorem announce (notice : Event.Notice) :
    Engineless (Scene.announce notice : Step (Scene σ) Unit) :=
  fun _ _ => rfl

theorem report (mishap : Mishap) : Engineless (Scene.report mishap : Step (Scene σ) Unit) :=
  fun _ _ => rfl

theorem release (id : Agent.Id) (outcome : Task.Outcome) (now : Time.Instant) :
    Engineless (Scene.release id outcome now : Step (Scene σ) Unit) := by
  have onSwarm : Engineless (Scene.onSwarm (Swarm.Session.release id outcome now) :
      Step (Scene σ) (Except Swarm.Error Agent.Status)) :=
    onPart (fun _ _ => rfl) fun _ _ _ => rfl
  exact onSwarm.bind fun _ => pure ()

theorem complete (job : Job) (agent : Agent.Id) (bytes : UInt64) (clock : Clock) :
    Engineless (complete job agent bytes clock : Step (Scene σ) Unit) := by
  simp only [Queue.complete]
  split
  · exact (modifyQueue _).bind fun _ => report _
  · refine (modifyQueue _).bind fun _ => bind (onPart (fun _ _ => rfl) fun _ _ _ => rfl) fun _ => ?_
    exact (release _ _ _).bind fun _ => announce _

theorem fail (job : Job) (agent : Agent.Id) (reason : String) (clock : Clock) :
    Engineless (fail job agent reason clock : Step (Scene σ) Unit) := by
  simp only [Queue.fail]
  split
  · exact (modifyQueue _).bind fun _ => report _
  · exact (modifyQueue _).bind fun _ => (release _ _ _).bind fun _ => announce _

end Engineless

section Paused

variable {engine : Engine σ} {clock : Clock} {id : Job.Id} {job : Job} {active : Active}
  {outcome : Engine.Outcome}

/-- An active job ends in the same way whatever the state of the engine. -/
theorem conclude_leaving (state : σ) (found : s.queue.job? id = some job)
    (holds : s.queue.active? id = some active) :
    conclude id outcome clock { s with engineState := state } =
      leaving state (conclude id outcome clock s) := by
  rw [conclude_of_active found holds,
    conclude_of_active (s := { s with engineState := state }) found holds]
  cases outcome with
  | completed bytes => exact Engineless.complete _ _ _ _ { s with queue := s.queue.retire id } state
  | failed reason => exact Engineless.fail _ _ _ _ { s with queue := s.queue.retire id } state

/-! ## Paused jobs -/

/-- A scene in which a job holds an outcome. -/
def Scene.holding (s : Scene σ) (id : Job.Id) (outcome : Engine.Outcome) : Scene σ :=
  { s with queue := s.queue.modifyActive id fun active => { active with held := some outcome } }

/-- A scene in which a paused job goes on. -/
def Scene.goingOn (s : Scene σ) (job : Job) (clock : Clock) : Scene σ :=
  { s with
    toSession := s.toSession.tell (.jobResumed job.id)
    queue := (s.queue.putJob (job.moved .running clock.wall)).modifyActive job.id
      (·.resumed clock) }

theorem active?_modifyActive {queue : Queue} {change : Active → Active}
    (keeps : ∀ active, (change active).jobId = active.jobId)
    (holds : queue.active? id = some active) :
    (queue.modifyActive id change).active? id = some (change active) := by
  have found : (queue.modifyActive id change).active? id = _ :=
    Keyed.find?_modify change fun active h => (keeps active).trans h
  rw [found, if_pos rfl]
  exact congrArg (Option.map change) holds

theorem modifyActive_twice {queue : Queue} {first second : Active → Active}
    (keeps : ∀ active, (first active).jobId = active.jobId) :
    (queue.modifyActive id first).modifyActive id second =
      queue.modifyActive id fun active => second (first active) := by
  rw [modifyActive, modifyActive, modifyActive,
    Keyed.modify_modify _ _ fun active h => (keeps active).trans h]

theorem retire_modifyActive {queue : Queue} {change : Active → Active}
    (keeps : ∀ active, (change active).jobId = active.jobId) :
    (queue.modifyActive id change).retire id = queue.retire id := by
  rw [retire, retire, modifyActive, Keyed.remove_modify _ fun active h => (keeps active).trans h]

/-- What a job held is forgotten when it goes on. -/
theorem goingOn_holding : (s.holding job.id outcome).goingOn job clock = s.goingOn job clock := by
  have once : (((s.queue.putJob (job.moved .running clock.wall)).modifyActive job.id
      fun active => { active with held := some outcome }).modifyActive job.id
        (·.resumed clock)) = (s.goingOn job clock).queue :=
    modifyActive_twice fun _ => rfl
  exact congrArg (fun queue => { s.goingOn job clock with queue := queue }) once

theorem goingOn_found (found : s.queue.job? job.id = some job) :
    (s.goingOn job clock).queue.job? job.id = some (job.moved .running clock.wall) :=
  job?_putJob_self s.queue (job.moved .running clock.wall) job found

theorem goingOn_holds (holds : s.queue.active? job.id = some active) :
    (s.goingOn job clock).queue.active? job.id = some (active.resumed clock) :=
  active?_modifyActive (fun _ => rfl) holds

/-- A paused job holds its outcome. -/
theorem takeOutcome_of_paused (found : s.queue.job? id = some job) (paused : job.status = .paused) :
    takeOutcome id outcome clock s = .ok () (s.holding id outcome) := by
  have held : (s.queue.job? id).any (·.status = .paused) = true := by simp [found, paused]
  simp only [takeOutcome, Step.get_bind]
  rw [if_pos held]
  rfl

/-- A running job ends with its outcome. -/
theorem takeOutcome_of_running (found : s.queue.job? id = some job)
    (running : job.status = .running) :
    takeOutcome id outcome clock s = conclude id outcome clock s := by
  have unheld : ¬(s.queue.job? id).any (·.status = .paused) = true := by simp [found, running]
  simp only [takeOutcome, Step.get_bind]
  rw [if_neg unheld]

/-- How a paused job goes on, if the engine does not keep it from that. -/
theorem resume_of_paused (found : s.queue.job? job.id = some job) (paused : job.status = .paused)
    (holds : s.queue.active? job.id = some active)
    (wakes : wake engine active s = .ok (.ok ()) { s with engineState := state }) :
    resume engine job.id clock s =
      (do
        match active.held with
        | none => pure ()
        | some outcome => conclude job.id outcome clock
        return .ok () : Step (Scene σ) Reply)
        { s.goingOn job clock with engineState := state } := by
  have hmove : job.transition .running clock.wall = .ok (job.moved .running clock.wall) :=
    Job.transition_eq_ok_iff.2 ⟨by rw [paused]; rfl, rfl⟩
  simp only [resume, Step.get_bind, found, holds]
  rw [if_neg (not_not.2 paused), Step.bind_of_ok wakes]
  simp only [hmove, Scene.modifyQueue, Scene.announce, Step.modify_bind]
  rfl

/-- How a paused job is cancelled. What it holds of an outcome does not matter. -/
theorem cancel_of_paused (found : s.queue.job? job.id = some job) (paused : job.status = .paused)
    (holds : s.queue.active? job.id = some active) :
    cancel engine job.id clock s =
      (do
        discard (Scene.callEngine (engine.cancel active.handle))
        Scene.release active.agentId .cancelled clock.wall
        Scene.announce (.jobCancelled job.id)
        return .ok () : Step (Scene σ) Reply)
        { s with queue := (s.queue.putJob (job.moved .cancelled clock.wall)).retire job.id } := by
  have hmove : job.transition .cancelled clock.wall = .ok (job.moved .cancelled clock.wall) :=
    Job.transition_eq_ok_iff.2 ⟨by rw [paused]; rfl, rfl⟩
  have unended : ¬job.status.isTerminal = true := by rw [paused]; decide
  have begun : ¬job.status = .queued := by rw [paused]; decide
  simp only [cancel, Step.get_bind, found, holds, hmove]
  rw [if_neg unended]
  simp only [Scene.modifyQueue, Step.modify_bind]
  rw [if_neg begun]
  simp only [abandon, Scene.modifyQueue, bind_assoc, Step.modify_bind, active?_jobId holds]

/-! ## Two ways to the end -/

/-- The outcome comes during the pause, and then the job is resumed. -/
def hearThenResume (engine : Engine σ) (id : Job.Id) (outcome : Engine.Outcome)
    (heard clock : Clock) : Step (Scene σ) Reply := do
  takeOutcome id outcome heard
  resume engine id clock

/-- The job is resumed, and then the outcome comes. -/
def resumeThenHear (engine : Engine σ) (id : Job.Id) (outcome : Engine.Outcome) (clock : Clock) :
    Step (Scene σ) Reply := do
  let reply ← resume engine id clock
  takeOutcome id outcome clock
  return reply

/-- The outcome comes during the pause, and then the job is cancelled. -/
def hearThenCancel (engine : Engine σ) (id : Job.Id) (outcome : Engine.Outcome)
    (heard clock : Clock) : Step (Scene σ) Reply := do
  takeOutcome id outcome heard
  cancel engine id clock

/-- The job goes on and ends at once. -/
def goOnAndEnd (s : Scene σ) (job : Job) (outcome : Engine.Outcome) (clock : Clock) :
    EStateM.Result Overflow (Scene σ) Reply :=
  (do
    conclude job.id outcome clock
    return .ok () : Step (Scene σ) Reply) (s.goingOn job clock)

theorem goOnAndEnd_uncalled (found : s.queue.job? job.id = some job)
    (holds : s.queue.active? job.id = some active) :
    goOnAndEnd s job outcome clock = leaving s.engineState (goOnAndEnd s job outcome clock) := by
  refine Engineless.leaving_bind ?_ fun _ => Engineless.pure _
  exact conclude_leaving s.engineState (goingOn_found found) (goingOn_holds holds)

theorem hearThenResume_eq {heard : Clock} (found : s.queue.job? job.id = some job)
    (paused : job.status = .paused) (holds : s.queue.active? job.id = some active) :
    hearThenResume engine job.id outcome heard clock s = goOnAndEnd s job outcome clock := by
  have holding : (s.holding job.id outcome).queue.active? job.id =
      some { active with held := some outcome } :=
    active?_modifyActive (fun _ => rfl) holds
  rw [hearThenResume, Step.bind_of_ok (takeOutcome_of_paused found paused),
    resume_of_paused (s := s.holding job.id outcome) found paused holding rfl, goOnAndEnd]
  exact congrArg _ goingOn_holding

theorem resumeThenHear_eq (found : s.queue.job? job.id = some job) (paused : job.status = .paused)
    (holds : s.queue.active? job.id = some active) (unheld : active.held = none)
    (wakes : engine.resume active.handle s.engineState = (.ok (), state)) :
    resumeThenHear engine job.id outcome clock s =
      leaving state (goOnAndEnd s job outcome clock) := by
  have woken : wake engine active s = .ok (.ok ()) { s with engineState := state } := by
    simp only [wake, unheld]
    exact Scene.callEngine_eq_ok.2 ⟨state, wakes, rfl⟩
  have resumed : resume engine job.id clock s =
      .ok (.ok ()) { s.goingOn job clock with engineState := state } := by
    rw [resume_of_paused found paused holds woken, unheld]
    rfl
  have running : (s.goingOn job clock).queue.job? job.id = some (job.moved .running clock.wall) :=
    goingOn_found found
  rw [resumeThenHear, Step.bind_of_ok resumed, goOnAndEnd]
  refine Engineless.leaving_bind ?_ fun _ => Engineless.pure _
  rw [takeOutcome_of_running (s := { s.goingOn job clock with engineState := state }) running rfl]
  exact conclude_leaving state running (goingOn_holds holds)

theorem hearThenCancel_eq {heard : Clock} (found : s.queue.job? job.id = some job)
    (paused : job.status = .paused) (holds : s.queue.active? job.id = some active) :
    hearThenCancel engine job.id outcome heard clock s = cancel engine job.id clock s := by
  have holding : (s.holding job.id outcome).queue.active? job.id =
      some { active with held := some outcome } :=
    active?_modifyActive (fun _ => rfl) holds
  rw [hearThenCancel, Step.bind_of_ok (takeOutcome_of_paused found paused),
    cancel_of_paused (s := s.holding job.id outcome) found paused holding,
    cancel_of_paused found paused holds]
  have dropped : (((s.queue.putJob (job.moved .cancelled clock.wall)).modifyActive job.id
      fun active => { active with held := some outcome }).retire job.id) =
        (s.queue.putJob (job.moved .cancelled clock.wall)).retire job.id :=
    retire_modifyActive fun _ => rfl
  exact congrArg _ (congrArg (fun queue => { s with queue := queue }) dropped)

end Paused

/-! ## At every point of a run -/

/-- What becomes of an outcome that is heard while its job is paused, and of what the job holds. -/
structure Waits (engine : Engine σ) (s : Scene σ) (id : Job.Id) (active : Active)
    (outcome : Engine.Outcome) (heard clock : Clock) : Prop where
  /-- The outcome is noted where the job holds its agent. Nothing else changes: the same jobs hold
  the same agents, and nothing is announced. -/
  held : ∃ t, takeOutcome id outcome heard s = .ok () t ∧
    t = { s with queue := { s.queue with active := t.queue.active } } ∧
    t.queue.held = s.queue.held ∧
    t.queue.active? id = some { active with held := some outcome } ∧
    ∀ other, other ≠ id → t.queue.active? other = s.queue.active? other
  /-- Whether the outcome comes before the job is resumed or after, both ways end alike or stop
  alike, with the same answer, records, entries, counters, agents, announcements and mishaps. The
  engine alone has been called one time more. -/
  resumed : resumeThenHear engine id outcome clock s =
    leaving (engine.resume active.handle s.engineState).2
      (hearThenResume engine id outcome heard clock s)
  /-- The engine is not called for a run that has ended. -/
  uncalled : hearThenResume engine id outcome heard clock s =
    leaving s.engineState (hearThenResume engine id outcome heard clock s)
  accepted : ∀ reply t, hearThenResume engine id outcome heard clock s = .ok reply t →
    reply = .ok ()
  /-- A job that is cancelled instead is cancelled as if nothing had been heard of its run. -/
  cancelled : hearThenCancel engine id outcome heard clock s = cancel engine id clock s

/-- At every point of a run, a paused job that holds no outcome yet holds the one that comes, and
ends with it when it is resumed, as it would have ended if the outcome had come then. -/
theorem Run.outcome_waits {engine : Engine σ} {config : Config} {swarm : Swarm} {id : Job.Id}
    {job : Job} (run : Run engine (.initial config swarm state) s)
    (found : s.queue.job? id = some job) (paused : job.status = .paused)
    (unheld : ∀ active, s.queue.active? id = some active → active.held = none)
    (wakes : ∀ active, s.queue.active? id = some active →
      (engine.resume active.handle s.engineState).1 = .ok ())
    (outcome : Engine.Outcome) (heard clock : Clock) :
    ∃ active, s.queue.active? id = some active ∧
      Waits engine s id active outcome heard clock := by
  have sound := (run.sound (sound_initial config)).1
  obtain ⟨active, holds, -⟩ := sound.holds_of_paused found paused
  obtain rfl := job?_id found
  have first : hearThenResume engine job.id outcome heard clock s =
      goOnAndEnd s job outcome clock := hearThenResume_eq found paused holds
  refine ⟨active, holds, ?_, ?_, ?_, fun reply t h => ?_, ?_⟩
  · refine ⟨s.holding job.id outcome, takeOutcome_of_paused found paused, rfl, ?_, ?_, ?_⟩
    · exact held_modifyActive fun _ => ⟨rfl, rfl⟩
    · exact active?_modifyActive (fun _ => rfl) holds
    · intro other ne
      have same : (s.holding job.id outcome).queue.slice other = _ :=
        slice_modifyActive fun _ => rfl
      rw [if_neg ne] at same
      exact congrArg Slice.active same
  · rw [first]
    exact resumeThenHear_eq found paused holds (unheld active holds)
      (Prod.ext (wakes active holds) rfl)
  · rw [first]
    exact goOnAndEnd_uncalled found holds
  · rw [first, goOnAndEnd, Step.bind_eq_ok] at h
    obtain ⟨_, _, -, answered⟩ := h
    exact (Step.pure_eq_ok.1 answered).1.symm
  · exact hearThenCancel_eq found paused holds

/-- A job starts and pauses. -/
theorem Run.outcome_waits_of_lone :
    ∃ s active, Run Engine.Stub.engine (.initial {} loneSwarm Engine.Stub.standard) s ∧
      s.queue.active? ⟨1⟩ = some active ∧
      Waits Engine.Stub.engine s ⟨1⟩ active (.completed 8) (.epoch 2) (.epoch 3) := by
  have played : (play Engine.Stub.engine
      [.told (.epoch 0) (.submit ⟨1⟩ { targetPath := "notes" } .normal),
        .told (.epoch 1) (.pause ⟨1⟩)]
      (.initial {} loneSwarm Engine.Stub.standard)).any
        (fun s => (s.queue.job? ⟨1⟩).any (·.status = .paused) &&
          (s.queue.active? ⟨1⟩).all fun active => active.held = none ∧
            (Engine.Stub.engine.resume active.handle s.engineState).1 = .ok ()) = true := by
    decide +kernel
  obtain ⟨s, hs, state⟩ := (Option.any_eq_true _ _).1 played
  obtain ⟨known, holds⟩ := Bool.and_eq_true_iff.1 state
  obtain ⟨job, found, paused⟩ := (Option.any_eq_true _ _).1 known
  have ready active (h : s.queue.active? ⟨1⟩ = some active) :=
    of_decide_eq_true ((Option.all_eq_true _ _).1 holds active h)
  obtain ⟨active, holds, waits⟩ := Run.outcome_waits (run_of_play hs) found
    (of_decide_eq_true paused) (fun active h => (ready active h).1)
    (fun active h => (ready active h).2) (.completed 8) (.epoch 2) (.epoch 3)
  exact ⟨s, active, run_of_play hs, holds, waits⟩

end JobSwarm.Queue
