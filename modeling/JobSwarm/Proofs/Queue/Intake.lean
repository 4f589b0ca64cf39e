import JobSwarm.Proofs.Queue.Run
import JobSwarm.Proofs.Swarm.Registry

/-!
# What a queue takes in

A queue keeps a record of each job that it has taken in, and of no other. Nothing that it does to a
job adds a record, takes one away or moves one, even where it stops. An intake is a run together
with the jobs that were taken in, in the order of submission.

Results:

* `Records.pass`, `cancel`, `pause`, `resume`, `drain`: which jobs a queue has records of does not
  change with what it does to them.
* `handle_records`: a message adds the record of the job that it brings, if the job is taken in.
* `Intake.records`: the records are those of the jobs that were taken in, in order.
* `Run.intake`: each run has its intake.
-/

namespace JobSwarm.Queue

open Step (Keeps keeps_get keeps_modify keeps_ofSum keeps_pure)
open Time (Clock)

variable {σ : Type} {engine : Engine σ} {clock : Clock} {ids : List Job.Id}

/-- The queue has records of these jobs, in this order. -/
def Records (ids : List Job.Id) (s : Scene σ) : Prop :=
  s.queue.jobs.map (·.id) = ids

/-- The job that a message brings, if it is taken in. -/
def Message.taken : Message → Reply → List Job.Id
  | .submit id _ _, .ok () => [id]
  | _, _ => []

namespace Records

/-! ## Small steps -/

-- A path of moves may take in a job at any point. That no call but one does is read off the calls.

theorem modifyQueue {change : Queue → Queue}
    (same : ∀ queue, (change queue).jobs.map (·.id) = queue.jobs.map (·.id)) :
    Keeps (Records (σ := σ) ids) (Scene.modifyQueue change) :=
  keeps_modify fun s h => (same s.queue).trans h

theorem putJob (job : Job) : Keeps (Records (σ := σ) ids) (Scene.modifyQueue (·.putJob job)) :=
  modifyQueue fun queue => putJob_ids queue job

theorem withdraw (id : Job.Id) :
    Keeps (Records (σ := σ) ids) (Scene.modifyQueue (·.withdraw id)) :=
  modifyQueue fun _ => rfl

theorem activate (active : Active) :
    Keeps (Records (σ := σ) ids) (Scene.modifyQueue (·.activate active)) :=
  modifyQueue fun _ => rfl

theorem retire (id : Job.Id) : Keeps (Records (σ := σ) ids) (Scene.modifyQueue (·.retire id)) :=
  modifyQueue fun _ => rfl

theorem modifyActive (id : Job.Id) (change : Active → Active) :
    Keeps (Records (σ := σ) ids) (Scene.modifyQueue (·.modifyActive id change)) :=
  modifyQueue fun _ => rfl

theorem announce (notice : Event.Notice) : Keeps (Records (σ := σ) ids) (Scene.announce notice) :=
  keeps_modify fun _ h => h

theorem report (mishap : Mishap) : Keeps (Records (σ := σ) ids) (Scene.report mishap) :=
  keeps_modify fun _ h => h

theorem onSwarm {α : Type} (step : Step Swarm.Session α) :
    Keeps (Records (σ := σ) ids) (Scene.onSwarm step) := by
  intro s h
  simp only [Scene.onSwarm, Step.onPart]
  cases step s.toSession <;> exact h

theorem callEngine {α : Type} (call : σ → α × σ) :
    Keeps (Records (σ := σ) ids) (Scene.callEngine call) :=
  fun _ h => h

theorem release (agent : Agent.Id) (outcome : Task.Outcome) (now : Time.Instant) :
    Keeps (Records (σ := σ) ids) (Scene.release agent outcome now) :=
  (onSwarm _).discard

theorem countCompleted (duration : UInt64) :
    Keeps (Records (σ := σ) ids)
      (Step.onPart (·.queue) (fun queue s => { s with queue := queue })
        (Queue.countCompleted duration)) := by
  have counts : Keeps (fun queue : Queue => queue.jobs.map (·.id) = ids)
      (Queue.countCompleted duration) := by
    refine keeps_get.bind fun queue => (keeps_ofSum _).bind fun total => Keeps.bind ?_ fun _ => ?_
    · exact keeps_modify fun _ h => h
    · exact keeps_get.bind fun queue => (keeps_ofSum _).bind fun count => keeps_modify fun _ h => h
  intro s h
  have counted := counts s.queue h
  simp only [Step.onPart]
  cases hcount : Queue.countCompleted duration s.queue <;> rwa [hcount] at counted

/-! ## How jobs get on and end -/

theorem complete (job : Job) (agent : Agent.Id) (bytes : UInt64) :
    Keeps (Records (σ := σ) ids) (Queue.complete job agent bytes clock) := by
  simp only [Queue.complete]
  split
  · exact (putJob _).bind fun _ => report _
  · refine (putJob _).bind fun _ => (countCompleted _).bind fun _ => ?_
    exact (release _ _ _).bind fun _ => announce _

theorem fail (job : Job) (agent : Agent.Id) (reason : String) :
    Keeps (Records (σ := σ) ids) (Queue.fail job agent reason clock) := by
  simp only [Queue.fail]
  split
  · exact (putJob _).bind fun _ => report _
  · exact (putJob _).bind fun _ => (release _ _ _).bind fun _ => announce _

theorem conclude (id : Job.Id) (outcome : Engine.Outcome) :
    Keeps (Records (σ := σ) ids) (Queue.conclude id outcome clock) := by
  refine keeps_get.bind fun s => ?_
  split
  · exact keeps_pure _
  refine (retire id).bind fun _ => keeps_get.bind fun s => ?_
  split
  · exact keeps_pure _
  cases outcome with
  | completed bytes => exact complete _ _ _
  | failed reason => exact fail _ _ _

theorem takeOutcome (id : Job.Id) (outcome : Engine.Outcome) :
    Keeps (Records (σ := σ) ids) (Queue.takeOutcome id outcome clock) := by
  refine keeps_get.bind fun s => ?_
  split
  · exact modifyActive _ _
  · exact conclude _ _

theorem takeProgress (id : Job.Id) (snapshot : Engine.Snapshot) :
    Keeps (Records (σ := σ) ids) (Queue.takeProgress id snapshot clock) := by
  refine keeps_get.bind fun s => ?_
  dsimp only
  split
  · split
    · refine (putJob _).bind fun _ => ?_
      split
      · exact (modifyActive _ _).bind fun _ => announce _
      · exact keeps_pure _
    · exact keeps_pure _
  · exact keeps_pure _

/-! ## Passes -/

theorem expireAll : Keeps (Records ids) (Queue.expireAll engine clock) :=
  keeps_get.bind fun _ => Keeps.forM (fun _ => (callEngine _).discard.bind fun _ => conclude _ _) _

theorem refuseStart (job : Job) (agent : Agent.Id) (reason : String) :
    Keeps (Records (σ := σ) ids) (Queue.refuseStart job agent reason clock) := by
  simp only [Queue.refuseStart]
  split
  · refine (putJob _).bind fun _ => (report _).bind fun _ => ?_
    exact (release _ _ _).bind fun _ => announce _
  · exact (putJob _).bind fun _ => (release _ _ _).bind fun _ => announce _

theorem startJob (task : Task) (timeoutSecs : UInt64) (agent : Agent.Id) :
    Keeps (Records ids) (Queue.startJob engine task timeoutSecs agent clock) := by
  refine keeps_get.bind fun s => ?_
  split
  · exact release _ _ _
  split
  · exact (report _).bind fun _ => release _ _ _
  · refine (putJob _).bind fun _ => (announce _).bind fun _ => (callEngine _).bind fun answer => ?_
    cases answer with
    | ok handle => exact activate _
    | error refusal => exact refuseStart _ _ _

theorem consider (blocked : List String) (entry : Pending) :
    Keeps (Records ids) (Queue.consider engine clock blocked entry) := by
  refine keeps_get.bind fun s => ?_
  dsimp only
  split
  · exact keeps_pure _
  split
  · exact (withdraw _).bind fun _ => keeps_pure _
  split
  · exact keeps_pure _
  refine (onSwarm _).bind fun found => ?_
  cases found with
  | none => exact keeps_pure _
  | some agent =>
    refine (withdraw _).bind fun _ => ?_
    exact (startJob _ _ _).bind fun _ => keeps_pure _

theorem pass : Keeps (Records ids) (Queue.pass engine clock) := by
  refine expireAll.bind fun _ => (onSwarm _).discard.bind fun _ => keeps_get.bind fun s => ?_
  refine Keeps.discard ?_
  generalize ([] : List String) = blocked
  induction s.queue.pending generalizing blocked with
  | nil => exact keeps_pure _
  | cons entry rest ih =>
    rw [List.foldlM_cons]
    exact (consider _ _).bind ih

/-! ## Requests -/

theorem abandon (active : Active) : Keeps (Records ids) (Queue.abandon engine active clock) :=
  (retire _).bind fun _ => (callEngine _).discard.bind fun _ => release _ _ _

theorem cancel (id : Job.Id) : Keeps (Records ids) (Queue.cancel engine id clock) := by
  refine keeps_get.bind fun s => ?_
  dsimp only
  split
  · exact keeps_pure _
  split
  · exact keeps_pure _
  split
  · exact keeps_pure _
  refine (putJob _).bind fun _ => ?_
  split
  · exact (withdraw _).bind fun _ => (announce _).bind fun _ => keeps_pure _
  split
  · exact (announce _).bind fun _ => keeps_pure _
  · exact (abandon _).bind fun _ => (announce _).bind fun _ => keeps_pure _

theorem pause (id : Job.Id) : Keeps (Records ids) (Queue.pause engine id clock) := by
  refine keeps_get.bind fun s => ?_
  dsimp only
  split
  · exact keeps_pure _
  split
  · exact keeps_pure _
  split
  · exact keeps_pure _
  refine (callEngine _).bind fun answer => ?_
  cases answer with
  | error refusal => exact keeps_pure _
  | ok =>
    dsimp only
    split
    · exact keeps_pure _
    · refine (putJob _).bind fun _ => (modifyActive _ _).bind fun _ => ?_
      exact (announce _).bind fun _ => keeps_pure _

theorem wake (active : Active) : Keeps (Records ids) (Queue.wake engine active) := by
  unfold Queue.wake
  split
  · exact keeps_pure _
  · exact callEngine _

theorem resume (id : Job.Id) : Keeps (Records ids) (Queue.resume engine id clock) := by
  refine keeps_get.bind fun s => ?_
  dsimp only
  split
  · exact keeps_pure _
  split
  · exact keeps_pure _
  split
  · exact keeps_pure _
  refine (wake _).bind fun answer => ?_
  cases answer with
  | error refusal => exact keeps_pure _
  | ok =>
    dsimp only
    split
    · exact keeps_pure _
    refine (putJob _).bind fun _ => (modifyActive _ _).bind fun _ => ?_
    refine (announce _).bind fun _ => ?_
    split
    · exact keeps_pure _
    · exact (conclude _ _).bind fun _ => keeps_pure _

theorem drain : Keeps (Records ids) (Queue.drain engine clock) :=
  keeps_get.bind fun _ => Keeps.forM (fun _ => (cancel _).discard) _

/-! ## Messages -/

/-- Nothing but a new job adds a record. -/
theorem react {message : Message} (bringsNone : message.taken (.ok ()) = []) :
    Keeps (Records ids) (Queue.react engine clock message) := by
  cases message with
  | submit => cases bringsNone
  | cancel id => exact cancel id
  | pause id => exact pause id
  | resume id => exact resume id
  | progress id snapshot => exact (takeProgress id snapshot).bind fun _ => keeps_pure _
  | finished id outcome => exact (takeOutcome id outcome).bind fun _ => keeps_pure _
  | schedule => exact keeps_pure _

end Records

/-! ## New jobs -/

section Messages

variable {s t : Scene σ}

theorem submit_records {id : Job.Id} {config : Job.Config} {priority : Priority} {reply : Reply}
    (h : submit id config priority clock s = .ok reply t) :
    Records (s.queue.jobs.map (·.id) ++ Message.taken (.submit id config priority) reply) t := by
  rw [submit] at h
  cases hvalid : config.validate with
  | error fault =>
    simp only [hvalid] at h
    obtain ⟨rfl, rfl⟩ := Step.pure_eq_ok.1 h
    exact (List.append_nil _).symm
  | ok =>
    simp only [hvalid, Step.bind_eq_ok, Step.get_eq_ok] at h
    obtain ⟨_, _, ⟨rfl, rfl⟩, h⟩ := h
    split at h
    · obtain ⟨rfl, rfl⟩ := Step.pure_eq_ok.1 h
      exact (List.append_nil _).symm
    · simp only [Step.bind_eq_ok, Step.ofSum_eq_ok, Scene.modifyQueue_eq_ok, Scene.announce_eq_ok,
        Step.pure_eq_ok] at h
      obtain ⟨sequence, _, ⟨-, rfl⟩, _, _, rfl, _, _, rfl, rfl, rfl⟩ := h
      exact List.map_append

/-- A message adds the record of the job that it brings, if the job is taken in, and no other. -/
theorem handle_records {message : Message} {reply : Reply}
    (h : handle engine clock message s = .ok reply t) :
    Records (s.queue.jobs.map (·.id) ++ message.taken reply) t := by
  obtain ⟨answer, u, reacts, rest⟩ := Step.bind_eq_ok.1 h
  have reacted : Records (s.queue.jobs.map (·.id) ++ message.taken answer) u := by
    cases message with
    | submit id config priority => exact submit_records reacts
    | cancel | pause | resume | progress | finished | schedule =>
      refine (Records.react ?_).of_ok (List.append_nil _).symm reacts
      rfl
  split at rest
  · obtain ⟨_, _, passes, rest⟩ := Step.bind_eq_ok.1 rest
    obtain ⟨rfl, rfl⟩ := Step.pure_eq_ok.1 rest
    exact Records.pass.of_ok reacted passes
  · obtain ⟨rfl, rfl⟩ := Step.pure_eq_ok.1 rest
    exact reacted

/-! ## Intakes -/

/-- A run from one scene to another, with the jobs that were taken in, the last one last. -/
inductive Intake (engine : Engine σ) (start : Scene σ) : List Job.Id → Scene σ → Prop
  | begins : Intake engine start [] start
  | handles {ids : List Job.Id} {s t : Scene σ} {clock : Clock} {message : Message}
      {reply : Reply} (past : Intake engine start ids s) (fresh : message.IsFresh s.queue)
      (call : handle engine clock message s = .ok reply t) :
      Intake engine start (ids ++ message.taken reply) t
  | drains {ids : List Job.Id} {s t : Scene σ} {clock : Clock}
      (past : Intake engine start ids s) (call : drain engine clock s = .ok () t) :
      Intake engine start ids t
  /-- Others use the swarm and the engine. -/
  | waits {ids : List Job.Id} {s : Scene σ} (past : Intake engine start ids s) (swarm : Swarm)
      (engineState : σ) :
      Intake engine start ids { s with swarm := swarm, engineState := engineState }

theorem Intake.run (intake : Intake engine s ids t) : Run engine s t := by
  induction intake with
  | begins => exact .refl
  | handles _ fresh call ih => exact ih.tail (.handles _ _ fresh call)
  | drains _ call ih => exact ih.tail (.drains _ call)
  | waits _ swarm engineState ih => exact ih.tail (.waits swarm engineState)

/-- Each run has its intake. -/
theorem Run.intake (run : Run engine s t) : ∃ ids, Intake engine s ids t := by
  induction run with
  | refl => exact ⟨[], .begins⟩
  | tail _ step ih =>
    obtain ⟨ids, past⟩ := ih
    cases step with
    | handles clock message fresh call => exact ⟨_, past.handles fresh call⟩
    | drains clock call => exact ⟨_, past.drains call⟩
    | waits swarm engineState => exact ⟨_, past.waits swarm engineState⟩

/-- The records are those there were, and then those of the jobs that were taken in. -/
theorem Intake.records (intake : Intake engine s ids t) :
    Records (s.queue.jobs.map (·.id) ++ ids) t := by
  induction intake with
  | begins => exact (List.append_nil _).symm
  | @handles ids u t clock message reply past fresh call ih =>
    have handled : Records (u.queue.jobs.map (·.id) ++ message.taken reply) t :=
      handle_records call
    rw [ih, List.append_assoc] at handled
    exact handled
  | drains _ call ih => exact Records.drain.of_ok ih call
  | waits _ _ _ ih => exact ih

end Messages

end JobSwarm.Queue
