import JobSwarm.Proofs.Queue.Held
import JobSwarm.Proofs.Queue.Watch
import JobSwarm.Proofs.Swarm.Work

/-!
# What the records of jobs account for

A job that has ended on an agent had an outcome, which its record tells. Whatever a queue does, the
outcomes that its records tell and the outcomes that the agents have counted become more by the
same. A failed job whose run never began took no time.

Results:

* `Job.share_of_outcome`, `Job.share_of_open`: what a record accounts for.
* `Slice.Turn.booked`: what a record tells of agents and times stays in order.
* `Move.begins`: a job holds a run only after the engine was heard to begin one.
* `Path.books`: on a path, records and agents come to account for the same.
-/

namespace JobSwarm

open JobSwarm.Task (Measure)
open Time (Instant Clock)

/-! ## Records -/

namespace Job

/-- The outcome of the task of a job that has ended on an agent. -/
def outcome? (job : Job) : Option Task.Outcome :=
  match job.status with
  | .completed => some (.succeeded (job.durationMs.getD 0))
  | .failed => some (.failed (job.durationMs.getD 0))
  | .cancelled => if job.startedAt.isSome then some .cancelled else none
  | .queued | .running | .paused => none

/-- What a record accounts for. -/
def amount (job : Job) (what : Measure) : Nat :=
  (job.outcome?.map (·.amount what)).getD 0

/-- What a record accounts for, if its agent is one of those asked for. -/
def share (who : Agent.Id → Bool) (what : Measure) (job : Job) : Nat :=
  if job.agentId.any who then job.amount what else 0

/-- What a record tells of its agent and its times goes with its status. It has failed after a run,
or at once. -/
structure Booked (ran : Prop) (job : Job) : Prop where
  started_iff : job.startedAt.isSome ↔ job.agentId.isSome
  queued : job.status = .queued → job.agentId = none
  assigned : job.status ≠ .queued → job.status ≠ .cancelled → job.agentId.isSome
  failed : job.status = .failed → ran ∨ job.durationMs.getD 0 = 0

variable {job : Job} {ran ran' : Prop} {next : Status} {now : Instant} {agent : Agent.Id}
  {who : Agent.Id → Bool} {what : Measure}

theorem amount_completed : job.amount .completed = if job.status = .completed then 1 else 0 := by
  rw [amount, outcome?]
  cases job.status with
  | cancelled => cases job.startedAt <;> rfl
  | _ => rfl

theorem amount_failed : job.amount .failed = if job.status = .failed then 1 else 0 := by
  rw [amount, outcome?]
  cases job.status with
  | cancelled => cases job.startedAt <;> rfl
  | _ => rfl

theorem amount_cancelled : job.amount .cancelled =
    if job.status = .cancelled ∧ job.startedAt.isSome then 1 else 0 := by
  rw [amount, outcome?]
  cases job.status with
  | cancelled => cases job.startedAt <;> rfl
  | _ => rfl

theorem amount_durationMs : job.amount .durationMs =
    if job.status = .completed ∨ job.status = .failed then (job.durationMs.getD 0).toNat
    else 0 := by
  rw [amount, outcome?]
  cases job.status with
  | cancelled => cases job.startedAt <;> rfl
  | _ => rfl

theorem amount_of_open (going : job.status.isTerminal = false) : job.amount what = 0 := by
  rw [amount, outcome?]
  cases status : job.status with
  | queued | running | paused => rfl
  | completed | failed | cancelled =>
    rw [status] at going
    cases going

theorem share_of_open (going : job.status.isTerminal = false) : job.share who what = 0 := by
  rw [share, amount_of_open going, ite_self]

theorem share_of_none (unassigned : job.agentId = none) : job.share who what = 0 := by
  rw [share, unassigned]
  rfl

theorem share_of_outcome {outcome : Task.Outcome} (assigned : job.agentId = some agent)
    (ended : job.outcome? = some outcome) :
    job.share who what = if who agent then outcome.amount what else 0 := by
  rw [share, assigned, amount, ended]
  rfl

namespace Booked

theorem mono (booked : job.Booked ran) (more : ran → ran') : job.Booked ran' :=
  { booked with failed := fun status => (booked.failed status).imp_left more }

/-- What else a record tells does not matter. -/
theorem like {other : Job} (booked : job.Booked ran) (status : other.status = job.status)
    (agent : other.agentId = job.agentId) (started : other.startedAt = job.startedAt)
    (finished : other.finishedAt = job.finishedAt) : other.Booked ran where
  started_iff := by rw [started, agent, booked.started_iff]
  queued h := by rw [agent, booked.queued (status ▸ h)]
  assigned queued cancelled := by
    rw [agent]
    exact booked.assigned (status ▸ queued) (status ▸ cancelled)
  failed h := by
    rw [durationMs, started, finished]
    exact booked.failed (status ▸ h)

theorem unstarted (booked : job.Booked ran) (status : job.status = .queued) :
    job.startedAt = none := by
  refine Option.not_isSome_iff_eq_none.1 fun started => ?_
  have assigned := booked.started_iff.1 started
  rw [booked.queued status] at assigned
  cases assigned

theorem assigned_of_active (booked : job.Booked ran)
    (active : job.status = .running ∨ job.status = .paused) : job.agentId.isSome := by
  refine booked.assigned ?_ ?_ <;> rcases active with status | status <;> simp [status]

/-- A job without an agent accounts for nothing. -/
theorem amount_of_none (booked : job.Booked ran) (none : job.agentId = none) :
    job.amount what = 0 := by
  have unassigned : ¬job.agentId.isSome = true := by simp [none]
  have unstarted := mt booked.started_iff.1 unassigned
  rw [amount, outcome?]
  cases status : job.status with
  | queued | running | paused => rfl
  | completed | failed =>
    refine absurd (booked.assigned ?_ ?_) unassigned <;> simp [status]
  | cancelled => simp [unstarted]

theorem submitted {id : Id} {config : Config} {priority : Priority} {sequence : UInt64} :
    (Job.submitted id config priority sequence now).Booked ran where
  started_iff := Iff.rfl
  queued _ := rfl
  assigned queued := absurd rfl queued
  failed := nofun

theorem started : (job.started agent now).Booked ran where
  started_iff := by simp [Job.started, Job.moved]
  queued := nofun
  assigned _ _ := rfl
  failed := nofun

/-- A job that has an agent may go on, or end. -/
theorem moved (booked : job.Booked ran) (assigned : job.agentId.isSome) (later : next ≠ .queued)
    (failed : next = .failed → ran') : (job.moved next now).Booked ran' where
  started_iff := by
    have started := booked.started_iff.2 assigned
    by_cases running : next = .running <;> simp [Job.moved, running, started, assigned]
  queued status := absurd status later
  assigned _ _ := assigned
  failed status := .inl (failed status)

/-- A job that no agent has taken up may be cancelled. -/
theorem withdrawn (booked : job.Booked ran) : (job.moved .cancelled now).Booked ran' where
  started_iff := booked.started_iff
  queued := nofun
  assigned _ uncancelled := absurd rfl uncancelled
  failed := nofun

/-- What is refused at its start took no time. -/
theorem durationMs_of_refused {reason : String} (unstarted : job.startedAt = none) :
    ((job.started agent now).failed reason now).durationMs = some 0 := by
  simp [durationMs, Job.failed, Job.started, Job.moved, unstarted, Status.isTerminal,
    Instant.since, Instant.wholeMillis]

theorem refused {reason : String} (unstarted : job.startedAt = none) :
    ((job.started agent now).failed reason now).Booked ran where
  started_iff := by simp [Job.failed, Job.started, Job.moved]
  queued := nofun
  assigned _ _ := rfl
  failed _ := .inr (by rw [durationMs_of_refused unstarted, Option.getD_some])

end Booked

end Job

namespace Queue

open Event (Notice)
open Swarm (Holding Session)

/-! ## Turns -/

/-- A record is in order, and what a job holds is a run that has begun. -/
structure Slice.Booked (ran : Prop) (slice : Slice) : Prop where
  ran_of_active : slice.active.isSome → ran
  job : ∀ job, slice.job = some job → job.Booked ran

section Turns

variable {ran ran' : Prop} {slice a b : Slice} {clock : Clock} {grounds : Slice.Grounds}
  {news : List Notice}

theorem Slice.Booked.mono (booked : slice.Booked ran) (more : ran → ran') :
    slice.Booked ran' where
  ran_of_active holds := more (booked.ran_of_active holds)
  job job found := (booked.job job found).mono more

/-- A turn keeps a slice in order, if a run has begun for what the job holds anew. -/
theorem Slice.Turn.booked (turn : Turn clock grounds a news b) (booked : a.Booked ran)
    (more : ran → ran') (begun : b.active.isSome → a.active.isSome ∨ ran') : b.Booked ran' := by
  have ran_of_active (holds : b.active.isSome) : ran' :=
    (begun holds).elim (fun held => more (booked.ran_of_active held)) id
  have assigned {job : Job} (found : a.job = some job)
      (status : job.status = .running ∨ job.status = .paused) : job.agentId.isSome :=
    (booked.job job found).assigned_of_active status
  refine ⟨ran_of_active, fun job found => ?_⟩
  cases turn with
  | still | hold => exact (booked.job job found).mono more
  | submit new =>
    cases found
    rw [new]
    exact .submitted
  | start active status =>
    cases found
    exact .started
  | @refuse queued agent reason status =>
    cases found
    exact .refused ((booked.job queued rfl).unstarted status)
  | @advance running active snapshot status | @announce running active snapshot status =>
    cases found
    exact ((booked.job running rfl).mono more).like rfl rfl rfl rfl
  | @complete running done active bytes status ended =>
    cases found
    subst ended
    have agent : running.agentId.isSome := assigned rfl (.inl status)
    exact Job.Booked.moved ((booked.job running rfl).like rfl rfl rfl rfl) agent nofun nofun
  | @fail running active reason status =>
    cases found
    have agent : running.agentId.isSome := assigned rfl (.inl status)
    have run : ran' := more (booked.ran_of_active rfl)
    exact Job.Booked.moved ((booked.job running rfl).like rfl rfl rfl rfl) agent nofun fun _ => run
  | @withdraw queued status =>
    cases found
    exact (booked.job queued rfl).withdrawn
  | @abandon going active status =>
    cases found
    exact (booked.job going rfl).moved (assigned rfl status) nofun nofun
  | @pause running active status =>
    cases found
    exact (booked.job running rfl).moved (assigned rfl (.inl status)) nofun nofun
  | @resume paused active resumed status =>
    cases found
    exact (booked.job paused rfl).moved (assigned rfl (.inr status)) nofun nofun

end Turns

/-! ## Queues -/

/-- What the records of a queue account for together, as far as their agents are asked for. -/
def work (queue : Queue) (who : Agent.Id → Bool) (what : Measure) : Nat :=
  (queue.jobs.map (Job.share who what)).sum

section Work

variable {queue : Queue} {job old : Job} {who : Agent.Id → Bool} {what : Measure}

theorem work_add (new : job.agentId = none) :
    (queue.add job).work who what = queue.work who what := by
  rw [work, add, List.map_append, List.sum_append, List.map_singleton, List.sum_singleton,
    Job.share_of_none new, work]
  rfl

/-- The new record of a job that had not ended adds what it accounts for. -/
theorem work_putJob (sound : queue.Sound) (found : queue.job? job.id = some old)
    (going : old.status.isTerminal = false) :
    (queue.putJob job).work who what = queue.work who what + job.share who what := by
  have moved : (queue.putJob job).work who what + old.share who what =
      queue.work who what + job.share who what :=
    Keyed.sum_modify (Job.share who what) (fun _ => job) sound.jobs_unique found
  rw [Job.share_of_open going] at moved
  exact moved

/-- A job that goes on accounts for nothing yet. -/
theorem work_going_on {next : Job} (sound : queue.Sound) (found : queue.job? next.id = some old)
    (going : old.status.isTerminal = false) (going' : next.status.isTerminal = false) :
    (queue.putJob next).work who what = queue.work who what := by
  rw [work_putJob sound found going, Job.share_of_open going', Nat.add_zero]

end Work

/-! ## Moves -/

section Moves

variable {σ : Type} {engine : Engine σ} {clock : Clock} {scope : Scope}

theorem isSome_of_modifyActive {queue : Queue} {id other : Job.Id} {change : Active → Active}
    (holds : ((queue.modifyActive other change).active? id).isSome)
    (keeps : ∀ active, (change active).jobId = active.jobId) : (queue.active? id).isSome := by
  have after : (queue.modifyActive other change).active? id = _ :=
    Keyed.find?_modify change fun active h => (keeps active).trans h
  rw [after] at holds
  split at holds
  · rwa [Option.isSome_map] at holds
  · exact holds

theorem isSome_of_retire {queue : Queue} {id other : Job.Id}
    (holds : ((queue.retire other).active? id).isSome) : (queue.active? id).isSome := by
  have after : (queue.retire other).active? id = _ := Keyed.find?_remove
  rw [after] at holds
  split at holds
  · cases holds
  · exact holds

/-- Whether the engine has begun a run of a job. -/
def Began (s : Scene (σ × List Engine.Call)) (id : Job.Id) : Prop :=
  ∃ handle, (id, .ok handle) ∈ s.starts

variable {s t : Scene (σ × List Engine.Call)} {others : List Holding} {past : Job.Id → Prop}
  {who : Agent.Id → Bool} {what : Measure} {id : Job.Id}

/-- A job holds a run only after the engine was heard to begin one. -/
theorem Move.begins (move : Move engine.logged clock scope s t) (balanced : Balanced s)
    (holds : (t.queue.active? id).isSome) : (s.queue.active? id).isSome ∨ Began t id := by
  cases move with
  | submit | recover | want | refuse | advance | withdraw | keepOn | keepStill => exact .inl holds
  | announce | hold | pause | resume =>
    have before := isSome_of_modifyActive holds fun _ => rfl
    exact .inl before
  | complete | fail | abandon => exact .inl (isSome_of_retire holds)
  | @start job agent session handle state _ _ _ _ call run =>
    have after : (((s.queue.withdraw job.id).putJob (job.started agent clock.wall)).activate
        (begun s.queue job agent handle clock.wall)).active? id = _ := Keyed.find?_append
    rw [after] at holds
    split at holds
    · next own =>
      refine .inr ⟨handle, ?_⟩
      have log : state.2 = s.calls ++ [.start (.ok handle)] := Engine.logged_start run
      rw [Scene.starts, Scene.calls, Session.started_tell,
        Session.started_quiet (Session.acquire_quiet call), log, List.filterMap_append,
        List.zip_append balanced, own]
      exact List.mem_append_right _ List.mem_cons_self
    · exact .inl holds

/-! ## Books -/

/-- A queue whose records are in order while the swarm serves it and others. Of the jobs in `past`
a run began before. -/
structure Books (past : Job.Id → Prop) (others : List Holding) (s : Scene (σ × List Engine.Call)) :
    Prop where
  sound : s.queue.Sound
  balanced : Balanced s
  serves : s.swarm.Serves (others ++ s.queue.held)
  slices : ∀ id, (s.queue.slice id).Booked (past id ∨ Began s id)

theorem Books.job (books : Books past others s) {job : Job}
    (found : s.queue.job? id = some job) : job.Booked (past id ∨ Began s id) :=
  (books.slices id).job job found

theorem Move.books (move : Move engine.logged clock scope s t) (books : Books past others s) :
    Books past others t where
  sound := move.sound books.sound
  balanced := by
    obtain ⟨starts, sets_off⟩ := move.sets_off books.sound
    exact sets_off.balanced books.balanced
  serves := move.serves books.sound books.serves
  slices id := by
    obtain ⟨starts, sets_off⟩ := move.sets_off books.sound
    obtain ⟨news, turn, -⟩ := move.turn books.sound id
    refine turn.booked (books.slices id) (Or.imp_right ?_) fun holds => ?_
    · rintro ⟨handle, begun⟩
      rw [Began, sets_off.starts_eq books.balanced]
      exact ⟨handle, List.mem_append_left _ begun⟩
    · exact (move.begins books.balanced holds).imp_right .inr

/-- The record of an active job that ends accounts for the outcome that its agent counts. -/
theorem Books.work_ended (books : Books past others s) {job done : Job} {active : Active}
    {outcome : Task.Outcome} {session : Session} {answer : Except Swarm.Error Agent.Status}
    (found : s.queue.job? done.id = some job) (holds : s.queue.active? done.id = some active)
    (assigned : done.agentId = job.agentId) (ended : done.outcome? = some outcome)
    (release : Session.release active.agentId outcome clock.wall s.toSession =
      .ok answer session) :
    session.swarm.work who what + s.queue.work who what =
      s.swarm.work who what + (s.queue.putJob done).work who what := by
  obtain ⟨known, found', agent, state⟩ := books.sound.job_of_active holds
  rw [found] at found'
  cases found'
  have going : job.status.isTerminal = false := by
    rcases state with ⟨status, -⟩ | ⟨status, -⟩ <;> rw [status] <;> rfl
  rw [work_putJob books.sound found going, Job.share_of_outcome (assigned.trans agent) ended,
    books.serves.release_work (mem_held_of_active? holds) release]
  omega

/-- By a move, records and agents come to account for the same. -/
theorem Move.work_eq (move : Move engine.logged clock scope s t) (books : Books past others s)
    (who : Agent.Id → Bool) (what : Measure) :
    t.swarm.work who what + s.queue.work who what =
      s.swarm.work who what + t.queue.work who what := by
  have sound := books.sound
  have going {job : Job} {status : Job.Status} (h : job.status = status)
      (going : status.isTerminal = false) : job.status.isTerminal = false := h ▸ going
  cases move with
  | submit job new =>
    have unassigned : job.agentId = none := by rw [new]; rfl
    exact congrArg _ (work_add unassigned).symm
  | hold | keepOn | keepStill => rfl
  | recover call => rw [Session.recover_work call]
  | want call => exact congrArg (· + _) (Session.acquire_work call)
  | @start job agent session handle state _ _ found status call =>
    have swarm : session.swarm.work who what = s.swarm.work who what := Session.acquire_work call
    have queue : (s.queue.putJob (job.started agent clock.wall)).work who what =
        s.queue.work who what := work_going_on sound found (going status rfl) rfl
    exact congrArg₂ (· + ·) swarm queue.symm
  | @refuse job agent session back refusal state answer _ _ found status call _ release =>
    let done := (job.started agent clock.wall).failed refusal.message clock.wall
    have same : session.swarm.work who what = s.swarm.work who what := Session.acquire_work call
    have serves : session.swarm.Serves ((agent, some job.id) :: (others ++ s.queue.held)) :=
      books.serves.acquire call
    have told : (session.tell (.jobStarted job.id agent)).swarm.Serves _ := serves
    have counted : back.swarm.work who what = session.swarm.work who what +
        if who agent then (Task.Outcome.failed 0).amount what else 0 :=
      told.release_work List.mem_cons_self release
    have ended : done.outcome? = some (.failed 0) := by
      have duration : done.durationMs = some 0 :=
        Job.Booked.durationMs_of_refused ((books.job found).unstarted status)
      rw [Job.outcome?, duration]
      rfl
    have put : (s.queue.putJob done).work who what =
        s.queue.work who what + done.share who what := work_putJob sound found (going status rfl)
    rw [Job.share_of_outcome rfl ended] at put
    show back.swarm.work who what + _ = _ + (s.queue.putJob done).work who what
    omega
  | @advance job active snapshot found _ status | @announce job active snapshot found _ status =>
    have queue : (s.queue.putJob (advanced job snapshot clock.wall)).work who what =
        s.queue.work who what :=
      work_going_on sound found (going status rfl) (going status rfl)
    exact congrArg _ queue.symm
  | @complete job done active bytes total count session answer found holds _ ended _ _ release =>
    subst ended
    have settled : session.swarm.work who what + s.queue.work who what = s.swarm.work who what +
        (s.queue.putJob (job.completed bytes clock.wall)).work who what :=
      books.work_ended found holds rfl rfl release
    exact settled
  | @fail job done active reason session state answer found holds _ ended _ release =>
    subst ended
    have settled : session.swarm.work who what + s.queue.work who what = s.swarm.work who what +
        (s.queue.putJob (job.failed reason clock.wall)).work who what :=
      books.work_ended found holds rfl rfl release
    exact settled
  | @withdraw job found status =>
    have unassigned : (job.moved .cancelled clock.wall).agentId = none :=
      (books.job found).queued status
    have put : (s.queue.putJob (job.moved .cancelled clock.wall)).work who what =
        s.queue.work who what + (job.moved .cancelled clock.wall).share who what :=
      work_putJob sound found (going status rfl)
    rw [Job.share_of_none unassigned] at put
    exact congrArg _ put.symm
  | @abandon job active session answer found holds status release =>
    have ended : (job.moved .cancelled clock.wall).outcome? = some .cancelled := by
      have started : job.startedAt.isSome :=
        (books.job found).started_iff.2 ((books.job found).assigned_of_active status)
      simp [Job.outcome?, Job.moved, started]
    have settled : session.swarm.work who what + s.queue.work who what = s.swarm.work who what +
        (s.queue.putJob (job.moved .cancelled clock.wall)).work who what :=
      books.work_ended found holds rfl ended release
    exact settled
  | @pause job active state found _ status =>
    have queue : (s.queue.putJob (job.moved .paused clock.wall)).work who what =
        s.queue.work who what := work_going_on sound found (going status rfl) rfl
    exact congrArg _ queue.symm
  | @resume job active state found _ status =>
    have queue : (s.queue.putJob (job.moved .running clock.wall)).work who what =
        s.queue.work who what := work_going_on sound found (going status rfl) rfl
    exact congrArg _ queue.symm

/-- On a path, records and agents come to account for the same. -/
theorem Path.books (path : Path engine.logged clock scope s t) (books : Books past others s) :
    Books past others t ∧ ∀ who what,
      t.swarm.work who what + s.queue.work who what =
        s.swarm.work who what + t.queue.work who what := by
  induction path with
  | refl => exact ⟨books, fun _ _ => rfl⟩
  | tail before move ih =>
    obtain ⟨books', same⟩ := ih
    refine ⟨move.books books', fun who what => ?_⟩
    have first := same who what
    have second := move.work_eq books' who what
    omega

end Moves

end Queue

end JobSwarm
