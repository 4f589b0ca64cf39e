import JobSwarm.Engine.Scripted
import JobSwarm.Proofs.Queue.Run

/-!
# How runs end

An engine begins a run for each job that it starts. Pollers ask after the run and tell the queue
what they hear, sooner or later. Here the engine keeps a log of the calls that bear on the end of a
run: what it was asked, and what it answered.

Results:

* `Slice.Turn.watched`: a turn ends a job only after its run has told of the end, or the engine was
  asked to cancel the run.
* `Move.sets_off`: the starts that a move announces are those of which the engine writes.
* `Watch.runs_accounted_for`: at every point of a run of the queue, the log accounts for the run of
  each job that has ended.
* `Watch.fails_unended`: a job fails, though its run has neither ended nor been cancelled.
-/

namespace JobSwarm

open Event (Notice)
open Time (Clock)

/-! ## Logs -/

namespace Engine

/-- A call that bears on the end of a run. -/
inductive Call where
  | start (answer : Except Error Handle)
  | poll (handle : Handle) (answer : Polled)
  | cancel (handle : Handle)
  deriving DecidableEq

/-- What came of a start. -/
def Call.started? : Call → Option (Except Error Handle)
  | .start answer => some answer
  | .poll .. | .cancel _ => none

/-- Whether a poll says that a run has failed, or fails itself. -/
def Polled.isFailure : Polled → Bool
  | .finished (.failed _) | .refused _ | .panicked => true
  | .finished (.completed _) | .running _ => false

variable {σ : Type}

/-- The same engine, with a log. -/
def logged (engine : Engine σ) : Engine (σ × List Call) where
  name := engine.name
  start config state :=
    let result := engine.start config state.1
    (result.1, result.2, state.2 ++ [.start result.1])
  poll handle state :=
    let result := engine.poll handle state.1
    (result.1, result.2, state.2 ++ [.poll handle result.1])
  cancel handle state :=
    let result := engine.cancel handle state.1
    (result.1, result.2, state.2 ++ [.cancel handle])
  suspend handle state :=
    let result := engine.suspend handle state.1
    (result.1, result.2, state.2)
  resume handle state :=
    let result := engine.resume handle state.1
    (result.1, result.2, state.2)

variable {engine : Engine σ} {handle : Handle} {state state' : σ × List Call}

theorem logged_start {config : Job.Config} {answer : Except Error Handle}
    (run : engine.logged.start config state = (answer, state')) :
    state'.2 = state.2 ++ [.start answer] := by
  cases run
  rfl

theorem logged_suspend {answer : Except Error Unit}
    (run : engine.logged.suspend handle state = (answer, state')) : state'.2 = state.2 := by
  cases run
  rfl

theorem logged_resume {answer : Except Error Unit}
    (run : engine.logged.resume handle state = (answer, state')) : state'.2 = state.2 := by
  cases run
  rfl

end Engine

/-! ## Announced starts -/

/-- The job that is said to have started. -/
def Event.Notice.startedId? : Notice → Option Job.Id
  | .jobStarted id _ => some id
  | _ => none

namespace Swarm.Session

variable {s t : Session} {notice : Notice}

/-- The jobs whose start has been announced, first to last. -/
def started (session : Session) : List Job.Id :=
  session.announced.filterMap Notice.startedId?

theorem started_tell : (s.tell notice).started = s.started ++ notice.startedId?.toList := by
  rw [started, tell, List.filterMap_append, ← started]
  cases notice <;> rfl

theorem started_quiet (quiet : s.Quiet t) : t.started = s.started := by
  obtain ⟨news, hnews, quiet⟩ := quiet
  have none : news.filterMap Notice.startedId? = [] := by
    refine List.filterMap_eq_nil_iff.2 fun notice hmem => ?_
    cases notice with
    | agentStatusChanged | swarmHealthChanged => rfl
    | _ => cases quiet _ hmem
  rw [started, started, hnews, List.filterMap_append, none, List.append_nil]

end Swarm.Session

namespace Queue

open Engine (Call Handle Outcome)
open Swarm (Session)

variable {σ : Type}

/-- What a log says of a run, by how its job stands. -/
def Accounted (log : List Call) (handle : Handle) : Job.Status → Prop
  | .queued => False
  | .running | .paused => True
  | .completed => ∃ bytes, Call.poll handle (.finished (.completed bytes)) ∈ log
  | .failed => Call.cancel handle ∈ log ∨
      ∃ answer, Call.poll handle answer ∈ log ∧ answer.isFailure = true
  | .cancelled => Call.cancel handle ∈ log

/-- Whether a poll of a run has given what the queue is told as the outcome of its job. -/
def Told (name : String) (id : Job.Id) (log : List Call) (handle : Handle) (outcome : Outcome) :
    Prop :=
  ∃ answer, Call.poll handle answer ∈ log ∧ Message.ofPolled name id answer = .finished id outcome

section Logs

variable {name : String} {id : Job.Id} {log log' : List Call} {handle : Handle}
  {outcome : Outcome} {status : Job.Status}

theorem Accounted.mono (accounted : Accounted log handle status) (longer : log ⊆ log') :
    Accounted log' handle status := by
  cases status with
  | queued | running | paused => exact accounted
  | completed =>
    obtain ⟨bytes, polled⟩ := accounted
    exact ⟨bytes, longer polled⟩
  | failed =>
    rcases accounted with cancelled | ⟨answer, polled, failure⟩
    · exact .inl (longer cancelled)
    · exact .inr ⟨answer, longer polled, failure⟩
  | cancelled => exact longer accounted

theorem Told.mono (told : Told name id log handle outcome) (longer : log ⊆ log') :
    Told name id log' handle outcome := by
  obtain ⟨answer, polled, news⟩ := told
  exact ⟨answer, longer polled, news⟩

theorem Told.completed {bytes : UInt64} (told : Told name id log handle (.completed bytes)) :
    Accounted log handle .completed := by
  obtain ⟨answer, polled, news⟩ := told
  cases answer with
  | finished outcome =>
    cases news
    exact ⟨bytes, polled⟩
  | running | refused | panicked => cases news

theorem Told.failed {reason : String} (told : Told name id log handle (.failed reason)) :
    Accounted log handle .failed := by
  obtain ⟨answer, polled, news⟩ := told
  refine .inr ⟨answer, polled, ?_⟩
  cases answer with
  | finished outcome =>
    cases news
    rfl
  | running => cases news
  | refused | panicked => rfl

end Logs

/-! ## Turns -/

/-- What a queue keeps of one job goes with what the log says of its runs. -/
structure Slice.Watched (name : String) (id : Job.Id) (log : List Call) (runs : Handle → Prop)
    (slice : Slice) : Prop where
  accounted : ∀ handle, runs handle → ∃ job, slice.job = some job ∧
    Accounted log handle job.status
  /-- The run that the job holds is the one that was begun for it. -/
  same : ∀ active, slice.active = some active → ∀ handle, runs handle → active.handle = handle
  /-- An outcome that the job holds was told of its run. -/
  told : ∀ active outcome, slice.active = some active → active.held = some outcome →
    ∃ handle, runs handle ∧ Told name id log handle outcome

namespace Slice

variable {name : String} {id : Job.Id} {log log' : List Call} {runs runs' : Handle → Prop}
  {job : Job} {active : Active} {waiting : List Pending}

/-- More calls change nothing, as long as they begin no runs. -/
theorem Watched.mono {slice : Slice} (watched : slice.Watched name id log runs)
    (longer : log ⊆ log') (kept : ∀ handle, runs handle → runs' handle)
    (old : ∀ handle, runs' handle → runs handle) : slice.Watched name id log' runs' where
  accounted handle run := by
    obtain ⟨job, found, accounted⟩ := watched.accounted handle (old handle run)
    exact ⟨job, found, accounted.mono longer⟩
  same active holds handle run := watched.same active holds handle (old handle run)
  told active outcome holds held := by
    obtain ⟨handle, run, told⟩ := watched.told active outcome holds held
    exact ⟨handle, kept handle run, told.mono longer⟩

/-- A job that goes on may have any run. -/
theorem Watched.of_going_on (status : job.status = .running ∨ job.status = .paused)
    (same : ∀ handle, runs handle → active.handle = handle)
    (told : ∀ outcome, active.held = some outcome →
      ∃ handle, runs handle ∧ Told name id log handle outcome) :
    Watched name id log runs ⟨some job, some active, waiting⟩ where
  accounted _ _ := by
    refine ⟨job, rfl, ?_⟩
    rcases status with status | status <;> rw [status] <;> trivial
  same _ holds := by
    cases holds
    exact same
  told _ outcome holds held := by
    cases holds
    exact told outcome held

/-- A job that holds nothing has a run only if the log accounts for it. -/
theorem Watched.of_none (accounted : ∀ handle, runs handle → Accounted log handle job.status) :
    Watched name id log runs ⟨some job, none, waiting⟩ where
  accounted handle begun := ⟨job, rfl, accounted handle begun⟩
  same _ holds := nomatch holds
  told _ _ holds := nomatch holds

variable {clock : Clock} {grounds : Grounds} {a b : Slice} {news : List Notice}

/-- A turn ends a job only after its run has told of the end, or the engine was asked to cancel the
run. A run begins only with a job that holds nothing before and holds the run after. -/
theorem Turn.watched (turn : Turn clock grounds a news b)
    (before : a.Watched name id log runs) (longer : log ⊆ log')
    (kept : ∀ handle, runs handle → runs' handle)
    (begun : ∀ handle, runs' handle → runs handle ∨
      a.active = none ∧ ∃ active, b.active = some active ∧ active.handle = handle)
    (heard : ∀ outcome, grounds.heard outcome →
      ∃ handle, runs handle ∧ Told name id log handle outcome)
    (stopped : ∀ handle, grounds.stopped handle → Call.cancel handle ∈ log') :
    b.Watched name id log' runs' := by
  have old (unbegun : a.active = none → b.active = none) : ∀ handle, runs' handle →
      runs handle := by
    intro handle run
    rcases begun handle run with run | ⟨free, active, holds, -⟩
    · exact run
    · rw [unbegun free] at holds
      cases holds
  have told_on {outcome : Outcome}
      (told : ∃ handle, runs handle ∧ Told name id log handle outcome) :
      ∃ handle, runs' handle ∧ Told name id log' handle outcome := by
    obtain ⟨handle, run, told⟩ := told
    exact ⟨handle, kept handle run, told.mono longer⟩
  -- A queued job has no run yet.
  have none_of_queued {job : Job} (queued : a.job = some job) (status : job.status = .queued)
      (handle : Handle) : ¬runs handle := by
    intro run
    obtain ⟨job', found, accounted⟩ := before.accounted handle run
    rw [queued] at found
    cases found
    rw [status] at accounted
    exact accounted
  cases turn with
  | still => exact before.mono longer kept (old fun free => free)
  | submit =>
    refine .of_none fun handle run => ?_
    obtain ⟨_, found, -⟩ := before.accounted handle (old (fun _ => rfl) handle run)
    cases found
  | start active status free unheld =>
    refine .of_going_on (.inl rfl) (fun handle run => ?_) (fun _ held => ?_)
    · rcases begun handle run with run | ⟨-, _, holds, same⟩
      · cases none_of_queued rfl status handle run
      · cases holds
        exact same
    · rw [unheld] at held
      cases held
  | refuse _ _ status | withdraw status =>
    refine .of_none fun handle run => ?_
    cases none_of_queued rfl status handle (old (fun _ => rfl) handle run)
  | advance _ status | announce _ status =>
    refine .of_going_on (.inl status) (fun handle run => ?_) (fun outcome held => ?_)
    · exact before.same _ rfl handle (old nofun handle run)
    · exact told_on (before.told _ outcome rfl held)
  | pause status =>
    refine .of_going_on (.inr rfl) (fun handle run => ?_) (fun outcome held => ?_)
    · exact before.same _ rfl handle (old nofun handle run)
    · exact told_on (before.told _ outcome rfl held)
  | hold outcome status known =>
    refine .of_going_on (.inr status) (fun handle run => ?_) (fun outcome held => ?_)
    · exact before.same _ rfl handle (old nofun handle run)
    · cases held
      exact told_on (heard _ known)
  | complete status ended known =>
    refine .of_none fun handle run => ?_
    obtain ⟨handle', run', told⟩ := heard _ known
    rw [← before.same _ rfl handle (old nofun handle run), before.same _ rfl handle' run', ← ended]
    exact (told.mono longer).completed
  | fail reason status cause =>
    refine .of_none fun handle run => ?_
    have same := before.same _ rfl handle (old nofun handle run)
    rcases cause with known | known
    · obtain ⟨handle', run', told⟩ := heard _ known
      rw [← same, before.same _ rfl handle' run']
      exact (told.mono longer).failed
    · rw [← same]
      exact .inl (stopped _ known)
  | abandon status known =>
    refine .of_none fun handle run => ?_
    rw [← before.same _ rfl handle (old nofun handle run)]
    exact stopped _ known
  | resume resumed status _ _ unheld run_eq =>
    refine .of_going_on (.inl rfl) (fun handle run => ?_) (fun _ held => ?_)
    · exact run_eq.trans (before.same _ rfl handle (old nofun handle run))
    · rw [unheld] at held
      cases held

end Slice

/-! ## Starts -/

/-- The calls of the engine so far, first to last. -/
def Scene.calls (s : Scene (σ × List Call)) : List Call :=
  s.engineState.2

/-- The jobs that were started, first to last, with what the engine answered. -/
def Scene.starts (s : Scene (σ × List Call)) : List (Job.Id × Except Engine.Error Handle) :=
  s.toSession.started.zip (s.calls.filterMap Call.started?)

section Starts

variable {engine : Engine σ} {clock : Clock} {scope : Scope} {s t : Scene (σ × List Call)}
  {starts : List (Job.Id × Except Engine.Error Handle)}

/-- From one scene to another some jobs were started. -/
structure Starts (s t : Scene (σ × List Call))
    (starts : List (Job.Id × Except Engine.Error Handle)) : Prop where
  announced : t.toSession.started = s.toSession.started ++ starts.map (·.1)
  logged : ∃ news, t.calls = s.calls ++ news ∧ news.filterMap Call.started? = starts.map (·.2)
  /-- A job whose run begins has held nothing before, and holds the run after. -/
  fresh : ∀ id handle, (id, .ok handle) ∈ starts → s.queue.active? id = none ∧
    ∃ active, t.queue.active? id = some active ∧ active.handle = handle

theorem Starts.of_silent (news : List Call) (announced : t.toSession.started = s.toSession.started)
    (logged : t.calls = s.calls ++ news) (silent : news.filterMap Call.started? = []) :
    Starts s t [] where
  announced := by rw [announced, List.map_nil, List.append_nil]
  logged := ⟨news, logged, silent⟩
  fresh _ _ hmem := absurd hmem List.not_mem_nil

theorem Starts.of_same (announced : t.toSession.started = s.toSession.started)
    (same : t.calls = s.calls) : Starts s t [] :=
  .of_silent [] announced (same.trans (List.append_nil _).symm) rfl

theorem Starts.longer (h : Starts s t starts) : s.calls ⊆ t.calls := by
  obtain ⟨news, hnews, -⟩ := h.logged
  rw [hnews]
  exact List.subset_append_left _ _

/-- As many starts are announced as the engine was asked for. -/
def Balanced (s : Scene (σ × List Call)) : Prop :=
  s.toSession.started.length = (s.calls.filterMap Call.started?).length

theorem Starts.balanced (h : Starts s t starts) (balanced : Balanced s) : Balanced t := by
  obtain ⟨news, hnews, answers⟩ := h.logged
  rw [Balanced, h.announced, hnews, List.filterMap_append, answers, List.length_append,
    List.length_append, List.length_map, List.length_map, balanced]

theorem Starts.starts_eq (h : Starts s t starts) (balanced : Balanced s) :
    t.starts = s.starts ++ starts := by
  obtain ⟨news, hnews, answers⟩ := h.logged
  rw [Scene.starts, h.announced, hnews, List.filterMap_append, answers, List.zip_append balanced,
    ← Scene.starts, ← List.zip_of_prod rfl rfl]

theorem wake_calls {active : Active} {answer : Except Engine.Error Unit}
    (h : wake engine.logged active s = .ok answer t) : t.calls = s.calls := by
  rw [wake] at h
  cases held : active.held with
  | some =>
    simp only [held] at h
    rw [(Step.pure_eq_ok.1 h).2]
  | none =>
    simp only [held] at h
    obtain ⟨state, run, rfl⟩ := Scene.callEngine_eq_ok.1 h
    exact Engine.logged_resume run

/-- The starts that a move announces are those of which the engine writes. -/
theorem Move.sets_off (move : Move engine.logged clock scope s t) (sound : s.queue.Sound) :
    ∃ starts, Starts s t starts := by
  have told {session : Session} {notice : Notice} (quiet : s.Quiet session)
      (other : notice.startedId? = none) : (session.tell notice).started = s.started := by
    rw [Session.started_tell, Session.started_quiet quiet, other, Option.toList_none,
      List.append_nil]
  cases move with
  | submit | announce | withdraw => exact ⟨[], .of_same (told (.refl _) rfl) rfl⟩
  | advance | hold => exact ⟨[], .of_same rfl rfl⟩
  | recover call => exact ⟨[], .of_same (Session.started_quiet (Session.recover_ok call).quiet) rfl⟩
  | want call => exact ⟨[], .of_same (Session.started_quiet (Session.acquire_quiet call)) rfl⟩
  | @start job agent session handle state may room found status call run =>
    have own := sound.slice_queued found status
    refine ⟨[(job.id, .ok handle)], ?_, ⟨_, Engine.logged_start run, rfl⟩, fun id _ hmem => ?_⟩
    · rw [Session.started_tell, Session.started_quiet (Session.acquire_quiet call)]
      rfl
    · cases List.mem_singleton.1 hmem
      have after : (((s.queue.withdraw job.id).putJob (job.started agent clock.wall)).activate
          (begun s.queue job agent handle clock.wall)).slice job.id =
            ⟨some (job.started agent clock.wall),
              some (begun s.queue job agent handle clock.wall), []⟩ := by
        simp [slice_activate, slice_putJob, slice_withdraw, own]
      exact ⟨congrArg Slice.active own, _, congrArg Slice.active after, rfl⟩
  | @refuse job agent session back refusal state answer may room found status call run release =>
    refine ⟨[(job.id, .error refusal)], ?_, ⟨_, Engine.logged_start run, rfl⟩, fun _ _ hmem => ?_⟩
    · rw [Session.started_tell, Session.started_quiet (Session.release_quiet release),
        Session.started_tell, Session.started_quiet (Session.acquire_quiet call)]
      exact List.append_nil _
    · cases List.mem_singleton.1 hmem
  | complete _ _ _ _ _ _ release =>
    exact ⟨[], .of_same (told (Session.release_quiet release) rfl) rfl⟩
  | fail _ _ _ _ cause release =>
    cases cause with
    | told => exact ⟨[], .of_same (told (Session.release_quiet release) rfl) rfl⟩
    | late => exact ⟨[], .of_silent [.cancel _] (told (Session.release_quiet release) rfl) rfl rfl⟩
  | abandon _ _ _ release =>
    exact ⟨[], .of_silent [.cancel _] (told (Session.release_quiet release) rfl) rfl rfl⟩
  | pause _ _ _ run =>
    exact ⟨[], .of_same (told (.refl _) rfl) (Engine.logged_suspend run)⟩
  | resume _ _ _ run =>
    have same := wake_calls run
    exact ⟨[], .of_same (told (.refl _) rfl) same⟩
  | keepOn _ _ _ run => exact ⟨[], .of_same rfl (Engine.logged_suspend run)⟩
  | keepStill _ _ _ run => exact ⟨[], .of_same rfl (Engine.logged_resume run)⟩

end Starts

/-! ## Watched queues -/

section Watch

variable {engine : Engine σ} {clock : Clock} {scope : Scope} {s t : Scene (σ × List Call)}

/-- Whether a poll of a run of a job has given an outcome of the job. -/
def Heard (name : String) (s : Scene (σ × List Call)) (id : Job.Id) (outcome : Outcome) : Prop :=
  ∃ handle, (id, .ok handle) ∈ s.starts ∧ Told name id s.calls handle outcome

/-- What a queue keeps goes with the log of the engine. -/
structure Watched (name : String) (s : Scene (σ × List Call)) : Prop where
  sound : s.queue.Sound
  balanced : Balanced s
  slices : ∀ id, (s.queue.slice id).Watched name id s.calls fun handle =>
    (id, .ok handle) ∈ s.starts

theorem Move.watched (move : Move engine.logged clock scope s t)
    (watched : Watched engine.name s)
    (heard : ∀ id outcome, scope.heard id outcome → Heard engine.name s id outcome) :
    Watched engine.name t ∧
      ∀ id outcome, Heard engine.name s id outcome → Heard engine.name t id outcome := by
  obtain ⟨starts, sets_off⟩ := move.sets_off watched.sound
  have more : t.starts = s.starts ++ starts := sets_off.starts_eq watched.balanced
  have kept (id : Job.Id) (handle : Handle) (begun : (id, .ok handle) ∈ s.starts) :
      (id, .ok handle) ∈ t.starts := by
    rw [more]
    exact List.mem_append_left _ begun
  refine ⟨⟨move.sound watched.sound, sets_off.balanced watched.balanced, fun id => ?_⟩, ?_⟩
  · obtain ⟨_, turn, -⟩ := move.turn watched.sound id
    refine turn.watched (watched.slices id) sets_off.longer (kept id) (fun handle begun => ?_)
      (heard id) fun handle stopped => ?_
    · rw [more] at begun
      exact (List.mem_append.1 begun).imp_right (sets_off.fresh id handle)
    · have log : t.calls = s.calls ++ [.cancel handle] := congrArg Prod.snd stopped
      rw [log]
      exact List.mem_append_right _ (List.mem_singleton.2 rfl)
  · rintro id outcome ⟨handle, begun, told⟩
    exact ⟨handle, kept id handle begun, told.mono sets_off.longer⟩

theorem Path.watched (path : Path engine.logged clock scope s t)
    (watched : Watched engine.name s)
    (heard : ∀ id outcome, scope.heard id outcome → Heard engine.name s id outcome) :
    Watched engine.name t := by
  induction path using Relation.ReflTransGen.head_induction_on with
  | refl => exact watched
  | head move _ ih =>
    obtain ⟨watched', on⟩ := move.watched watched heard
    exact ih watched' fun id outcome known => on id outcome (heard id outcome known)

/-- Whether a message tells of a run. -/
def Message.isNews : Message → Bool
  | .progress .. | .finished .. => true
  | .submit .. | .cancel _ | .pause _ | .resume _ | .schedule => false

/-- A scene after a run was polled. -/
def Scene.polled (engine : Engine σ) (run : Handle) (s : Scene (σ × List Call)) :
    Scene (σ × List Call) :=
  { s with engineState := (engine.logged.poll run s.engineState).2 }

/-- From one message to the next, while pollers watch the runs. -/
inductive Watches (engine : Engine σ) (s : Scene (σ × List Call)) :
    Scene (σ × List Call) → Prop
  | asks (clock : Clock) (message : Message) {reply : Reply} {t : Scene (σ × List Call)}
      (plain : message.isNews = false) (fresh : message.IsFresh s.queue)
      (call : handle engine.logged clock message s = .ok reply t) : Watches engine s t
  /-- The poller of a run asks after it. -/
  | polls {id : Job.Id} {run : Handle} (begun : (id, .ok run) ∈ s.starts) :
      Watches engine s (s.polled engine run)
  /-- The queue hears what came of a poll, then or before. -/
  | hears (clock : Clock) {id : Job.Id} {run : Handle} {answer : Engine.Polled} {reply : Reply}
      {t : Scene (σ × List Call)} (begun : (id, .ok run) ∈ s.starts)
      (polled : Call.poll run answer ∈ s.calls)
      (call : handle engine.logged clock (.ofPolled engine.name id answer) s = .ok reply t) :
      Watches engine s t
  | drains (clock : Clock) {t : Scene (σ × List Call)}
      (call : drain engine.logged clock s = .ok () t) : Watches engine s t
  /-- Others use the swarm and the engine. -/
  | waits (swarm : Swarm) (state : σ) :
      Watches engine s { s with swarm := swarm, engineState := (state, s.calls) }

/-- A run of a queue from one scene to another, while pollers watch the runs of the jobs. -/
abbrev Watch (engine : Engine σ) : Scene (σ × List Call) → Scene (σ × List Call) → Prop :=
  Relation.ReflTransGen (Watches engine)

theorem watched_initial {name : String} {config : Config} {swarm : Swarm} {state : σ} :
    Watched name (.initial config swarm (state, [])) where
  sound := sound_initial config
  balanced := rfl
  slices _ := {
    accounted := fun _ begun => absurd begun List.not_mem_nil
    same := fun _ holds => nomatch holds
    told := fun _ _ holds => nomatch holds }

/-- A message that was asked, or heard of a poller, is handled. -/
theorem Watched.handle {message : Message} {reply : Reply} (watched : Watched engine.name s)
    (fresh : message.IsFresh s.queue) (heard : message.IsHeard (Heard engine.name s) s.queue)
    (call : handle engine.logged clock message s = .ok reply t) : Watched engine.name t := by
  have path : Path engine.logged clock { starting := true, heard := Heard engine.name s } s t :=
    handle_within watched.sound rfl (fun _ => rfl) fresh heard call
  exact path.watched watched fun _ _ known => known

theorem Watches.watched (step : Watches engine s t) (watched : Watched engine.name s) :
    Watched engine.name t := by
  cases step with
  | asks clock message plain fresh call =>
    refine watched.handle fresh ?_ call
    cases message with
    | resume id => exact (watched.slices id).told
    | submit | cancel | pause | schedule => trivial
    | progress | finished => cases plain
  | @polls id run begun =>
    have silent : Starts s (s.polled engine run) [] := .of_silent [_] rfl rfl rfl
    have same := silent.starts_eq watched.balanced
    rw [List.append_nil] at same
    refine ⟨watched.sound, silent.balanced watched.balanced, fun id => ?_⟩
    rw [same]
    exact (watched.slices id).mono silent.longer (fun _ begun => begun) fun _ begun => begun
  | @hears clock id run answer _ _ begun polled call =>
    refine watched.handle ?_ ?_ call
    · cases answer <;> trivial
    · cases answer with
      | running => trivial
      | finished | refused | panicked => exact ⟨run, begun, _, polled, rfl⟩
  | drains clock call =>
    have path : Path engine.logged clock { starting := false, heard := Heard engine.name s } s t :=
      drain_path watched.sound call
    exact path.watched watched fun _ _ known => known
  | waits swarm state => exact ⟨watched.sound, watched.balanced, watched.slices⟩

/-- At every point of a run of a queue, every start of the engine was announced, and the log
accounts for each run that it began: it belongs to a job that is not queued any more; if the job is
complete, a poll has said that the run is complete; if it was cancelled, so was the run; if it has
failed, the run was cancelled, or a poll has said that it failed, or has failed itself. -/
theorem Watch.runs_accounted_for {config : Config} {swarm : Swarm} {state : σ}
    (watch : Watch engine (.initial config swarm (state, [])) s) :
    s.starts.map (·.2) = s.calls.filterMap Call.started? ∧
      ∀ id handle, (id, .ok handle) ∈ s.starts →
        ∃ job, s.queue.job? id = some job ∧ Accounted s.calls handle job.status := by
  have watched : Watched engine.name s := by
    induction watch with
    | refl => exact watched_initial
    | tail _ step ih => exact step.watched ih
  exact ⟨List.map_snd_zip watched.balanced.ge, fun id => (watched.slices id).accounted⟩

/-- A job is cancelled, and so is its run. -/
theorem Watch.runs_accounted_for_of_cancelled :
    ∃ s, Watch Engine.Stub.engine (.initial {} loneSwarm (Engine.Stub.standard, [])) s ∧
      s.calls = [.start (.ok ⟨1⟩), .cancel ⟨1⟩] ∧ s.starts = [(⟨1⟩, .ok ⟨1⟩)] ∧
      ∃ job, s.queue.job? ⟨1⟩ = some job ∧ Accounted s.calls ⟨1⟩ job.status := by
  have played : (play Engine.Stub.engine.logged
      [.told (.epoch 0) (.submit ⟨1⟩ { targetPath := "notes" } .normal)]
      (.initial {} loneSwarm (Engine.Stub.standard, []))).any (fun s =>
        (play Engine.Stub.engine.logged [.told (.epoch 1) (.cancel ⟨1⟩)]
          { s with swarm := loneSwarm }).any fun t =>
            t.calls = [.start (.ok ⟨1⟩), .cancel ⟨1⟩] ∧ t.starts = [(⟨1⟩, .ok ⟨1⟩)]) = true := by
    decide +kernel
  obtain ⟨s, hs, played⟩ := (Option.any_eq_true _ _).1 played
  obtain ⟨t, ht, facts⟩ := (Option.any_eq_true _ _).1 played
  obtain ⟨log, starts⟩ := of_decide_eq_true facts
  obtain ⟨fresh, _, submitted⟩ := handle_of_play hs
  obtain ⟨fresh', _, cancelled⟩ := handle_of_play ht
  have watch : Watch Engine.Stub.engine (.initial {} loneSwarm (Engine.Stub.standard, [])) t :=
    ((Relation.ReflTransGen.single (.asks _ _ rfl fresh submitted)).tail
      (.waits loneSwarm s.engineState.1)).tail (.asks _ _ rfl fresh' cancelled)
  obtain ⟨-, accounted⟩ := Watch.runs_accounted_for watch
  exact ⟨t, watch, log, starts, accounted ⟨1⟩ ⟨1⟩ (by rw [starts]; exact List.mem_singleton.2 rfl)⟩

/-- A job whose run cannot be polled at first, and goes on and ends later. -/
def flakyJob : Job.Config where
  targetPath := "notes"
  options := [("polls", .list [.object [("backend", .text "busy")],
    .object [("running", .list [.whole 5, .whole 10])], .object [("done", .whole 10)]])]

/-- A poll fails, and the job with it. Its run has neither ended nor been cancelled: it goes on. -/
theorem Watch.fails_unended :
    ∃ s job, Watch Engine.Scripted.engine (.initial {} loneSwarm ({}, [])) s ∧
      (⟨1⟩, .ok ⟨1⟩) ∈ s.starts ∧ s.queue.job? ⟨1⟩ = some job ∧ job.status = .failed ∧
      Call.cancel ⟨1⟩ ∉ s.calls ∧ (∀ outcome, Call.poll ⟨1⟩ (.finished outcome) ∉ s.calls) ∧
      (Engine.Scripted.poll ⟨1⟩ s.engineState.1).1 = .running ⟨5, some 10⟩ := by
  have played : (play Engine.Scripted.engine.logged
      [.told (.epoch 0) (.submit ⟨1⟩ flakyJob .normal)]
      (.initial {} loneSwarm ({}, []))).any (fun s =>
        (⟨1⟩, .ok ⟨1⟩) ∈ s.starts ∧
        (⟨1⟩, .ok ⟨1⟩) ∈ (s.polled Engine.Scripted.engine ⟨1⟩).starts ∧
        .poll ⟨1⟩ (.refused (.backend "busy")) ∈ (s.polled Engine.Scripted.engine ⟨1⟩).calls ∧
        (play Engine.Scripted.engine.logged
          [.told (.epoch 1) (.ofPolled "script" ⟨1⟩ (.refused (.backend "busy")))]
          { s.polled Engine.Scripted.engine ⟨1⟩ with swarm := loneSwarm }).any (fun t =>
            (t.queue.job? ⟨1⟩).any (·.status = .failed) = true ∧ (⟨1⟩, .ok ⟨1⟩) ∈ t.starts ∧
            t.calls = [.start (.ok ⟨1⟩), .poll ⟨1⟩ (.refused (.backend "busy"))] ∧
            (Engine.Scripted.poll ⟨1⟩ t.engineState.1).1 = .running ⟨5, some 10⟩) = true) =
        true := by
    decide +kernel
  obtain ⟨s, hs, facts⟩ := (Option.any_eq_true _ _).1 played
  obtain ⟨begun, begun', polled, played⟩ := of_decide_eq_true facts
  obtain ⟨t, ht, facts⟩ := (Option.any_eq_true _ _).1 played
  obtain ⟨known, begun'', log, goes_on⟩ := of_decide_eq_true facts
  obtain ⟨job, found, failed⟩ := (Option.any_eq_true _ _).1 known
  obtain ⟨fresh, _, submitted⟩ := handle_of_play hs
  obtain ⟨-, _, heard⟩ := handle_of_play ht
  have polls : Watches Engine.Scripted.engine s (s.polled Engine.Scripted.engine ⟨1⟩) :=
    .polls begun
  have waits : Watches Engine.Scripted.engine (s.polled Engine.Scripted.engine ⟨1⟩)
      { s.polled Engine.Scripted.engine ⟨1⟩ with swarm := loneSwarm } := .waits loneSwarm _
  have hears : Watches Engine.Scripted.engine
      { s.polled Engine.Scripted.engine ⟨1⟩ with swarm := loneSwarm } t :=
    .hears _ begun' polled heard
  have watch : Watch Engine.Scripted.engine (.initial {} loneSwarm ({}, [])) t :=
    (((Relation.ReflTransGen.single (.asks _ _ rfl fresh submitted)).tail polls).tail waits).tail
      hears
  exact ⟨t, job, watch, begun'', found, of_decide_eq_true failed, by simp [log], by simp [log],
    goes_on⟩

end Watch

end Queue

end JobSwarm
