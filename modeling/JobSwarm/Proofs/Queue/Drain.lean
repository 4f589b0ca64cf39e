import JobSwarm.Proofs.Fleet
import JobSwarm.Proofs.Queue.Watch

/-!
# The end of a queue

A queue that is drained cancels its unfinished jobs one after another. Each active job gives back
its agent, and its run is cancelled, whether the engine likes it or not. The agents that others hold
stay as they are.

Results:

* `drain_drains`: draining a queue cancels its unfinished jobs, in the order of submission.
* `Drains.queue_eq`: the records, the waiting entries and what was held after that.
* `Drains.frees`, `Drains.spares`: the agents after that.
* `Fleet.Run.drained`: all of this for every queue of a fleet, at any time.
-/

namespace JobSwarm

open Event (Notice)
open Time (Instant Clock)

namespace Queue

open Engine (Call)
open Swarm (Session Holding)

variable {σ : Type} {engine : Engine σ} {clock : Clock} {s t u : Scene σ} {jobs : List Job}
  {job : Job} {others : List Holding}

/-! ## One job after another -/

/-- Some jobs are cancelled, one after another. -/
inductive Drains (engine : Engine σ) (clock : Clock) : List Job → Scene σ → Scene σ → Prop
  | nil (s : Scene σ) : Drains engine clock [] s s
  | cons {job : Job} {jobs : List Job} {s u t : Scene σ} (sound : s.queue.Sound)
      (found : s.queue.job? job.id = some job) (fresh : ∀ other ∈ jobs, other.id ≠ job.id)
      (first : Cancels engine clock job s u) (rest : Drains engine clock jobs u t) :
      Drains engine clock (job :: jobs) s t

/-- The other jobs have no part in it when one is cancelled. -/
theorem Cancels.slice_eq (cancels : Cancels engine clock job s t) {id : Job.Id}
    (other : id ≠ job.id) : t.queue.slice id = s.queue.slice id := by
  have apart : id ≠ (job.moved .cancelled clock.wall).id := other
  cases cancels with
  | withdraw => rw [slice_withdraw, if_neg other, slice_putJob, if_neg apart]
  | abandon => rw [slice_retire, if_neg other, slice_putJob, if_neg apart]

theorem drains_of_forM {r : PUnit} (sound : s.queue.Sound)
    (found : ∀ job ∈ jobs, s.queue.job? job.id = some job)
    (open_ : ∀ job ∈ jobs, job.status.isTerminal = false) (once : (jobs.map (·.id)).Nodup)
    (h : (jobs.forM fun job => discard (cancel engine job.id clock)) s = .ok r t) :
    Drains engine clock jobs s t := by
  induction jobs generalizing s with
  | nil =>
    obtain ⟨-, rfl⟩ := Step.pure_eq_ok.1 h
    exact .nil s
  | cons job jobs ih =>
    obtain ⟨_, u, hfirst, hrest⟩ := Step.bind_eq_ok.1 h
    obtain ⟨_, call⟩ := Step.discard_eq_ok.1 hfirst
    obtain ⟨unlisted, once⟩ := List.nodup_cons.1 once
    have fresh : ∀ other ∈ jobs, other.id ≠ job.id := by
      intro other there same
      exact unlisted (List.mem_map.2 ⟨other, there, same⟩)
    have here := found job List.mem_cons_self
    have first := cancel_cancels sound here (open_ job List.mem_cons_self) call
    have moves : Move engine clock false s u := first.move here
    refine .cons sound here fresh first (ih (moves.sound sound) ?_ ?_ once hrest)
    · intro other there
      have kept := congrArg Slice.job (first.slice_eq (fresh other there))
      exact kept.trans (found other (List.mem_cons_of_mem _ there))
    · intro other there
      exact open_ other (List.mem_cons_of_mem _ there)

theorem mem_unfinished {queue : Queue} :
    job ∈ queue.unfinished ↔ job ∈ queue.jobs ∧ job.status.isTerminal = false := by
  simp [unfinished, list]

theorem drain_eq (sound : s.queue.Sound) :
    drain engine clock s = (s.queue.jobs.filter fun job => !job.status.isTerminal).forM
      (fun job => discard (cancel engine job.id clock)) s := by
  rw [← sound.unfinished_eq]
  rfl

/-- Draining a queue cancels its unfinished jobs, in the order of submission. -/
theorem drain_drains {r : Unit} (sound : s.queue.Sound) (h : drain engine clock s = .ok r t) :
    Drains engine clock s.queue.unfinished s t := by
  simp only [drain, Step.bind_eq_ok, Step.get_eq_ok] at h
  obtain ⟨_, _, ⟨rfl, rfl⟩, h⟩ := h
  apply drains_of_forM sound _ _ _ h
  · intro job there
    exact sound.job?_of_mem (mem_unfinished.1 there).1
  · intro job there
    exact (mem_unfinished.1 there).2
  · rw [sound.unfinished_eq]
    exact sound.jobs_unique.sublist (List.filter_sublist.map _)

/-! ## Records -/

/-- A queue of which some jobs are cancelled. -/
def without (queue : Queue) (ids : List Job.Id) (now : Instant) : Queue :=
  { queue with
    pending := queue.pending.filter fun entry => entry.id ∉ ids
    active := queue.active.filter fun active => active.jobId ∉ ids
    jobs := queue.jobs.map fun job => if job.id ∈ ids then job.moved .cancelled now else job }

theorem without_nil (queue : Queue) (now : Instant) : queue.without [] now = queue := by
  simp [without]

theorem without_without (queue : Queue) (id : Job.Id) (ids : List Job.Id) (now : Instant) :
    (queue.without [id] now).without ids now = queue.without (id :: ids) now := by
  have pending : (queue.without [id] now).pending.filter (fun entry => entry.id ∉ ids) =
      queue.pending.filter fun entry => entry.id ∉ id :: ids := by
    rw [without, List.filter_filter]
    refine List.filter_congr fun entry _ => ?_
    by_cases h : entry.id = id <;> simp [h]
  have active : (queue.without [id] now).active.filter (fun active => active.jobId ∉ ids) =
      queue.active.filter fun active => active.jobId ∉ id :: ids := by
    rw [without, List.filter_filter]
    refine List.filter_congr fun active _ => ?_
    by_cases h : active.jobId = id <;> simp [h]
  have jobs : ((queue.without [id] now).jobs.map fun job =>
        if job.id ∈ ids then job.moved .cancelled now else job) =
      queue.jobs.map fun job => if job.id ∈ id :: ids then job.moved .cancelled now else job := by
    rw [without, List.map_map]
    refine List.map_congr_left fun job _ => ?_
    by_cases h : job.id = id
    · -- a job that is cancelled twice is the same as one that is cancelled once
      have twice : (job.moved .cancelled now).moved .cancelled now = job.moved .cancelled now := rfl
      simp [h, twice]
    · simp [h]
  unfold without at pending active jobs ⊢
  simp only [pending, active, jobs]

theorem Cancels.queue_eq (cancels : Cancels engine clock job s t) (sound : s.queue.Sound)
    (found : s.queue.job? job.id = some job) : t.queue = s.queue.without [job.id] clock.wall := by
  have jobs : (s.queue.jobs.map fun old =>
        if old.id = job.id then job.moved .cancelled clock.wall else old) =
      s.queue.jobs.map fun old =>
        if old.id ∈ [job.id] then old.moved .cancelled clock.wall else old := by
    refine List.map_congr_left fun old there => ?_
    by_cases h : old.id = job.id
    · have same := Keyed.eq_of_find? sound.jobs_unique found there h
      simp [same]
    · simp [h]
  have pending : (s.queue.pending.filter fun entry => entry.id != job.id) =
      s.queue.pending.filter fun entry => entry.id ∉ [job.id] :=
    List.filter_congr fun entry _ => by by_cases h : entry.id = job.id <;> simp [h]
  have active : (s.queue.active.filter fun active => active.jobId != job.id) =
      s.queue.active.filter fun active => active.jobId ∉ [job.id] :=
    List.filter_congr fun active _ => by by_cases h : active.jobId = job.id <;> simp [h]
  cases cancels with
  | withdraw status =>
    have none := congrArg Slice.active (sound.slice_queued found status)
    have kept : (s.queue.active.filter fun active => active.jobId ∉ [job.id]) = s.queue.active := by
      refine List.filter_eq_self.2 fun active there => ?_
      have apart : active.jobId ≠ job.id := by
        intro same
        exact Keyed.find?_eq_none.1 none (List.mem_map.2 ⟨active, there, same⟩)
      simpa using apart
    unfold without
    rw [kept, ← pending, ← jobs]
    rfl
  | abandon holds =>
    have none := congrArg Slice.waiting (sound.slice_active found holds)
    have kept : (s.queue.pending.filter fun entry => entry.id ∉ [job.id]) = s.queue.pending := by
      refine List.filter_eq_self.2 fun entry there => ?_
      have apart := List.filter_eq_nil_iff.1 none entry there
      simpa using apart
    unfold without
    rw [kept, ← active, ← jobs]
    rfl

/-- The records, the waiting entries and what is held after some jobs were cancelled. -/
theorem Drains.queue_eq (drains : Drains engine clock jobs s t) :
    t.queue = s.queue.without (jobs.map (·.id)) clock.wall := by
  induction drains with
  | nil s => rw [List.map_nil, without_nil]
  | cons sound found fresh first rest ih =>
    rw [ih, first.queue_eq sound found, without_without, List.map_cons]

/-- When all unfinished jobs are cancelled, none waits and none holds anything. -/
theorem Sound.without_unfinished {queue : Queue} (sound : queue.Sound) (now : Instant) :
    queue.without (queue.unfinished.map (·.id)) now =
      { queue with
        pending := []
        active := []
        jobs := queue.jobs.map fun job =>
          if job.status.isTerminal then job else job.moved .cancelled now } := by
  have mem_iff {id : Job.Id} {job : Job} (found : queue.job? id = some job) :
      id ∈ queue.unfinished.map (·.id) ↔ job.status.isTerminal = false := by
    have there := Keyed.mem_of_find? found
    constructor
    · intro h
      obtain ⟨other, unfinished, same⟩ := List.mem_map.1 h
      obtain ⟨other_there, open_⟩ := mem_unfinished.1 unfinished
      rwa [← Keyed.eq_of_find? sound.jobs_unique found other_there same]
    · intro open_
      exact List.mem_map.2 ⟨job, mem_unfinished.2 ⟨there.1, open_⟩, there.2⟩
  have pending : (queue.pending.filter fun entry =>
      entry.id ∉ queue.unfinished.map (·.id)) = [] := by
    refine List.filter_eq_nil_iff.2 fun entry there => ?_
    obtain ⟨job, found, status, -⟩ := sound.mem_pending_iff.1 there
    have open_ : job.status.isTerminal = false := by
      rw [status]
      rfl
    simpa using (mem_iff found).2 open_
  have active : (queue.active.filter fun active =>
      active.jobId ∉ queue.unfinished.map (·.id)) = [] := by
    refine List.filter_eq_nil_iff.2 fun active there => ?_
    obtain ⟨job, found, -, state⟩ := sound.job_of_active (sound.active?_of_mem there)
    have open_ : job.status.isTerminal = false := by
      rcases state with ⟨status, -⟩ | ⟨status, -⟩ <;> rw [status] <;> rfl
    simpa using (mem_iff found).2 open_
  have jobs : (queue.jobs.map fun job =>
        if job.id ∈ queue.unfinished.map (·.id) then job.moved .cancelled now else job) =
      queue.jobs.map fun job =>
        if job.status.isTerminal then job else job.moved .cancelled now := by
    refine List.map_congr_left fun job there => ?_
    have iff := mem_iff (sound.job?_of_mem there)
    cases ended : job.status.isTerminal with
    | true => rw [if_neg (by simp [iff, ended]), if_pos rfl]
    | false => rw [if_pos (iff.2 ended), if_neg Bool.false_ne_true]
  unfold without
  rw [pending, active, jobs]

/-! ## Announcements -/

/-- What has been announced of jobs. -/
def jobNews (news : List Notice) : List Notice :=
  news.filter fun notice => notice.jobId?.isSome

theorem Cancels.announced (cancels : Cancels engine clock job s t) :
    ∃ news, t.announced = s.announced ++ news ∧ jobNews news = [.jobCancelled job.id] := by
  cases cancels with
  | withdraw => exact ⟨[.jobCancelled job.id], rfl, rfl⟩
  | abandon holds status release =>
    obtain ⟨news, said, quiet⟩ := Session.release_quiet release
    refine ⟨news ++ [.jobCancelled job.id], ?_, ?_⟩
    · show _ ++ [_] = _
      rw [said, List.append_assoc]
    · have none : jobNews news = [] := by
        refine List.filter_eq_nil_iff.2 fun notice there => ?_
        rw [quiet notice there]
        exact Bool.false_ne_true
      rw [jobNews, List.filter_append, ← jobNews, none]
      rfl

/-- One cancellation is announced for each job, and nothing else of any job. -/
theorem Drains.announced (drains : Drains engine clock jobs s t) :
    ∃ news, t.announced = s.announced ++ news ∧
      jobNews news = jobs.map fun job => .jobCancelled job.id := by
  induction drains with
  | nil s => exact ⟨[], (List.append_nil _).symm, rfl⟩
  | cons sound found fresh first rest ih =>
    obtain ⟨news, said, own⟩ := first.announced
    obtain ⟨later, said', others⟩ := ih
    refine ⟨news ++ later, ?_, ?_⟩
    · rw [said', said, List.append_assoc]
    · rw [jobNews, List.filter_append, ← jobNews, ← jobNews, own, others]
      rfl

/-! ## What is held -/

/-- What some jobs hold. -/
def holdings (queue : Queue) (jobs : List Job) : List Active :=
  jobs.filterMap fun job => queue.active? job.id

theorem Cancels.holdings_eq (cancels : Cancels engine clock job s t)
    (fresh : ∀ other ∈ jobs, other.id ≠ job.id) : t.queue.holdings jobs = s.queue.holdings jobs :=
  List.filterMap_congr fun other there =>
    congrArg Slice.active (cancels.slice_eq (fresh other there))

theorem mem_holdings {queue : Queue} {active : Active} :
    active ∈ queue.holdings jobs ↔ ∃ job ∈ jobs, queue.active? job.id = some active :=
  List.mem_filterMap

/-- The unfinished jobs hold what the queue holds. -/
theorem Sound.holdings_unfinished {queue : Queue} (sound : queue.Sound) :
    (queue.holdings queue.unfinished).Perm queue.active := by
  have ids_once : (queue.unfinished.map (·.id)).Nodup := by
    rw [sound.unfinished_eq]
    exact sound.jobs_unique.sublist (List.filter_sublist.map _)
  have once : (queue.holdings queue.unfinished).Nodup := by
    have same : queue.holdings queue.unfinished =
        (queue.unfinished.map (·.id)).filterMap queue.active? := by
      rw [List.filterMap_map]
      rfl
    rw [same]
    refine ids_once.filterMap fun id id' active holds holds' => ?_
    rw [← active?_jobId holds, ← active?_jobId holds']
  refine (List.perm_ext_iff_of_nodup once (.of_map _ sound.active_unique)).2 fun active => ?_
  rw [mem_holdings]
  constructor
  · rintro ⟨job, -, holds⟩
    exact (Keyed.mem_of_find? holds).1
  · intro there
    have holds := sound.active?_of_mem there
    obtain ⟨job, found, -, state⟩ := sound.job_of_active holds
    have open_ : job.status.isTerminal = false := by
      rcases state with ⟨status, -⟩ | ⟨status, -⟩ <;> rw [status] <;> rfl
    refine ⟨job, mem_unfinished.2 ⟨(Keyed.mem_of_find? found).1, open_⟩, ?_⟩
    rw [job?_id found]
    exact holds

/-- A queued job holds nothing. -/
theorem Sound.unheld_of_queued {queue : Queue} (sound : queue.Sound)
    (found : queue.job? job.id = some job) (status : job.status = .queued) :
    queue.active? job.id = none :=
  congrArg Slice.active (sound.slice_queued found status)

/-- Each run of what was held is cancelled, and the engine is not called otherwise. -/
theorem Drains.calls {s t : Scene (σ × List Call)}
    (drains : Drains engine.logged clock jobs s t) :
    t.calls = s.calls ++ (s.queue.holdings jobs).map fun active => .cancel active.handle := by
  induction drains with
  | nil s => exact (List.append_nil _).symm
  | cons sound found fresh first rest ih =>
    rw [ih, first.holdings_eq fresh]
    cases first with
    | withdraw status =>
      rw [holdings, holdings, List.filterMap_cons, sound.unheld_of_queued found status]
      rfl
    | abandon holds =>
      rw [holdings, holdings, List.filterMap_cons, holds, List.map_cons]
      exact List.append_assoc ..

/-! ## Agents -/

/-- An agent after the task of a cancelled job. One that was taken offline stays offline. -/
structure Freed (threshold : UInt32) (before after : Agent) : Prop where
  shape : after = { before with
    status := after.status
    currentTask := none
    metrics := { before.metrics with tasksCancelled := after.metrics.tasksCancelled }
    degradedSince := after.degradedSince }
  status : after.status =
    if before.status = .offline then .offline
    else if threshold ≤ before.failureStreak then .degraded else .idle
  counted : after.metrics.tasksCancelled.toNat = before.metrics.tasksCancelled.toNat + 1

/-- An agent of a swarm is given back. -/
structure GivenBack (s t : Swarm) (id : Agent.Id) : Prop where
  freed : ∃ before after, s.agent? id = some before ∧ t.agent? id = some after ∧
    Freed s.config.failureThreshold before after
  unclaimed : id ∉ t.claimed

/-- A swarm treats an agent as another one does. -/
structure Spared (s t : Swarm) (id : Agent.Id) : Prop where
  same : t.agent? id = s.agent? id
  claimed_iff : id ∈ t.claimed ↔ id ∈ s.claimed

theorem freed_of_tally {agent counted : Agent} {threshold : UInt32} {now : Instant}
    (status : agent.status = .busy ∨ agent.status = .offline)
    (tally : Session.tally .cancelled agent = .ok () counted) :
    Freed threshold agent (Session.discharged counted .cancelled threshold now) := by
  simp only [Session.tally] at tally
  obtain ⟨count, sum, rfl⟩ := Session.countTask_ok tally
  have counted := (addWord_eq_ok_iff ..).1 sum
  unfold Session.discharged
  rcases status with status | status
  · simp only [status]
    by_cases streak : threshold ≤ agent.failureStreak
    · simp only [if_pos streak]
      exact ⟨rfl, by simp [status, streak], counted⟩
    · simp only [if_neg streak]
      exact ⟨rfl, by simp [status, streak], counted⟩
  · simp only [status]
    exact ⟨by simp, by simp [status], counted⟩

/-- An agent that is held is given back, and no other agent is touched. -/
theorem release_gives {s t : Session} {held : List Holding} {id : Agent.Id} {now : Instant}
    {answer : Except Swarm.Error Agent.Status} (serves : s.swarm.Serves held)
    (here : id ∈ held.map (·.1)) (call : Session.release id .cancelled now s = .ok answer t) :
    GivenBack s.swarm t.swarm id ∧ t.swarm.config = s.swarm.config ∧
      ∀ other, other ≠ id → Spared s.swarm t.swarm other := by
  obtain ⟨agent, counted, found, tally, leads⟩ := serves.releases here call
  have same : (Session.discharged counted .cancelled s.swarm.config.failureThreshold now).id =
      id := by
    rw [Session.discharged_id, Session.tally_ok tally, Session.agent?_id found]
  have status := (serves.stands agent (Swarm.mem_of_agent? found).1).of_held
    ((Session.agent?_id found).symm ▸ here)
  have agents (other : Agent.Id) : t.swarm.agent? other =
      if other = id then (s.swarm.agent? other).map fun _ =>
        Session.discharged counted .cancelled s.swarm.config.failureThreshold now
      else s.swarm.agent? other := by
    rw [Swarm.agent?_eq_find?, Swarm.agent?_eq_find?, leads.agents, Session.agents_returned, same]
    exact Keyed.find?_modify _ fun _ _ => same
  have claimed : t.swarm.claimed = s.swarm.claimed.erase id := by
    rw [leads.claimed, Session.returned, same]
  have freed : Freed s.swarm.config.failureThreshold agent
      (Session.discharged counted .cancelled s.swarm.config.failureThreshold now) :=
    freed_of_tally status tally
  refine ⟨⟨⟨agent, _, found, ?_, freed⟩, ?_⟩, leads.config, ?_⟩
  · rw [agents, if_pos rfl, found, Option.map_some]
  · rw [claimed, serves.claimed_once.mem_erase_iff]
    exact fun both => both.1 rfl
  · intro other apart
    refine ⟨?_, ?_⟩
    · rw [agents, if_neg apart]
    · rw [claimed, serves.claimed_once.mem_erase_iff]
      exact and_iff_right apart

/-- Cancelling a job gives back the agent that the job holds, and touches no other. -/
theorem Cancels.gives (cancels : Cancels engine clock job s t) (sound : s.queue.Sound)
    (found : s.queue.job? job.id = some job) (serves : s.swarm.Serves (others ++ s.queue.held)) :
    t.swarm.config = s.swarm.config ∧
      (∀ active, s.queue.active? job.id = some active →
        GivenBack s.swarm t.swarm active.agentId) ∧
      ∀ other, (∀ active, s.queue.active? job.id = some active → active.agentId ≠ other) →
        Spared s.swarm t.swarm other := by
  cases cancels with
  | withdraw status =>
    have unheld := sound.unheld_of_queued found status
    refine ⟨rfl, ?_, fun _ _ => ⟨rfl, Iff.rfl⟩⟩
    intro active holds
    rw [unheld] at holds
    cases holds
  | @abandon active session answer holds status release =>
    obtain ⟨given, config, spared⟩ := release_gives serves (mem_held_of_active? holds) release
    refine ⟨config, ?_, ?_⟩
    · intro other holds'
      rw [holds] at holds'
      cases holds'
      exact given
    · intro other unheld
      exact spared other (Ne.symm (unheld active holds))

/-- Two jobs of a queue do not hold the same agent. -/
theorem eq_of_agentId {swarm : Swarm} {queue : Queue} {active other : Active}
    (serves : swarm.Serves (others ++ queue.held)) (there : active ∈ queue.active)
    (there' : other ∈ queue.active) (same : active.agentId = other.agentId) : active = other := by
  have once : (queue.active.map (·.agentId)).Nodup := by
    have once := serves.held_once
    rw [List.map_append] at once
    have own := (List.nodup_append.1 once).2.1
    rw [held, List.map_map] at own
    exact own
  exact Keyed.eq_of_key_eq once there there' same

/-- An agent that none of the cancelled jobs holds is left alone. -/
theorem Drains.spares (drains : Drains engine clock jobs s t)
    (serves : s.swarm.Serves (others ++ s.queue.held)) {id : Agent.Id}
    (unheld : ∀ active ∈ s.queue.holdings jobs, active.agentId ≠ id) :
    Spared s.swarm t.swarm id := by
  induction drains with
  | nil s => exact ⟨rfl, Iff.rfl⟩
  | cons sound found fresh first rest ih =>
    have moves : Move engine clock false _ _ := first.move found
    obtain ⟨-, -, spared⟩ := first.gives sound found serves
    have now := spared id fun active holds =>
      unheld active (mem_holdings.2 ⟨_, List.mem_cons_self, holds⟩)
    have later := ih (moves.serves sound serves) fun active held => by
      rw [first.holdings_eq fresh] at held
      obtain ⟨job, there, holds⟩ := mem_holdings.1 held
      exact unheld active (mem_holdings.2 ⟨job, List.mem_cons_of_mem _ there, holds⟩)
    exact ⟨later.same.trans now.same, later.claimed_iff.trans now.claimed_iff⟩

/-- The agents of the cancelled jobs are given back. -/
theorem Drains.frees (drains : Drains engine clock jobs s t)
    (serves : s.swarm.Serves (others ++ s.queue.held)) {active : Active}
    (held : active ∈ s.queue.holdings jobs) : GivenBack s.swarm t.swarm active.agentId := by
  induction drains with
  | nil s => cases held
  | @cons job jobs s u t sound found fresh first rest ih =>
    have moves : Move engine clock false s u := first.move found
    have serves' := moves.serves sound serves
    obtain ⟨config, given, spared⟩ := first.gives sound found serves
    -- the agents of this job and of the later ones differ
    have apart {active other : Active} (holds : s.queue.active? job.id = some active)
        (later : other ∈ s.queue.holdings jobs) : active.agentId ≠ other.agentId := by
      intro same
      obtain ⟨job', there, holds'⟩ := mem_holdings.1 later
      have equal := eq_of_agentId serves (Keyed.mem_of_find? holds).1 (Keyed.mem_of_find? holds').1
        same
      apply fresh job' there
      rw [← active?_jobId holds', ← equal, active?_jobId holds]
    obtain ⟨job', there, holds⟩ := mem_holdings.1 held
    rcases List.mem_cons.1 there with rfl | there
    · obtain ⟨⟨before, after, known, freed, as⟩, unclaimed⟩ := given active holds
      have later := rest.spares serves' fun other held => by
        rw [first.holdings_eq fresh] at held
        exact (apart holds held).symm
      refine ⟨⟨before, after, known, later.same.trans freed, as⟩, ?_⟩
      exact mt later.claimed_iff.1 unclaimed
    · have held : active ∈ s.queue.holdings jobs := mem_holdings.2 ⟨job', there, holds⟩
      have now := spared active.agentId fun other holds => apart holds held
      rw [← first.holdings_eq fresh] at held
      obtain ⟨⟨before, after, known, freed, as⟩, unclaimed⟩ := ih serves' held
      rw [config] at as
      exact ⟨⟨before, after, now.same.symm.trans known, freed, as⟩, unclaimed⟩

/-! ## Queues that are drained -/

/-- What becomes of a queue that is drained, of the engine, and of the agents of its jobs. -/
structure Drained (clock : Clock) (s t : Scene (σ × List Call)) : Prop where
  /-- No job waits, none holds anything, and those that had not ended are cancelled. -/
  queue : t.queue = { s.queue with
    pending := []
    active := []
    jobs := s.queue.jobs.map fun job =>
      if job.status.isTerminal then job else job.moved .cancelled clock.wall }
  /-- One cancellation is announced for each of them, and nothing else of any job. -/
  announced : ∃ news, t.announced = s.announced ++ news ∧
    jobNews news = s.queue.unfinished.map fun job => .jobCancelled job.id
  /-- Each run of an active job is cancelled once, and no run is started. -/
  calls : ∃ held : List Active, held.Perm s.queue.active ∧
    t.calls = s.calls ++ held.map fun active => .cancel active.handle
  given : ∀ active ∈ s.queue.active, GivenBack s.swarm t.swarm active.agentId
  spared : ∀ id, (∀ active ∈ s.queue.active, active.agentId ≠ id) → Spared s.swarm t.swarm id

theorem drain_drained {s t : Scene (σ × List Call)} {r : Unit} (sound : s.queue.Sound)
    (serves : s.swarm.Serves (others ++ s.queue.held))
    (call : drain engine.logged clock s = .ok r t) : Drained clock s t := by
  have drains := drain_drains sound call
  have held := sound.holdings_unfinished
  refine ⟨?_, drains.announced, ⟨_, held, drains.calls⟩, ?_, ?_⟩
  · rw [drains.queue_eq, sound.without_unfinished]
  · intro active there
    exact drains.frees serves (held.mem_iff.2 there)
  · intro id unheld
    exact drains.spares serves fun active there => unheld active (held.mem_iff.1 there)

end Queue

namespace Fleet

open Engine (Call)
open Queue (Drained Message Scene Spared)

variable {σ : Type} {engine : Engine σ} {clock : Clock} {s t : Scene (σ × List Call)}
  {before after : List Queue}

/-- Whenever a queue of a fleet is drained, and whatever the engine answers, all its unfinished jobs
are cancelled and their agents are given back. The agents that other queues hold are left to
them. -/
theorem Run.drained {swarm : Swarm} {configs : List Queue.Config} (atRest : swarm.AtRest)
    (run : Run (initial swarm configs) ⟨s.swarm, before ++ s.queue :: after⟩)
    (call : Queue.drain engine.logged clock s = .ok () t) :
    Drained clock s t ∧ ∀ other ∈ before ++ after, ∀ active ∈ other.active,
      Spared s.swarm t.swarm active.agentId := by
  have order := run.inOrder (inOrder_initial atRest configs)
  have sound := order.sound s.queue (List.mem_append_right _ List.mem_cons_self)
  have serves := order.serves.perm held_perm
  have drained := Queue.drain_drained sound serves call
  refine ⟨drained, ?_⟩
  intro other there active held
  apply drained.spared
  intro own there' same
  have once := serves.held_once
  rw [List.map_append] at once
  have apart := (List.nodup_append.1 once).2.2
  refine apart active.agentId (List.mem_map.2 ⟨(active.agentId, some active.jobId), ?_, rfl⟩)
    own.agentId (List.mem_map.2 ⟨(own.agentId, some own.jobId), ?_, rfl⟩) same.symm
  · exact List.mem_flatMap.2 ⟨other, there, List.mem_map.2 ⟨active, held, rfl⟩⟩
  · exact List.mem_map.2 ⟨own, there', rfl⟩

/-- A queue is drained of one job that runs and one that waits. -/
theorem Run.drained_of_two :
    ∃ s t : Scene (Engine.Stub.State × List Call),
      t.queue.jobs.map (·.status) = [.cancelled, .cancelled] ∧
      t.calls = [.start (.ok ⟨1⟩), .cancel ⟨1⟩] ∧ t.swarm.claimed = [] ∧
      Drained (.epoch 2) s t := by
  let submit (id : Job.Id) : Message := .submit id { targetPath := "notes" } .normal
  have played : (Queue.play Engine.Stub.engine.logged [.told (.epoch 0) (submit ⟨1⟩)]
      (.initial {} Queue.loneSwarm (Engine.Stub.standard, []))).any (fun r =>
        (Queue.play Engine.Stub.engine.logged [.told (.epoch 1) (submit ⟨2⟩)] r).any fun s =>
          match (s.queue.jobs.filter fun job => !job.status.isTerminal).forM (fun job =>
            discard (Queue.cancel Engine.Stub.engine.logged job.id (.epoch 2))) s with
          | .ok _ t => t.queue.jobs.map (·.status) = [.cancelled, .cancelled] ∧
            t.calls = [.start (.ok ⟨1⟩), .cancel ⟨1⟩] ∧ t.swarm.claimed = []
          | .error .. => false) = true := by
    decide +kernel
  obtain ⟨r, hr, rest⟩ := (Option.any_eq_true _ _).1 played
  obtain ⟨s, hs, rest⟩ := (Option.any_eq_true _ _).1 rest
  obtain ⟨fresh, _, call⟩ := Queue.handle_of_play hr
  obtain ⟨fresh', _, call'⟩ := Queue.handle_of_play hs
  have reached := (Queue.run_of_play hr).trans (Queue.run_of_play hs)
  have sound := (Queue.Run.sound reached (Queue.sound_initial {})).1
  have run : Run (initial Queue.loneSwarm [{}]) ⟨s.swarm, [] ++ s.queue :: []⟩ :=
    (Relation.ReflTransGen.single (.handles _ _ _ [] [] fresh call)).tail
      (.handles _ _ _ [] [] fresh' call')
  split at rest
  · next t cancelled =>
    obtain ⟨statuses, log, claimed⟩ := of_decide_eq_true rest
    have call := (Queue.drain_eq sound).trans cancelled
    exact ⟨s, t, statuses, log, claimed, (Run.drained Queue.loneSwarm_atRest run call).1⟩
  · cases rest

end Fleet

end JobSwarm
