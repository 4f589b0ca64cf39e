import JobSwarm.Proofs.Queue.Run

/-!
# The order of starts

A pass looks at the queued jobs in order of precedence, and passes over a job only if no agent can
be had for its capability. So whatever starts is preceded by nothing that could have started.

Results:

* `Looks.passing`: what holds in the middle of a pass.
* `Trial.start`: the look at which a start is announced.
* `Run.starts_in_order`: when a job starts, no queued job of the same capability precedes it, and
  for each queued job that precedes it no agent was found earlier in the same pass.
-/

namespace JobSwarm.Queue

open Event (Notice)
open Swarm (Session)
open Time (Clock)

variable {σ : Type} {engine : Engine σ} {clock : Clock} {base m s t u : Scene σ}
  {before after : List Pending} {blocked blocked' : List String} {job : Job}

/-! ## Moments of a pass -/

/-- A pass that begins in `u` comes to `base` before it looks at any queued job. -/
def Begins (engine : Engine σ) (clock : Clock) (u base : Scene σ) : Prop :=
  ∃ v ids session, expireAll engine clock u = .ok () v ∧
    Session.recover clock.wall v.toSession = .ok ids session ∧
    base = { v with toSession := session }

/-- From `base` a pass comes to `m` when it has looked at the entries `before` and has yet to look
at `after`; then the capabilities `blocked` are known to be out of agents. -/
def Looks (engine : Engine σ) (clock : Clock) (base : Scene σ) (before after : List Pending)
    (blocked : List String) (m : Scene σ) : Prop :=
  base.queue.pending = before ++ after ∧
    before.foldlM (consider engine clock) [] base = .ok blocked m

/-- A pass begins, and looks at all queued jobs. -/
theorem pass_looks {r : Unit} (h : pass engine clock u = .ok r t) :
    ∃ base blocked, Begins engine clock u base ∧
      Looks engine clock base base.queue.pending [] blocked t := by
  simp only [pass, dispatch, Step.bind_eq_ok, Step.discard_eq_ok, Step.get_eq_ok,
    Scene.onSwarm_eq_ok] at h
  obtain ⟨_, v, hexpire, _, _, ⟨ids, session, hrecover, rfl⟩, _, _, ⟨rfl, rfl⟩, blocked, h⟩ := h
  exact ⟨_, blocked, ⟨v, ids, session, hexpire, hrecover, rfl⟩, (List.append_nil _).symm, h⟩

/-- No job starts before the first look. -/
theorem Begins.path (begins : Begins engine clock u base) (sound : u.queue.Sound) :
    Path engine clock false u base := by
  obtain ⟨v, ids, session, hexpire, hrecover, rfl⟩ := begins
  have expires : Path engine clock false u v := expireAll_path sound hexpire
  exact expires.tail (.recover hrecover)

/-- By the time a pass had looked at the entries `before`, no agent was eligible for a capability
when one was called for. -/
def Lacked (engine : Engine σ) (clock : Clock) (base : Scene σ) (before : List Pending)
    (capability : String) : Prop :=
  ∃ earlier later blocked m job session,
    Looks engine clock base earlier (.ofJob job :: later) blocked m ∧
      earlier ++ [.ofJob job] <+: before ∧
      m.queue.job? job.id = some job ∧ job.config.requiredCapability = capability ∧
      Session.acquireFor (taskOf m.queue job clock.wall) clock.wall m.toSession =
        .ok none session ∧
      ∀ agent ∈ session.swarm.agents, ¬session.swarm.Eligible capability agent

theorem Lacked.mono {capability : String} {entry : Pending}
    (h : Lacked engine clock base before capability) :
    Lacked engine clock base (before ++ [entry]) capability := by
  obtain ⟨earlier, later, blocked, m, job, session, looks, early, facts⟩ := h
  exact ⟨earlier, later, blocked, m, job, session, looks, early.trans (List.prefix_append _ _),
    facts⟩

/-- The last look. -/
theorem Looks.last {entry : Pending}
    (looks : Looks engine clock base (before ++ [entry]) after blocked' t) :
    ∃ blocked m, Looks engine clock base before (entry :: after) blocked m ∧
      consider engine clock blocked entry m = .ok blocked' t := by
  obtain ⟨pending, h⟩ := looks
  rw [List.foldlM_append] at h
  obtain ⟨blocked, m, hbefore, h⟩ := Step.bind_eq_ok.1 h
  rw [List.foldlM_cons] at h
  obtain ⟨_, _, hlast, h⟩ := Step.bind_eq_ok.1 h
  obtain ⟨rfl, rfl⟩ := Step.pure_eq_ok.1 h
  exact ⟨blocked, m, ⟨by rw [pending, List.append_assoc]; rfl, hbefore⟩, hlast⟩

/-- What holds in the middle of a pass. -/
structure Passing (engine : Engine σ) (clock : Clock) (base : Scene σ) (before after : List Pending)
    (blocked : List String) (m : Scene σ) : Prop where
  path : Path engine clock true base m
  /-- What has not been looked at waits on. -/
  ahead : ∀ entry ∈ after, entry ∈ m.queue.pending
  /-- Nothing new waits. -/
  old : ∀ entry ∈ m.queue.pending, entry ∈ before ++ after
  /-- As long as there is room, a job is passed over for want of an agent alone. -/
  passed : m.queue.hasRoom = true → ∀ job, m.queue.job? job.id = some job → job.status = .queued →
    .ofJob job ∈ before → job.config.requiredCapability ∈ blocked
  lacked : base.swarm.initialized = true →
    ∀ capability ∈ blocked, Lacked engine clock base before capability

/-- A call for an agent finds none only if none is eligible. -/
theorem not_eligible_of_acquireFor {task : Task} {session session' : Session}
    (initialized : session.swarm.initialized = true)
    (call : Session.acquireFor task clock.wall session = .ok none session') :
    ∀ agent ∈ session'.swarm.agents, ¬session'.swarm.Eligible task.capability agent := by
  obtain ⟨-, uninitialized, -⟩ | ⟨-, -, -, none⟩ | ⟨_, _, given, -⟩ := Session.acquire_ok call
  · rw [initialized] at uninitialized
    cases uninitialized
  · exact Session.choice?_eq_none none
  · cases given

/-- A job that is passed over, or begins, leaves the others as they are. -/
theorem Passing.step (passing : Passing engine clock base before (.ofJob job :: after) blocked m)
    (looks : Looks engine clock base before (.ofJob job :: after) blocked m)
    (sound : base.queue.Sound) (found : m.queue.job? job.id = some job)
    (trial : Trial engine clock m blocked job blocked' t) :
    Passing engine clock base (before ++ [.ofJob job]) after blocked' t where
  path := passing.path.trans (trial.path rfl)
  ahead entry hmem := by
    refine trial.waits_on (passing.ahead entry (List.mem_cons_of_mem _ hmem)) fun heq => ?_
    have unique := sound.pending_unique
    rw [looks.1, List.map_append, List.map_cons] at unique
    exact (List.nodup_cons.1 (List.nodup_append.1 unique).2.1).1
      (List.mem_map.2 ⟨entry, hmem, heq⟩)
  old entry hmem := by
    rw [List.append_assoc]
    exact passing.old entry (trial.waited hmem)
  passed room other hother queued hmem := by
    -- The job itself has either begun or was passed over just now; the others were earlier.
    have sound' : t.queue.Sound := Path.sound (passing.path.trans (trial.path rfl)) sound
    have itself : .ofJob other ∈ before ∨ other.id = job.id := by
      rcases List.mem_append.1 hmem with hmem | hmem
      · exact .inl hmem
      · exact .inr (congrArg Pending.id (List.mem_singleton.1 hmem))
    cases trial with
    | full full => rw [full] at room; cases room
    | waits known =>
      rcases itself with hbefore | hid
      · exact passing.passed room other hother queued hbefore
      · rw [hid, found] at hother
        cases hother
        exact known
    | wants _ call =>
      rcases itself with hbefore | hid
      · exact List.mem_cons_of_mem _ (passing.passed room other hother queued hbefore)
      · rw [hid] at hother
        cases found.symm.trans hother
        exact List.mem_cons_self
    | begins _ room' _ _ _ _ _ left others =>
      have hne : other.id ≠ job.id := fun hid => by
        have waits := sound'.mem_pending_iff.2 ⟨other, hother, queued, rfl⟩
        rw [left] at waits
        have apart : (Pending.ofJob other).id ≠ job.id := by simpa using (List.mem_filter.1 waits).2
        exact apart hid
      have hother : m.queue.job? other.id = some other :=
        (congrArg Slice.job (others other.id hne)).symm.trans hother
      exact passing.passed room' other hother queued (itself.resolve_right hne)
  lacked initialized capability hmem := by
    cases trial with
    | full | waits | begins => exact (passing.lacked initialized capability hmem).mono
    | @wants session _ call =>
      rcases List.mem_cons.1 hmem with rfl | hmem
      · have initialized := (Path.initialized_eq passing.path).trans initialized
        exact ⟨before, after, blocked, m, job, session, looks, List.prefix_rfl, found, rfl, call,
          not_eligible_of_acquireFor initialized call⟩
      · exact (passing.lacked initialized capability hmem).mono

/-- What holds in the middle of a pass holds at each of its moments. -/
theorem Looks.passing (looks : Looks engine clock base before after blocked m)
    (sound : base.queue.Sound) : Passing engine clock base before after blocked m := by
  induction before using List.reverseRecOn generalizing after blocked m with
  | nil =>
    obtain ⟨pending, h⟩ := looks
    obtain ⟨rfl, rfl⟩ := Step.pure_eq_ok.1 h
    exact {
      path := .refl
      ahead := fun entry hmem => by rw [pending]; exact hmem
      old := fun entry hmem => by rw [pending] at hmem; exact hmem
      passed := fun _ _ _ _ hmem => absurd hmem List.not_mem_nil
      lacked := fun _ _ hmem => absurd hmem List.not_mem_nil }
  | append_singleton before entry ih =>
    obtain ⟨blocked', m', looks', hlast⟩ := looks.last
    have passing := ih looks'
    obtain ⟨job, found, queued, rfl⟩ := (Path.sound passing.path sound).mem_pending_iff.1
      (passing.ahead entry List.mem_cons_self)
    exact passing.step looks' sound found (consider_trial found queued hlast)

/-- No queued job that goes before the next one could have started: its capability is known to be
out of agents. -/
theorem Looks.blocks (looks : Looks engine clock base before (.ofJob job :: after) blocked m)
    (sound : base.queue.Sound) (room : m.queue.hasRoom = true) {other : Job}
    (found : m.queue.job? other.id = some other) (queued : other.status = .queued)
    (precedes : (Pending.ofJob other).Precedes (.ofJob job)) :
    other.config.requiredCapability ∈ blocked := by
  have passing := looks.passing sound
  have waits := (Path.sound passing.path sound).mem_pending_iff.2 ⟨other, found, queued, rfl⟩
  have ordered := sound.ordered
  rw [looks.1] at ordered
  rcases List.mem_append.1 (passing.old _ waits) with hbefore | hrest
  · exact passing.passed room other found queued hbefore
  · rcases List.mem_cons.1 hrest with heq | hafter
    · rw [heq] at precedes
      exact absurd precedes not_precedes_self
    · have later := (List.pairwise_cons.1 (List.pairwise_append.1 ordered).2.1).1 _ hafter
      exact absurd (precedes_trans precedes later) not_precedes_self

/-! ## Announcements of starts -/

section Starts

variable {id : Job.Id} {agent : Agent.Id} {k : Nat} {notices news : List Notice} {notice : Notice}

/-- What stands in a list beyond its first part stands in the second. -/
theorem mem_of_getElem?_append (h : (notices ++ news)[k]? = some notice)
    (beyond : notices.length ≤ k) : notice ∈ news := by
  rw [List.getElem?_append_right beyond] at h
  exact List.mem_of_getElem? h

/-- A path on which no job starts does not announce a start. -/
theorem Path.start_beyond (path : Path engine clock false s t)
    (starts : (t.announced ++ news)[k]? = some (.jobStarted id agent))
    (beyond : s.announced.length ≤ k) : t.announced.length ≤ k := by
  obtain ⟨quiet, said, calm⟩ := path.said
  by_contra early
  rw [List.getElem?_append_left (Nat.lt_of_not_le early), said] at starts
  exact calm rfl _ (mem_of_getElem?_append starts beyond) rfl

/-- The look at which a start is announced. -/
theorem Trial.start (trial : Trial engine clock s blocked job blocked' t)
    (starts : t.announced[k]? = some (.jobStarted id agent)) (beyond : s.announced.length ≤ k) :
    job.id = id ∧ s.queue.hasRoom = true ∧ job.config.requiredCapability ∉ blocked ∧
      ∃ session, Session.acquireFor (taskOf s.queue job clock.wall) clock.wall s.toSession =
        .ok (some agent) session ∧ session.announced = t.announced.take k := by
  cases trial with
  | full | waits =>
    rw [List.getElem?_eq_none beyond] at starts
    cases starts
  | wants _ call =>
    obtain ⟨quiet, said, calm⟩ := Session.acquire_quiet call
    have starts : (s.announced ++ quiet)[k]? = some (.jobStarted id agent) := said ▸ starts
    cases calm _ (mem_of_getElem?_append starts beyond)
  | @begins agent' session _ news room unknown call move said calm left others =>
    obtain ⟨quiet, hsession, hquiet⟩ := Session.acquire_quiet call
    rcases Nat.lt_trichotomy k session.announced.length with early | rfl | late
    · rw [said, List.getElem?_append_left early, hsession] at starts
      cases hquiet _ (mem_of_getElem?_append starts beyond)
    · rw [said, List.getElem?_append_right (Nat.le_refl _), Nat.sub_self] at starts
      cases starts
      exact ⟨rfl, room, unknown, session, call, by rw [said, List.take_left']; rfl⟩
    · have starts : ((session.announced ++ [.jobStarted job.id agent']) ++ news)[k]? =
          some (.jobStarted id agent) := by
        rw [List.append_assoc]
        exact said ▸ starts
      exact absurd rfl (calm _ (mem_of_getElem?_append starts (by
        rw [List.length_append]
        exact late)))

/-- The start of a job in a pass: what was looked at before, the job, and the scene in which an
agent is found for it, when `announced` has been announced. -/
structure Start (engine : Engine σ) (clock : Clock) (base : Scene σ) (before : List Pending)
    (job : Job) (agent : Agent.Id) (announced : List Notice) (m : Scene σ) : Prop where
  looks : ∃ after blocked, Looks engine clock base before (.ofJob job :: after) blocked m
  found : m.queue.job? job.id = some job
  queued : job.status = .queued
  call : ∃ session, Session.acquireFor (taskOf m.queue job clock.wall) clock.wall m.toSession =
    .ok (some agent) session ∧ session.announced = announced
  /-- Every queued job that goes before requires another capability, and no agent was eligible for
  that when one was called for, earlier in the pass. -/
  first : ∀ other, m.queue.job? other.id = some other → other.status = .queued →
    (Pending.ofJob other).Precedes (.ofJob job) →
      other.config.requiredCapability ≠ job.config.requiredCapability ∧
        Lacked engine clock base before other.config.requiredCapability

theorem acquireFor_initialized {task : Task} {session session' : Session}
    (call : Session.acquireFor task clock.wall session = .ok (some agent) session') :
    session.swarm.initialized = true := by
  obtain ⟨none, -⟩ | ⟨none, -⟩ | ⟨_, _, -, initialized, -⟩ := Session.acquire_ok call
  · cases none
  · cases none
  · exact initialized

/-- Every start that is announced in a row of looks is the start of a job in order. -/
theorem Looks.starts (looks : Looks engine clock base before after blocked t)
    (sound : base.queue.Sound) (starts : t.announced[k]? = some (.jobStarted id agent))
    (beyond : base.announced.length ≤ k) :
    ∃ before job m, job.id = id ∧
      Start engine clock base before job agent (t.announced.take k) m := by
  induction before using List.reverseRecOn generalizing after blocked t with
  | nil =>
    obtain ⟨-, h⟩ := looks
    obtain ⟨rfl, rfl⟩ := Step.pure_eq_ok.1 h
    rw [List.getElem?_eq_none beyond] at starts
    cases starts
  | append_singleton before entry ih =>
    obtain ⟨blocked', m, looks', hlast⟩ := looks.last
    have passing := looks'.passing sound
    obtain ⟨job, found, queued, rfl⟩ := (Path.sound passing.path sound).mem_pending_iff.1
      (passing.ahead entry List.mem_cons_self)
    have trial := consider_trial found queued hlast
    have looked : Path engine clock true m t := trial.path rfl
    obtain ⟨news, said, -⟩ := looked.said
    rcases Nat.lt_or_ge k m.announced.length with early | late
    · rw [said, List.getElem?_append_left early] at starts
      rw [said, List.take_append_of_le_length (Nat.le_of_lt early)]
      exact ih looks' starts
    · obtain ⟨hid, room, unknown, session, call, hsession⟩ := trial.start starts late
      refine ⟨before, job, m, hid, ⟨after, blocked', looks'⟩, found, queued,
        ⟨session, call, hsession⟩, fun other hother hqueued precedes => ?_⟩
      have known := looks'.blocks sound room hother hqueued precedes
      have initialized := (Path.initialized_eq passing.path).symm.trans
        (acquireFor_initialized call)
      exact ⟨fun heq => unknown (heq ▸ known), passing.lacked initialized _ known⟩

/-- Every start that a message brings happens in the pass that follows it. -/
theorem handle_starts {message : Message} {reply : Reply} (sound : s.queue.Sound)
    (fresh : message.IsFresh s.queue) (call : handle engine clock message s = .ok reply t)
    (starts : t.announced[k]? = some (.jobStarted id agent)) (beyond : s.announced.length ≤ k) :
    ∃ u base before job m, react engine clock message s = .ok reply u ∧
      Begins engine clock u base ∧ job.id = id ∧
      Start engine clock base before job agent (t.announced.take k) m := by
  simp only [handle, Step.bind_eq_ok] at call
  obtain ⟨_, u, hreact, call⟩ := call
  have reacts : Path engine clock false s u := react_path sound fresh hreact
  split at call
  · obtain ⟨_, _, hpass, hreply⟩ := Step.bind_eq_ok.1 call
    obtain ⟨rfl, rfl⟩ := Step.pure_eq_ok.1 hreply
    obtain ⟨base, blocked, begins, looks⟩ := pass_looks hpass
    have quietly := reacts.trans (begins.path (reacts.sound sound))
    have sound' := Path.sound quietly sound
    obtain ⟨news, said, -⟩ := Path.said (looks.passing sound').path
    have beyond' := Path.start_beyond quietly (said ▸ starts) beyond
    obtain ⟨before, job, m, hid, start⟩ := looks.starts sound' starts beyond'
    exact ⟨u, base, before, job, m, hreact, begins, hid, start⟩
  · obtain ⟨rfl, rfl⟩ := Step.pure_eq_ok.1 call
    have whole : (u.announced ++ [])[k]? = some (.jobStarted id agent) := by
      rw [List.append_nil]
      exact starts
    rw [List.getElem?_eq_none (Path.start_beyond reacts whole beyond)] at starts
    cases starts

/-- From one message to the next, what has been announced only grows. -/
theorem Proceeds.said (step : Proceeds engine s t) (sound : s.queue.Sound) :
    ∃ news, t.announced = s.announced ++ news := by
  cases step with
  | handles clock message fresh call =>
    obtain ⟨news, said, -⟩ := (handle_path sound fresh call).said
    exact ⟨news, said⟩
  | drains clock call =>
    have path : Path engine clock false s t := drain_path sound call
    obtain ⟨news, said, -⟩ := path.said
    exact ⟨news, said⟩
  | waits => exact ⟨[], (List.append_nil _).symm⟩

/-- Whatever start is announced in a run from the beginning, it is the start of a job in order, in
the pass that follows some message of the run. -/
theorem Run.starts_in_order {config : Config} {swarm : Swarm} {state : σ}
    (run : Run engine (.initial config swarm state) t)
    (starts : t.announced[k]? = some (.jobStarted id agent)) :
    ∃ s clock message reply done u base before job m,
      Run engine (.initial config swarm state) s ∧ message.IsFresh s.queue ∧
      handle engine clock message s = .ok reply done ∧ Run engine done t ∧
      react engine clock message s = .ok reply u ∧ Begins engine clock u base ∧
      job.id = id ∧ Start engine clock base before job agent (t.announced.take k) m := by
  induction run with
  | refl => cases starts
  | @tail s t earlier step ih =>
    have sound := (Run.sound earlier (sound_initial config)).1
    obtain ⟨news, said⟩ := step.said sound
    rcases Nat.lt_or_ge k s.announced.length with early | late
    · rw [said, List.getElem?_append_left early] at starts
      obtain ⟨s', clock, message, reply, done, u, base, before, job, m, reached, fresh, call, rest,
        hstart⟩ := ih starts
      rw [said, List.take_append_of_le_length (Nat.le_of_lt early)]
      exact ⟨s', clock, message, reply, done, u, base, before, job, m, reached, fresh, call,
        rest.tail step, hstart⟩
    · cases step with
      | @handles clock message reply _ fresh call =>
        obtain ⟨u, base, before, job, m, hreact, begins, hid, start⟩ :=
          handle_starts sound fresh call starts late
        exact ⟨s, clock, message, reply, t, u, base, before, job, m, earlier, fresh, call, .refl,
          hreact, begins, hid, start⟩
      | drains clock call =>
        have path : Path engine clock false s t := drain_path sound call
        have whole : (t.announced ++ [])[k]? = some (.jobStarted id agent) := by
          rw [List.append_nil]
          exact starts
        rw [List.getElem?_eq_none (path.start_beyond whole late)] at starts
        cases starts
      | waits =>
        rw [List.getElem?_eq_none late] at starts
        cases starts

/-- A swarm of two agents, one of them offline. -/
def halfSwarm : Swarm :=
  let checker : Agent := .fresh ⟨"checksum-1"⟩ .fast "verify" 1 .epoch
  { loneSwarm with
    toRegistry :=
      .ofAgents (loneSwarm.agents ++ [{ checker with status := .offline }]) (by decide) }

/-- A job starts although a more urgent one waits, for which there is no agent. -/
theorem Run.starts_in_order_of_offline :
    ∃ t, Run Engine.Stub.engine (.initial {} halfSwarm Engine.Stub.standard) t ∧
      t.announced[3]? = some (.jobStarted ⟨2⟩ ⟨"lz-swift-full-1"⟩) ∧
      ∃ clock base before job m, job.id = ⟨2⟩ ∧
        Start Engine.Stub.engine clock base before job ⟨"lz-swift-full-1"⟩
          (t.announced.take 3) m := by
  have played : (play Engine.Stub.engine
      [.told (.epoch 0) (.submit ⟨1⟩ { kind := .verify, targetPath := "notes" } .high),
        .told (.epoch 1) (.submit ⟨2⟩ { targetPath := "notes" } .normal)]
      (.initial {} halfSwarm Engine.Stub.standard)).any (fun t =>
        (t.announced[3]?).any fun
          | .jobStarted id agent => id = ⟨2⟩ ∧ agent = ⟨"lz-swift-full-1"⟩
          | _ => false) = true := by
    decide +kernel
  obtain ⟨t, ht, facts⟩ := (Option.any_eq_true _ _).1 played
  obtain ⟨notice, hnotice, facts⟩ := (Option.any_eq_true _ _).1 facts
  have starts : t.announced[3]? = some (.jobStarted ⟨2⟩ ⟨"lz-swift-full-1"⟩) := by
    cases notice <;> simp_all
  obtain ⟨_, clock, _, _, _, _, base, before, job, m, _, _, _, _, _, _, hid, start⟩ :=
    Run.starts_in_order (run_of_play ht) starts
  exact ⟨t, run_of_play ht, starts, clock, base, before, job, m, hid, start⟩

end Starts

end JobSwarm.Queue
