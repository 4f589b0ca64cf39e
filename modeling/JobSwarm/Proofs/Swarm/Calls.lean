import JobSwarm.Proofs.Keyed
import JobSwarm.Proofs.Selection
import JobSwarm.Swarm.Basic

/-!
# What calls on a swarm come to

Each call that ends either changes nothing or changes agents, announces these changes, and sums up
the agents anew: `Renews` says so of one change. `Leads` is what is left of it when the news do not
matter: a swarm that is known up to its summary, and nothing said of any job.

Results:

* `populate_fills`, `populate_ok`: the agents of a catalog are there, or nothing changes.
* `recover_renews`, `recover_ok`: the agents that have rested are idle again.
* `acquire_renews`, `acquire_ok`: nobody is given an agent, or the chosen one is claimed.
* `choice?_eq_none`, `choice?_eq_some`: an eligible agent is chosen, if there is one.
* `release_renews`, `release_ok`: an agent is taken back, or nothing changes.
* `acquire_quiet`, `release_quiet`: neither says anything of a job.
* `markOffline_renews`, `markOnline_renews`, `reset_renews` and the `_ok` laws beside them: what
  administration does to one agent.
-/

namespace JobSwarm.Swarm

open Time (Instant)

/-- Whether an agent may be handed out for a capability. -/
def Eligible (swarm : Swarm) (capability : String) (agent : Agent) : Prop :=
  agent.capability = capability ∧
    (agent.status = .idle ∨ agent.status = .degraded ∧ swarm.config.fallbackToDegraded = true)

/-- A change of an agent's status. -/
structure Change where
  id : Agent.Id
  old : Agent.Status
  new : Agent.Status

/-- A change as it is announced. -/
def Change.notice (change : Change) : Event.Notice :=
  .agentStatusChanged change.id change.old change.new

/-- What is announced of a new summary: the summary itself, if the level has moved. -/
def levelNews (before : Option Level) (health : Health) : List Event.Notice :=
  if before.any (· != health.level) then [.swarmHealthChanged health] else []

namespace Session

/-- From one session to another nothing was announced of any job. -/
def Quiet (s t : Session) : Prop :=
  ∃ notices, t.announced = s.announced ++ notices ∧ ∀ notice ∈ notices, notice.jobId? = none

/-- From one session to another: the swarm is the given one up to its summary, and only agents and
health were announced. -/
structure Leads (s : Session) (swarm : Swarm) (t : Session) : Prop where
  swarm_eq : t.swarm = { swarm with level := t.swarm.level, health := t.swarm.health }
  quiet : s.Quiet t

/-- From one session to another: the swarm became the given one, these changes of agents were
announced, and then the agents were summed up anew. -/
structure Renews (s : Session) (swarm : Swarm) (changes : List Change) (t : Session) : Prop where
  summary : Health.ofAgents swarm.config swarm.agents = .ok t.swarm.health
  swarm_eq : t.swarm = { swarm with level := some t.swarm.health.level, health := t.swarm.health }
  announced : t.announced =
    s.announced ++ changes.map Change.notice ++ levelNews swarm.level t.swarm.health

variable {s t u : Session} {swarm : Swarm} {changes : List Change}

namespace Quiet

theorem refl (s : Session) : s.Quiet s :=
  ⟨[], by simp⟩

theorem trans (h : s.Quiet t) (h' : t.Quiet u) : s.Quiet u := by
  obtain ⟨first, hfirst, quiet⟩ := h
  obtain ⟨second, hsecond, quiet'⟩ := h'
  refine ⟨first ++ second, by rw [hsecond, hfirst, List.append_assoc], fun notice hmem => ?_⟩
  rcases List.mem_append.1 hmem with hmem | hmem
  · exact quiet notice hmem
  · exact quiet' notice hmem

end Quiet

namespace Leads

theorem refl (s : Session) : s.Leads s.swarm s :=
  ⟨rfl, .refl s⟩

theorem agents (h : s.Leads swarm t) : t.swarm.agents = swarm.agents := by rw [h.swarm_eq]

theorem claimed (h : s.Leads swarm t) : t.swarm.claimed = swarm.claimed := by rw [h.swarm_eq]

theorem config (h : s.Leads swarm t) : t.swarm.config = swarm.config := by rw [h.swarm_eq]

theorem initialized (h : s.Leads swarm t) : t.swarm.initialized = swarm.initialized := by
  rw [h.swarm_eq]

end Leads

theorem Renews.leads (h : s.Renews swarm changes t) : s.Leads swarm t := by
  refine ⟨?_, changes.map Change.notice ++ levelNews swarm.level t.swarm.health, ?_, ?_⟩
  · have level : t.swarm.level = some t.swarm.health.level := congrArg Swarm.level h.swarm_eq
    rw [level]
    exact h.swarm_eq
  · rw [h.announced, List.append_assoc]
  · intro notice hmem
    rcases List.mem_append.1 hmem with hmem | hmem
    · obtain ⟨change, -, rfl⟩ := List.mem_map.1 hmem
      rfl
    · unfold levelNews at hmem
      split at hmem
      · cases List.mem_singleton.1 hmem
        rfl
      · cases hmem

/-! ## Announcements -/

theorem announceStatus_ok {id : Agent.Id} {old new : Agent.Status} {r : Unit} :
    announceStatus id old new s = .ok r t ↔
      { s with announced := s.announced ++ [.agentStatusChanged id old new] } = t :=
  Step.modify_eq_ok

/-- What was announced last is changes of agents, and then the summary is renewed. -/
theorem refreshHealth_renews
    (h : refreshHealth ⟨swarm, s.announced ++ changes.map Change.notice⟩ = .ok () t) :
    s.Renews swarm changes t := by
  simp only [refreshHealth, modifySwarm, announce, Step.bind_eq_ok, Step.get_eq_ok,
    Step.ofSum_eq_ok, Step.modify_eq_ok] at h
  obtain ⟨_, _, ⟨rfl, rfl⟩, health, _, ⟨summary, rfl⟩, -, _, rfl, h⟩ := h
  split at h
  · next moved =>
    cases Step.modify_eq_ok.1 h
    exact ⟨summary, rfl, by rw [levelNews, if_pos moved]⟩
  · next still =>
    cases (Step.pure_eq_ok.1 h).2
    exact ⟨summary, rfl, by rw [levelNews, if_neg still, List.append_nil]⟩

/-- The summary is renewed unless it overflows. -/
theorem refreshHealth_ends {health : Health}
    (h : Health.ofAgents s.swarm.config s.swarm.agents = .ok health) :
    ∃ t, refreshHealth s = .ok () t := by
  let renewed : Session :=
    { s with swarm := { s.swarm with level := some health.level, health := health } }
  have ends : ∃ t, (if s.swarm.level.any (· != health.level) then
      announce (.swarmHealthChanged health) else pure () : Step Session Unit) renewed =
        .ok () t := by
    split
    · exact ⟨_, rfl⟩
    · exact ⟨_, rfl⟩
  obtain ⟨t, ht⟩ := ends
  exact ⟨t, Step.bind_eq_ok.2 ⟨s, s, rfl, Step.bind_eq_ok.2 ⟨health, s,
    Step.ofSum_eq_ok.2 ⟨h, rfl⟩, Step.bind_eq_ok.2 ⟨(), renewed, rfl, ht⟩⟩⟩⟩

/-- An agent is changed, this is announced, and the summary is renewed. -/
theorem altered_ok {α : Type} {change : Swarm → Swarm} {id : Agent.Id} {old new : Agent.Status}
    {result answer : α}
    (h : (do
      modifySwarm change
      announceStatus id old new
      refreshHealth
      return result : Step Session α) s = .ok answer t) :
    answer = result ∧ s.Renews (change s.swarm) [⟨id, old, new⟩] t := by
  simp only [modifySwarm, Step.bind_eq_ok, Step.modify_eq_ok, announceStatus_ok,
    Step.pure_eq_ok] at h
  obtain ⟨_, _, rfl, _, _, rfl, _, _, refreshed, rfl, rfl⟩ := h
  have renews : s.Renews (change s.swarm) [⟨id, old, new⟩] _ := refreshHealth_renews refreshed
  exact ⟨rfl, renews⟩

/-! ## Beginnings -/

/-- Filling the registry is refused, or brings the agents of the catalog and their summary. -/
theorem populate_fills {definitions : List Agent.Definition} {now : Instant}
    {answer : Except Error Unit} (h : populate definitions now s = .ok answer t) :
    (∃ error, answer = .error error) ∧ t = s ∨
    answer = .ok () ∧ s.swarm.initialized = false ∧
      ∃ once health,
        Health.ofAgents s.swarm.config (enlist (roster definitions) now) = .ok health ∧
        t = { s with swarm :=
          { s.swarm with
            toRegistry := .ofAgents (enlist (roster definitions) now) once
            initialized := true
            level := some health.level
            health := health } } := by
  simp only [populate, Step.bind_eq_ok, Step.get_eq_ok] at h
  obtain ⟨_, _, ⟨rfl, rfl⟩, h⟩ := h
  split at h
  · obtain ⟨rfl, rfl⟩ := Step.pure_eq_ok.1 h
    exact .inl ⟨⟨_, rfl⟩, rfl⟩
  next hinit =>
  cases enrolled : enroll (roster definitions) now with
  | error id =>
    simp only [enrolled] at h
    obtain ⟨rfl, rfl⟩ := Step.pure_eq_ok.1 h
    exact .inl ⟨⟨_, rfl⟩, rfl⟩
  | ok registry =>
    simp only [enrolled, modifySwarm, Step.bind_eq_ok, Step.ofSum_eq_ok, Step.modify_eq_ok,
      Step.pure_eq_ok] at h
    obtain ⟨health, _, ⟨summary, rfl⟩, _, _, rfl, rfl, rfl⟩ := h
    obtain ⟨once, rfl⟩ := enroll_eq_ok enrolled
    exact .inr ⟨rfl, by simpa using hinit, once, health, summary, rfl⟩

theorem populate_ok {definitions : List Agent.Definition} {now : Instant}
    {answer : Except Error Unit} (h : populate definitions now s = .ok answer t) :
    (∃ error, answer = .error error) ∧ t = s ∨
    answer = .ok () ∧ s.swarm.initialized = false ∧
      ∃ once health,
        t = { s with swarm :=
          { s.swarm with
            toRegistry := .ofAgents (enlist (roster definitions) now) once
            initialized := true
            level := some health.level
            health := health } } := by
  obtain refused | ⟨answers, before, once, health, -, filled⟩ := populate_fills h
  · exact .inl refused
  · exact .inr ⟨answers, before, once, health, filled⟩

/-! ## Recovery -/

theorem degraded_of_rested {config : Config} {now : Instant} {agent : Agent}
    (h : rested config now agent = true) : agent.status = .degraded := by
  unfold rested at h
  rw [Bool.and_eq_true, beq_iff_eq] at h
  exact h.1

/-- An agent of a swarm that has recovered was there before, and was degraded if it has changed. -/
theorem mem_recovered {now : Instant} {agent : Agent} (h : agent ∈ (swarm.recovered now).agents) :
    ∃ old ∈ swarm.agents, old.id = agent.id ∧
      (agent.status = old.status ∨ agent.status = .idle ∧ old.status = .degraded) := by
  obtain ⟨old, hold, rfl⟩ := List.mem_map.1 h
  refine ⟨old, hold, ?_⟩
  split
  · next hrested => exact ⟨rfl, .inr ⟨rfl, degraded_of_rested hrested⟩⟩
  · exact ⟨rfl, .inl rfl⟩

theorem recovered_of_none_rested {now : Instant}
    (h : swarm.agents.filter (rested swarm.config now) = []) : swarm.recovered now = swarm := by
  have same : (swarm.agents.map fun agent =>
      if rested swarm.config now agent then forgiven agent else agent) = swarm.agents := by
    refine (List.map_congr_left fun agent hmem => ?_).trans (List.map_id _)
    rw [if_neg (List.filter_eq_nil_iff.1 h agent hmem), id]
  have registry : (swarm.recovered now).toRegistry = swarm.toRegistry := Registry.ext same rfl
  exact congrArg (fun registry => { swarm with toRegistry := registry }) registry

/-- The news of agents that have recovered. -/
theorem announce_all_ok {ids : List Agent.Id} {old new : Agent.Status} {r : PUnit}
    (h : (ids.forM fun id => announceStatus id old new) s = .ok r t) :
    { s with announced :=
        s.announced ++ ids.map fun id => .agentStatusChanged id old new } = t := by
  induction ids generalizing s with
  | nil =>
    cases (Step.pure_eq_ok.1 h).2
    simp
  | cons id rest ih =>
    obtain ⟨_, _, hfirst, hrest⟩ := Step.bind_eq_ok.1 h
    cases announceStatus_ok.1 hfirst
    rw [← ih hrest]
    simp

/-- The agents that recover, with their change. -/
def recoveries (swarm : Swarm) (now : Instant) : List Change :=
  (swarm.agents.filter (rested swarm.config now)).map fun agent => ⟨agent.id, .degraded, .idle⟩

/-- Nobody has rested and nothing is done, or those that have rested are idle again. -/
theorem recover_renews {now : Instant} {ids : List Agent.Id} (h : recover now s = .ok ids t) :
    s.swarm.agents.filter (rested s.swarm.config now) = [] ∧ t = s ∨
      s.Renews (s.swarm.recovered now) (recoveries s.swarm now) t := by
  simp only [recover, modifySwarm, Step.bind_eq_ok, Step.get_eq_ok] at h
  obtain ⟨_, _, ⟨rfl, rfl⟩, h⟩ := h
  split at h
  · next none =>
    cases (Step.pure_eq_ok.1 h).2
    exact .inl ⟨by simpa using none, rfl⟩
  · simp only [Step.bind_eq_ok, Step.modify_eq_ok, Step.pure_eq_ok] at h
    obtain ⟨_, _, rfl, _, _, hnews, _, _, refreshed, rfl, rfl⟩ := h
    cases announce_all_ok hnews
    refine .inr (refreshHealth_renews ?_)
    rw [recoveries, List.map_map]
    rw [List.map_map] at refreshed
    exact refreshed

/-- Nothing is done if nobody has rested. -/
theorem recover_of_none_rested {now : Instant}
    (tired : s.swarm.agents.filter (rested s.swarm.config now) = []) :
    recover now s = .ok [] s := by
  simp only [recover, Step.bind_eq_ok, Step.get_eq_ok]
  refine ⟨s, s, ⟨rfl, rfl⟩, ?_⟩
  rw [tired]
  rfl

theorem recover_ok {now : Instant} {ids : List Agent.Id} (h : recover now s = .ok ids t) :
    s.Leads (s.swarm.recovered now) t := by
  rcases recover_renews h with ⟨none, rfl⟩ | renews
  · rw [recovered_of_none_rested none]
    exact .refl t
  · exact renews.leads

/-! ## Handing out -/

theorem ofFlag_eq_allowDegraded {flag : Bool} :
    Fallback.ofFlag flag = .allowDegraded ↔ flag = true := by
  cases flag <;> simp [Fallback.ofFlag]

/-- Only an eligible agent is chosen. -/
theorem choose_eq_some {capability : String} {selection : Selection}
    (h : Selection.choose capability (swarm.agents.map .ofAgent)
      (.ofFlag swarm.config.fallbackToDegraded) = some selection) :
    ∃ agent ∈ swarm.agents, agent.id = selection.agentId ∧ swarm.Eligible capability agent := by
  have chosen := Selection.choose_chosen capability (swarm.agents.map .ofAgent)
    (.ofFlag swarm.config.fallbackToDegraded)
  rw [h] at chosen
  generalize hflag : Fallback.ofFlag swarm.config.fallbackToDegraded = fallback at chosen
  cases chosen with
  | idle least =>
    obtain ⟨agent, hmem, rfl⟩ := List.mem_map.1 least.mem
    exact ⟨agent, hmem, rfl, least.capable, .inl least.stands⟩
  | degraded _ least =>
    obtain ⟨agent, hmem, rfl⟩ := List.mem_map.1 least.mem
    exact ⟨agent, hmem, rfl, least.capable, .inr ⟨least.stands, ofFlag_eq_allowDegraded.1 hflag⟩⟩

/-- Nobody is chosen only if nobody is eligible. -/
theorem not_eligible_of_choose {capability : String}
    (h : Selection.choose capability (swarm.agents.map .ofAgent)
      (.ofFlag swarm.config.fallbackToDegraded) = none) :
    ∀ agent ∈ swarm.agents, ¬swarm.Eligible capability agent := by
  rintro agent hmem ⟨capable, idle | ⟨degraded, hflag⟩⟩
  · exact ((Selection.none_iff ..).1 h (.ofAgent agent) (List.mem_map_of_mem hmem) capable).1 idle
  · exact ((Selection.none_iff ..).1 h (.ofAgent agent) (List.mem_map_of_mem hmem) capable).2
      (ofFlag_eq_allowDegraded.2 hflag) degraded

theorem agent?_isSome {id : Agent.Id} (h : ∃ agent ∈ swarm.agents, agent.id = id) :
    ∃ agent, swarm.agent? id = some agent := by
  obtain ⟨agent, hmem, hid⟩ := h
  rw [← Option.isSome_iff_exists, agent?_eq_find?, List.find?_isSome]
  exact ⟨agent, hmem, by simp [hid]⟩

theorem agent?_id {id : Agent.Id} {agent : Agent} (h : swarm.agent? id = some agent) :
    agent.id = id :=
  (mem_of_agent? h).2

theorem choice?_eq_none {capability : String} (h : swarm.choice? capability = none) :
    ∀ agent ∈ swarm.agents, ¬swarm.Eligible capability agent := by
  refine not_eligible_of_choose (Option.eq_none_iff_forall_ne_some.2 fun selection hsome => ?_)
  obtain ⟨agent, hmem, hid, -⟩ := choose_eq_some hsome
  obtain ⟨found, hfound⟩ := agent?_isSome ⟨agent, hmem, hid⟩
  rw [choice?, hsome, Option.bind_some, hfound] at h
  cases h

theorem choice?_eq_some {capability : String} {agent : Agent}
    (h : swarm.choice? capability = some agent) :
    ∃ chosen ∈ swarm.agents, chosen.id = agent.id ∧ swarm.Eligible capability chosen := by
  obtain ⟨selection, hsome, hfound⟩ := Option.bind_eq_some_iff.1 h
  obtain ⟨chosen, hmem, hid, heligible⟩ := choose_eq_some hsome
  exact ⟨chosen, hmem, hid.trans (agent?_id hfound).symm, heligible⟩

section Acquire

variable {capability : String} {job : Option Job.Id} {now : Instant}

/-- A call for an agent ends before the agents recover, or finds none to choose then, or claims the
chosen one. -/
theorem acquire_renews {given : Option Agent.Id}
    (h : acquire capability job now s = .ok given t) :
    (given = none ∧ s.swarm.initialized = false ∧ t = s) ∨
    ∃ u ids, s.swarm.initialized = true ∧ recover now s = .ok ids u ∧
      (given = none ∧ u.swarm.choice? capability = none ∧ t = u ∨
      ∃ agent, given = some agent.id ∧ u.swarm.choice? capability = some agent ∧
        u.Renews (u.swarm.claim agent.id job) [⟨agent.id, agent.status, .busy⟩] t) := by
  simp only [acquire, Step.bind_eq_ok, Step.get_eq_ok] at h
  obtain ⟨_, _, ⟨rfl, rfl⟩, h⟩ := h
  split at h
  · next hinit =>
    obtain ⟨rfl, rfl⟩ := Step.pure_eq_ok.1 h
    exact .inl ⟨rfl, by simpa using hinit, rfl⟩
  · next hinit =>
    simp only [Step.bind_eq_ok, Step.discard_eq_ok, Step.get_eq_ok] at h
    obtain ⟨_, u, ⟨ids, hrecover⟩, _, _, ⟨rfl, rfl⟩, h⟩ := h
    refine .inr ⟨u, ids, by simpa using hinit, hrecover, ?_⟩
    cases hchoice : u.swarm.choice? capability with
    | none =>
      rw [hchoice] at h
      obtain ⟨rfl, rfl⟩ := Step.pure_eq_ok.1 h
      exact .inl ⟨rfl, rfl, rfl⟩
    | some agent =>
      rw [hchoice] at h
      obtain ⟨rfl, renews⟩ := altered_ok h
      exact .inr ⟨agent, rfl, rfl, renews⟩

/-- A call for an agent ends before the choice, without one to choose, or with the chosen one. -/
theorem acquire_ok {given : Option Agent.Id} (h : acquire capability job now s = .ok given t) :
    (given = none ∧ s.swarm.initialized = false ∧ t = s) ∨
    (given = none ∧ s.swarm.initialized = true ∧ s.Leads (s.swarm.recovered now) t ∧
      t.swarm.choice? capability = none) ∨
    ∃ agent u, given = some agent.id ∧ s.swarm.initialized = true ∧
      s.Leads (s.swarm.recovered now) u ∧ u.swarm.choice? capability = some agent ∧
      u.Leads (u.swarm.claim agent.id job) t := by
  obtain before | ⟨u, ids, hinit, hrecover, ⟨rfl, hchoice, rfl⟩ | ⟨agent, rfl, hchoice, renews⟩⟩ :=
    acquire_renews h
  · exact .inl before
  · exact .inr (.inl ⟨rfl, hinit, recover_ok hrecover, hchoice⟩)
  · exact .inr (.inr ⟨agent, u, rfl, hinit, recover_ok hrecover, hchoice, renews.leads⟩)

/-- A chosen agent is given out unless the new summary overflows. -/
theorem acquire_ends {agent : Agent} {health : Health} (initialized : s.swarm.initialized = true)
    (tired : s.swarm.agents.filter (rested s.swarm.config now) = [])
    (choice : s.swarm.choice? capability = some agent)
    (fits : Health.ofAgents s.swarm.config (s.swarm.claim agent.id job).agents = .ok health) :
    ∃ t, acquire capability job now s = .ok (some agent.id) t ∧
      s.Leads (s.swarm.claim agent.id job) t := by
  have recovers := recover_of_none_rested tired
  let told : Session := {
    swarm := s.swarm.claim agent.id job
    announced := s.announced ++ [.agentStatusChanged agent.id agent.status .busy] }
  obtain ⟨t, refreshes⟩ := refreshHealth_ends (s := told) fits
  have renews : s.Renews (s.swarm.claim agent.id job) [⟨agent.id, agent.status, .busy⟩] t :=
    refreshHealth_renews refreshes
  refine ⟨t, ?_, renews.leads⟩
  simp only [acquire, modifySwarm, Step.bind_eq_ok, Step.get_eq_ok]
  refine ⟨s, s, ⟨rfl, rfl⟩, ?_⟩
  rw [initialized, if_neg (by decide)]
  simp only [Step.bind_eq_ok, Step.discard_eq_ok, Step.get_eq_ok]
  refine ⟨(), s, ⟨[], recovers⟩, s, s, ⟨rfl, rfl⟩, ?_⟩
  simp only [choice, Step.bind_eq_ok, Step.modify_eq_ok, announceStatus_ok, Step.pure_eq_ok]
  exact ⟨(), _, rfl, (), told, rfl, (), t, refreshes, trivial, rfl⟩

theorem acquire_quiet {given : Option Agent.Id} (h : acquire capability job now s = .ok given t) :
    s.Quiet t := by
  obtain ⟨-, -, rfl⟩ | ⟨-, -, leads, -⟩ | ⟨_, _, -, -, leads, -, claimed⟩ := acquire_ok h
  · exact .refl _
  · exact leads.quiet
  · exact leads.quiet.trans claimed.quiet

theorem acquire_initialized {given : Option Agent.Id}
    (h : acquire capability job now s = .ok given t) :
    t.swarm.initialized = s.swarm.initialized := by
  obtain ⟨-, -, rfl⟩ | ⟨-, -, leads, -⟩ | ⟨_, _, -, -, leads, -, claimed⟩ := acquire_ok h
  · rfl
  · exact leads.initialized
  · exact claimed.initialized.trans leads.initialized

end Acquire

/-! ## Taking back -/

theorem countTask_ok {get : Agent.Metrics → UInt64} {put : Agent.Metrics → UInt64 → Agent.Metrics}
    {agent counted : Agent} {r : Unit} (h : countTask get put agent = .ok r counted) :
    ∃ count, addWord (get agent.metrics) 1 = .ok count ∧
      { agent with metrics := put agent.metrics count } = counted := by
  simp only [countTask, Step.bind_eq_ok, Step.get_eq_ok, Step.ofSum_eq_ok, Step.modify_eq_ok] at h
  obtain ⟨_, _, ⟨rfl, rfl⟩, count, _, ⟨hcount, rfl⟩, rfl⟩ := h
  exact ⟨count, hcount, rfl⟩

theorem countDuration_ok {duration : UInt64} {agent counted : Agent} {r : Unit}
    (h : countDuration duration agent = .ok r counted) :
    ∃ total, addWord agent.metrics.totalDurationMs duration = .ok total ∧
      { agent with metrics := { agent.metrics with totalDurationMs := total } } = counted := by
  simp only [countDuration, Step.bind_eq_ok, Step.get_eq_ok, Step.ofSum_eq_ok,
    Step.modify_eq_ok] at h
  obtain ⟨_, _, ⟨rfl, rfl⟩, total, _, ⟨htotal, rfl⟩, rfl⟩ := h
  exact ⟨total, htotal, rfl⟩

/-- Counting an outcome changes the counts and the row of failures. -/
theorem tally_ok {outcome : Task.Outcome} {agent counted : Agent} {r : Unit}
    (h : tally outcome agent = .ok r counted) :
    counted =
      { agent with metrics := counted.metrics, failureStreak := counted.failureStreak } := by
  cases outcome with
  | succeeded duration =>
    simp only [tally, Step.bind_eq_ok, Step.modify_eq_ok] at h
    obtain ⟨_, _, htask, _, _, hduration, rfl⟩ := h
    obtain ⟨_, -, rfl⟩ := countTask_ok htask
    obtain ⟨_, -, rfl⟩ := countDuration_ok hduration
    rfl
  | failed duration =>
    simp only [tally, Step.bind_eq_ok, Step.get_eq_ok, Step.ofSum_eq_ok, Step.modify_eq_ok] at h
    obtain ⟨_, _, htask, _, _, hduration, _, _, ⟨rfl, rfl⟩, _, _, ⟨-, rfl⟩, rfl⟩ := h
    obtain ⟨_, -, rfl⟩ := countTask_ok htask
    obtain ⟨_, -, rfl⟩ := countDuration_ok hduration
    rfl
  | cancelled =>
    simp only [tally] at h
    obtain ⟨_, -, rfl⟩ := countTask_ok h
    rfl

theorem discharged_id (agent : Agent) (outcome : Task.Outcome) (threshold : UInt32)
    (now : Instant) : (discharged agent outcome threshold now).id = agent.id := by
  simp only [discharged]
  split
  · split <;> rfl
  · rfl

theorem discharged_capability (agent : Agent) (outcome : Task.Outcome) (threshold : UInt32)
    (now : Instant) :
    (discharged agent outcome threshold now).capability = agent.capability := by
  simp only [discharged]
  split
  · split <;> rfl
  · rfl

theorem discharged_metrics (agent : Agent) (outcome : Task.Outcome) (threshold : UInt32)
    (now : Instant) : (discharged agent outcome threshold now).metrics = agent.metrics := by
  simp only [discharged]
  split
  · split <;> rfl
  · rfl

/-- A swarm whose agent was taken back. -/
def returned (swarm : Swarm) (agent : Agent) : Swarm :=
  { swarm.modifyAgent agent.id fun _ => agent with claimed := swarm.claimed.erase agent.id }

theorem agents_returned (swarm : Swarm) (agent : Agent) :
    (returned swarm agent).agents = swarm.agents.map fun old =>
      if old.id = agent.id then agent else old :=
  agents_modifyAgent _ fun _ _ => rfl

theorem modifyAgent_twice (swarm : Swarm) (id : Agent.Id) (first second : Agent) :
    (swarm.modifyAgent id fun _ => first).modifyAgent id (fun _ => second) =
      swarm.modifyAgent id fun _ => second := by
  rw [modifyAgent, modifyAgent, modifyAgent, Registry.modify_twice]

/-- The change between two statuses, if they differ. -/
def shift (id : Agent.Id) (old new : Agent.Status) : List Change :=
  if old = new then [] else [⟨id, old, new⟩]

/-- An agent that nobody has claimed is not taken back, and an unknown one neither. -/
theorem release_of_unclaimed {id : Agent.Id} (outcome : Task.Outcome) (now : Instant)
    (h : s.swarm.agent? id = none ∨ id ∉ s.swarm.claimed) :
    ∃ error, release id outcome now s = .ok (.error error) s := by
  rw [release, Step.get_bind]
  cases found : s.swarm.agent? id with
  | none => exact ⟨_, rfl⟩
  | some agent =>
    have unclaimed : id ∉ s.swarm.claimed := h.resolve_left (by rw [found]; exact nofun)
    dsimp only
    rw [if_pos (by simpa using unclaimed)]
    exact ⟨_, rfl⟩

/-- The outcome of a claimed agent is counted, and then the agent is discharged. The claim is gone
before. -/
theorem release_of_claimed {id : Agent.Id} {outcome : Task.Outcome} {now : Instant} {agent : Agent}
    (found : s.swarm.agent? id = some agent) (claimed : id ∈ s.swarm.claimed) :
    release id outcome now s =
      match tally outcome agent with
      | .error overflow counted => .error overflow { s with swarm :=
          { s.swarm with claimed := s.swarm.claimed.erase id }.modifyAgent id fun _ => counted }
      | .ok _ counted =>
        let after := discharged counted outcome s.swarm.config.failureThreshold now
        (do refreshHealth; return .ok after.status : Step Session (Except Error Agent.Status)) {
          swarm := returned s.swarm after
          announced := s.announced ++ (shift id agent.status after.status).map Change.notice } := by
  have same : { s.swarm with claimed := s.swarm.claimed.erase id }.agent? id = some agent := found
  simp only [release, Step.get_bind, found]
  rw [if_neg (by simpa using claimed)]
  simp only [modifySwarm, Step.modify_bind]
  cases counts : tally outcome agent with
  | error overflow counted =>
    refine Step.bind_of_error (Step.onPart_eq_error.2 ⟨counted, ?_, rfl⟩)
    rw [same]
    exact counts
  | ok r counted =>
    have hid : counted.id = id := by rw [tally_ok counts, agent?_id found]
    have recounted : ({ s.swarm with claimed := s.swarm.claimed.erase id }.modifyAgent id
        fun _ => counted).agent? id = some counted := by
      rw [agent?_modify_self _ _ _ fun _ _ => hid, same, Option.map_some]
    refine (Step.bind_of_ok (a := ()) (Step.onPart_eq_ok.2 ⟨counted, ?_, rfl⟩)).trans ?_
    · rw [same]
      exact counts
    set after := discharged counted outcome s.swarm.config.failureThreshold now with hafter
    have shape : { s.swarm with claimed := s.swarm.claimed.erase id }.modifyAgent id
        (fun _ => after) = returned s.swarm after := by
      rw [returned, hafter, discharged_id, hid]
      rfl
    simp only [Step.get_bind, Step.modify_bind, recounted, Option.getD_some,
      modifyAgent_twice, shape, ← hafter]
    rw [shift]
    by_cases still : agent.status = after.status
    · rw [if_neg (by simpa using still), if_pos still, List.map_nil, List.append_nil]
    · rw [if_pos (by simpa using still), if_neg still]
      exact Step.modify_bind

/-- Giving back an agent ends with a refusal that changes nothing, or with the agent discharged. -/
theorem release_renews {id : Agent.Id} {outcome : Task.Outcome} {now : Instant}
    {answer : Except Error Agent.Status} (h : release id outcome now s = .ok answer t) :
    (∃ error, answer = .error error) ∧ (s.swarm.agent? id = none ∨ id ∉ s.swarm.claimed) ∧ t = s ∨
    ∃ agent counted, s.swarm.agent? id = some agent ∧ id ∈ s.swarm.claimed ∧
      tally outcome agent = .ok () counted ∧
      answer = .ok (discharged counted outcome s.swarm.config.failureThreshold now).status ∧
      s.Renews (returned s.swarm (discharged counted outcome s.swarm.config.failureThreshold now))
        (shift id agent.status
          (discharged counted outcome s.swarm.config.failureThreshold now).status) t := by
  by_cases absent : s.swarm.agent? id = none ∨ id ∉ s.swarm.claimed
  · obtain ⟨error, refused⟩ := release_of_unclaimed outcome now absent
    cases refused.symm.trans h
    exact .inl ⟨⟨error, rfl⟩, absent, rfl⟩
  rw [not_or, not_not, ← ne_eq, Option.ne_none_iff_exists'] at absent
  obtain ⟨⟨agent, found⟩, claimed⟩ := absent
  rw [release_of_claimed found claimed] at h
  cases counts : tally outcome agent with
  | error overflow counted =>
    rw [counts] at h
    cases h
  | ok r counted =>
    rw [counts] at h
    obtain ⟨_, u, refreshed, h⟩ := Step.bind_eq_ok.1 h
    obtain ⟨rfl, rfl⟩ := Step.pure_eq_ok.1 h
    exact .inr ⟨agent, counted, found, claimed, counts, rfl, refreshHealth_renews refreshed⟩

theorem release_ok {id : Agent.Id} {outcome : Task.Outcome} {now : Instant}
    {answer : Except Error Agent.Status} (h : release id outcome now s = .ok answer t) :
    (∃ error, answer = .error error) ∧ (s.swarm.agent? id = none ∨ id ∉ s.swarm.claimed) ∧ t = s ∨
    ∃ agent counted, s.swarm.agent? id = some agent ∧ id ∈ s.swarm.claimed ∧
      tally outcome agent = .ok () counted ∧
      answer = .ok (discharged counted outcome s.swarm.config.failureThreshold now).status ∧
      s.Leads (returned s.swarm
        (discharged counted outcome s.swarm.config.failureThreshold now)) t := by
  obtain refused | ⟨agent, counted, found, claimed, counts, answers, renews⟩ := release_renews h
  · exact .inl refused
  · exact .inr ⟨agent, counted, found, claimed, counts, answers, renews.leads⟩

theorem release_quiet {id : Agent.Id} {outcome : Task.Outcome} {now : Instant}
    {answer : Except Error Agent.Status} (h : release id outcome now s = .ok answer t) :
    s.Quiet t := by
  obtain ⟨-, -, rfl⟩ | ⟨_, _, -, -, -, -, leads⟩ := release_ok h
  · exact .refl _
  · exact leads.quiet

theorem release_initialized {id : Agent.Id} {outcome : Task.Outcome} {now : Instant}
    {answer : Except Error Agent.Status} (h : release id outcome now s = .ok answer t) :
    t.swarm.initialized = s.swarm.initialized := by
  obtain ⟨-, -, rfl⟩ | ⟨_, _, -, -, -, -, leads⟩ := release_ok h
  · rfl
  · exact leads.initialized

/-! ## Administration -/

/-- Taking an agent out of rotation is refused, or changes its status alone. -/
theorem markOffline_renews {id : Agent.Id} {answer : Except Error Unit}
    (h : markOffline id s = .ok answer t) :
    (∃ error, answer = .error error) ∧ t = s ∨
    answer = .ok () ∧ ∃ agent, s.swarm.agent? id = some agent ∧ agent.status ≠ .offline ∧
      s.Renews (s.swarm.modifyAgent id fun agent => { agent with status := .offline })
        [⟨id, agent.status, .offline⟩] t := by
  simp only [markOffline, Step.bind_eq_ok, Step.get_eq_ok] at h
  obtain ⟨_, _, ⟨rfl, rfl⟩, h⟩ := h
  cases hagent : s.swarm.agent? id with
  | none =>
    rw [hagent] at h
    obtain ⟨rfl, rfl⟩ := Step.pure_eq_ok.1 h
    exact .inl ⟨⟨_, rfl⟩, rfl⟩
  | some agent =>
    simp only [hagent] at h
    split at h
    · obtain ⟨rfl, rfl⟩ := Step.pure_eq_ok.1 h
      exact .inl ⟨⟨_, rfl⟩, rfl⟩
    · next online =>
      obtain ⟨rfl, renews⟩ := altered_ok h
      exact .inr ⟨rfl, agent, rfl, online, renews⟩

theorem markOffline_ok {id : Agent.Id} {answer : Except Error Unit}
    (h : markOffline id s = .ok answer t) :
    (∃ error, answer = .error error) ∧ t = s ∨
    answer = .ok () ∧
      s.Leads (s.swarm.modifyAgent id fun agent => { agent with status := .offline }) t := by
  obtain refused | ⟨answers, agent, -, -, renews⟩ := markOffline_renews h
  · exact .inl refused
  · exact .inr ⟨answers, renews.leads⟩

/-- An agent that came back online, busy if it is claimed still. -/
def backOnline (claimed : Bool) (now : Instant) (agent : Agent) : Agent :=
  { forgiven agent with
    status := if claimed then .busy else .idle
    metrics := { agent.metrics with onlineSince := now } }

/-- Bringing an agent back is refused, or was asked for an offline one. -/
theorem markOnline_renews {id : Agent.Id} {now : Instant} {answer : Except Error Unit}
    (h : markOnline id now s = .ok answer t) :
    (∃ error, answer = .error error) ∧ t = s ∧
      (∀ agent, s.swarm.agent? id = some agent → agent.status ≠ .offline) ∨
    answer = .ok () ∧ ∃ agent, s.swarm.agent? id = some agent ∧ agent.status = .offline ∧
      s.Renews (s.swarm.modifyAgent id (backOnline (s.swarm.claimed.contains id) now))
        [⟨id, .offline, if s.swarm.claimed.contains id then .busy else .idle⟩] t := by
  simp only [markOnline, Step.bind_eq_ok, Step.get_eq_ok] at h
  obtain ⟨_, _, ⟨rfl, rfl⟩, h⟩ := h
  cases hagent : s.swarm.agent? id with
  | none =>
    rw [hagent] at h
    obtain ⟨rfl, rfl⟩ := Step.pure_eq_ok.1 h
    refine .inl ⟨⟨_, rfl⟩, rfl, fun _ heq => ?_⟩
    cases heq
  | some agent =>
    simp only [hagent] at h
    split at h
    · next hoffline =>
      obtain ⟨rfl, rfl⟩ := Step.pure_eq_ok.1 h
      refine .inl ⟨⟨_, rfl⟩, rfl, fun found heq => ?_⟩
      cases heq
      exact hoffline
    · next hoffline =>
      obtain ⟨rfl, renews⟩ := altered_ok h
      exact .inr ⟨rfl, agent, rfl, not_not.1 hoffline, renews⟩

theorem markOnline_ok {id : Agent.Id} {now : Instant} {answer : Except Error Unit}
    (h : markOnline id now s = .ok answer t) :
    (∃ error, answer = .error error) ∧ t = s ∧
      (∀ agent, s.swarm.agent? id = some agent → agent.status ≠ .offline) ∨
    answer = .ok () ∧ (∃ agent, s.swarm.agent? id = some agent ∧ agent.status = .offline) ∧
      s.Leads (s.swarm.modifyAgent id (backOnline (s.swarm.claimed.contains id) now)) t := by
  obtain refused | ⟨answers, agent, found, offline, renews⟩ := markOnline_renews h
  · exact .inl refused
  · exact .inr ⟨answers, ⟨agent, found, offline⟩, renews.leads⟩

/-- Resetting an agent is refused, or was asked for a degraded one. -/
theorem reset_renews {id : Agent.Id} {answer : Except Error Unit} (h : reset id s = .ok answer t) :
    (∃ error, answer = .error error) ∧ t = s ∨
    answer = .ok () ∧ ∃ agent, s.swarm.agent? id = some agent ∧ agent.status = .degraded ∧
      s.Renews (s.swarm.modifyAgent id forgiven) [⟨id, .degraded, .idle⟩] t := by
  simp only [reset, Step.bind_eq_ok, Step.get_eq_ok] at h
  obtain ⟨_, _, ⟨rfl, rfl⟩, h⟩ := h
  cases hagent : s.swarm.agent? id with
  | none =>
    rw [hagent] at h
    obtain ⟨rfl, rfl⟩ := Step.pure_eq_ok.1 h
    exact .inl ⟨⟨_, rfl⟩, rfl⟩
  | some agent =>
    simp only [hagent] at h
    split at h
    · obtain ⟨rfl, rfl⟩ := Step.pure_eq_ok.1 h
      exact .inl ⟨⟨_, rfl⟩, rfl⟩
    · next hdegraded =>
      obtain ⟨rfl, renews⟩ := altered_ok h
      exact .inr ⟨rfl, agent, rfl, not_not.1 hdegraded, renews⟩

theorem reset_ok {id : Agent.Id} {answer : Except Error Unit} (h : reset id s = .ok answer t) :
    (∃ error, answer = .error error) ∧ t = s ∨
    answer = .ok () ∧ (∃ agent, s.swarm.agent? id = some agent ∧ agent.status = .degraded) ∧
      s.Leads (s.swarm.modifyAgent id forgiven) t := by
  obtain refused | ⟨answers, agent, found, degraded, renews⟩ := reset_renews h
  · exact .inl refused
  · exact .inr ⟨answers, ⟨agent, found, degraded⟩, renews.leads⟩

end Session

end JobSwarm.Swarm
