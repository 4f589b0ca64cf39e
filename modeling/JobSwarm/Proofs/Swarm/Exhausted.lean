import JobSwarm.Proofs.Swarm.Registry

/-!
# Capabilities out of agents

A capability is out of agents at an instant when none of its agents may be handed out then, not even
after those that have rested recover. It stays so, at that instant, whatever is acquired, and
whatever is given back of other capabilities.

Results:

* `Exhausted.not_eligible`: nobody is eligible for a capability that is out of agents.
* `acquire_exhausted`: a call for an agent finds none only if the capability is out of agents.
* `Exhausted.acquire`, `Exhausted.release`: it stays so.
* `acquire_capability`: whoever is given out has the capability that was called for.
-/

namespace JobSwarm.Swarm

open Time (Instant)

/-- None of the agents of a capability may be handed out, nor would recover now. -/
def Exhausted (swarm : Swarm) (now : Instant) (capability : String) : Prop :=
  ∀ agent ∈ swarm.agents, agent.capability = capability →
    agent.status ≠ .idle ∧ rested swarm.config now agent = false ∧
      (swarm.config.fallbackToDegraded = true → agent.status ≠ .degraded)

variable {swarm changed : Swarm} {now : Instant} {capability : String} {s t : Session}

/-- An agent that has recovered has not rested: it is idle. -/
theorem not_rested_of_recovered {agent : Agent} (h : agent ∈ (swarm.recovered now).agents) :
    rested swarm.config now agent = false := by
  obtain ⟨old, -, rfl⟩ := List.mem_map.1 h
  split
  · rfl
  · next tired => exact eq_false_of_ne_true tired

namespace Exhausted

theorem not_eligible (h : swarm.Exhausted now capability) :
    ∀ agent ∈ swarm.agents, ¬swarm.Eligible capability agent := by
  rintro agent hmem ⟨hcap, idle | ⟨degraded, fallback⟩⟩
  · exact (h agent hmem hcap).1 idle
  · exact (h agent hmem hcap).2.2 fallback degraded

/-- Agents that are new or have changed do not matter if they are of other capabilities or busy. -/
theorem of_agents (h : swarm.Exhausted now capability) (config : changed.config = swarm.config)
    (agents : ∀ agent ∈ changed.agents,
      agent ∈ swarm.agents ∨ agent.capability ≠ capability ∨ agent.status = .busy) :
    changed.Exhausted now capability := by
  intro agent hmem hcap
  rw [config]
  rcases agents agent hmem with same | other | busy
  · exact h agent same hcap
  · exact absurd hcap other
  · refine ⟨?_, ?_, fun _ => ?_⟩
    · rw [busy]
      decide
    · rw [rested, busy]
      rfl
    · rw [busy]
      decide

theorem leads (h : swarm.Exhausted now capability) (leads : s.Leads swarm t) :
    t.swarm.Exhausted now capability := by
  refine h.of_agents leads.config fun agent hmem => .inl ?_
  rw [leads.agents] at hmem
  exact hmem

theorem recovered (h : swarm.Exhausted now capability) :
    (swarm.recovered now).Exhausted now capability := by
  refine h.of_agents rfl fun agent hmem => ?_
  obtain ⟨old, hold, rfl⟩ := List.mem_map.1 hmem
  split
  · next hrested =>
    refine .inr (.inl fun hcap => ?_)
    have tired := (h old hold hcap).2.1
    rw [hrested] at tired
    cases tired
  · exact .inl hold

theorem claim (h : swarm.Exhausted now capability) (id : Agent.Id) (job : Option Job.Id) :
    (swarm.claim id job).Exhausted now capability := by
  refine h.of_agents rfl fun agent hmem => ?_
  rw [agents_claim] at hmem
  obtain ⟨old, hold, rfl⟩ := List.mem_map.1 hmem
  split
  · exact .inr (.inr rfl)
  · exact .inl hold

theorem acquire {other : String} {job : Option Job.Id} {given : Option Agent.Id}
    (h : s.swarm.Exhausted now capability)
    (call : Session.acquire other job now s = .ok given t) :
    t.swarm.Exhausted now capability := by
  obtain ⟨-, -, rfl⟩ | ⟨-, -, leads, -⟩ | ⟨agent, u, -, -, leads, -, claimed⟩ :=
    Session.acquire_ok call
  · exact h
  · exact h.recovered.leads leads
  · exact ((h.recovered.leads leads).claim agent.id job).leads claimed

/-- An agent of another capability is given back. -/
theorem release {id : Agent.Id} {outcome : Task.Outcome} {clock : Instant}
    {answer : Except Error Agent.Status} (h : s.swarm.Exhausted now capability)
    (other : ∀ agent, s.swarm.agent? id = some agent → agent.capability ≠ capability)
    (call : Session.release id outcome clock s = .ok answer t) :
    t.swarm.Exhausted now capability := by
  obtain ⟨-, -, rfl⟩ | ⟨agent, counted, found, -, tally, -, leads⟩ := Session.release_ok call
  · exact h
  refine Exhausted.leads ?_ leads
  refine h.of_agents rfl fun after hmem => ?_
  rw [Session.agents_returned] at hmem
  obtain ⟨old, hold, rfl⟩ := List.mem_map.1 hmem
  split
  · refine .inr (.inl ?_)
    rw [Session.discharged_capability, Session.tally_ok tally]
    exact other agent found
  · exact .inl hold

end Exhausted

/-- A call for an agent finds none only if the capability is out of agents. -/
theorem acquire_exhausted {job : Option Job.Id} (registered : s.swarm.Registered)
    (call : Session.acquire capability job now s = .ok none t) :
    t.swarm.Exhausted now capability := by
  obtain ⟨-, before, rfl⟩ | ⟨-, -, leads, choice⟩ | ⟨_, _, given, -⟩ := Session.acquire_ok call
  · intro agent hmem
    rw [registered.empty_before before] at hmem
    cases hmem
  · intro agent hmem hcap
    have none := Session.choice?_eq_none choice agent hmem
    rw [leads.agents] at hmem
    refine ⟨fun idle => none ⟨hcap, .inl idle⟩, ?_, fun fallback degraded =>
      none ⟨hcap, .inr ⟨degraded, fallback⟩⟩⟩
    have tired : rested s.swarm.config now agent = false := not_rested_of_recovered hmem
    rw [leads.config]
    exact tired
  · cases given

/-- Whoever is given out has the capability that was called for. -/
theorem acquire_capability {job : Option Job.Id} {id : Agent.Id}
    (call : Session.acquire capability job now s = .ok (some id) t) {agent : Agent}
    (found : t.swarm.agent? id = some agent) : agent.capability = capability := by
  obtain ⟨none, -⟩ | ⟨none, -⟩ | ⟨chosen, u, given, -, leads, choice, claimed⟩ :=
    Session.acquire_ok call
  · cases none
  · cases none
  cases given
  obtain ⟨eligible, hmem, hid, hcap, -⟩ := Session.choice?_eq_some choice
  obtain ⟨hagent, hid'⟩ := mem_of_agent? found
  rw [claimed.agents, agents_claim] at hagent
  obtain ⟨old, hold, rfl⟩ := List.mem_map.1 hagent
  split at hid'
  · next h =>
    rw [if_pos h]
    have same := Keyed.eq_of_key_eq u.swarm.ids_once hold hmem (h.trans hid.symm)
    rw [← hcap, ← same]
  · next h => exact absurd hid' h

end JobSwarm.Swarm
