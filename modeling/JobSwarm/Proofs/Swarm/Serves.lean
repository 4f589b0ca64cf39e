import JobSwarm.Proofs.Swarm.Calls

/-!
# Whom the agents serve

What jobs hold of a swarm is a list of pairs: an agent, and the job that holds it. A swarm serves
such a list when each agent is held once, is claimed for that reason alone, and names the job as its
task.

Results:

* `Serves.acquire`, `Serves.releases`, `Serves.release`: one more pair, and one less. An agent that
  is held can be given back.
* `Serves.recover`, `markOffline`, `markOnline`, `reset`: whatever else is done to agents, the same
  jobs hold the same agents.
* `populate_atRest`, `AtRest.serves`: at first no agent is held.
-/

namespace JobSwarm.Swarm

open Time (Instant)

/-- An agent that is held, and the job that holds it if it is held for a job. -/
abbrev Holding := Agent.Id × Option Job.Id

/-- How an agent stands to what is held: it names the job that holds it, and is busy or offline then
and never busy else. -/
structure Stands (held : List Holding) (agent : Agent) : Prop where
  task_iff : ∀ job, agent.currentTask = some job ↔ (agent.id, some job) ∈ held
  of_held : agent.id ∈ held.map (·.1) → agent.status = .busy ∨ agent.status = .offline
  of_busy : agent.status = .busy → agent.id ∈ held.map (·.1)

/-- A swarm whose agents are held as the list says. -/
structure Serves (swarm : Swarm) (held : List Holding) : Prop where
  claimed_once : swarm.claimed.Nodup
  held_once : (held.map (·.1)).Nodup
  claimed_iff : ∀ id, id ∈ swarm.claimed ↔ id ∈ held.map (·.1)
  known : ∀ id ∈ held.map (·.1), id ∈ swarm.agents.map (·.id)
  stands : ∀ agent ∈ swarm.agents, Stands held agent

variable {swarm : Swarm} {held held' : List Holding} {agent : Agent} {id : Agent.Id}
  {job : Option Job.Id}

/-! ## Agents -/

namespace Stands

/-- What others hold is nothing to an agent. -/
theorem cons_iff (h : agent.id ≠ id) : Stands ((id, job) :: held) agent ↔ Stands held agent := by
  have mem_iff (other : Job.Id) :
      (agent.id, some other) ∈ (id, job) :: held ↔ (agent.id, some other) ∈ held := by
    simp [h]
  have key_iff : agent.id ∈ ((id, job) :: held).map (·.1) ↔ agent.id ∈ held.map (·.1) := by
    simp [h]
  constructor
  · intro stands
    exact ⟨fun other => (stands.task_iff other).trans (mem_iff other),
      fun hmem => stands.of_held (key_iff.2 hmem), fun busy => key_iff.1 (stands.of_busy busy)⟩
  · intro stands
    exact ⟨fun other => (stands.task_iff other).trans (mem_iff other).symm,
      fun hmem => stands.of_held (key_iff.1 hmem), fun busy => key_iff.2 (stands.of_busy busy)⟩

/-- An agent that nobody holds is idle, degraded or offline, and has no task. -/
theorem of_free (free : agent.id ∉ held.map (·.1)) (task : agent.currentTask = none)
    (status : agent.status ≠ .busy) : Stands held agent where
  task_iff job := by
    rw [task]
    exact ⟨nofun, fun hmem => absurd (List.mem_map_of_mem hmem) free⟩
  of_held hmem := absurd hmem free
  of_busy busy := absurd busy status

/-- Another status will do if it is busy or offline for an agent that is held, and not busy for one
that is not. -/
theorem of_status {changed : Agent} (stands : Stands held agent) (same : changed.id = agent.id)
    (task : changed.currentTask = agent.currentTask)
    (of_held : agent.id ∈ held.map (·.1) → changed.status = .busy ∨ changed.status = .offline)
    (of_free : agent.id ∉ held.map (·.1) → changed.status ≠ .busy) : Stands held changed where
  task_iff job := by rw [task, same, stands.task_iff]
  of_held hmem := of_held (same ▸ hmem)
  of_busy busy := by
    rw [same]
    exact not_not.1 fun free => of_free free busy

end Stands

/-! ## Swarms -/

/-- A call leads from a swarm that serves to one that serves. -/
theorem Session.Leads.serves {s t : Session} (h : s.Leads swarm t) (serves : swarm.Serves held) :
    t.swarm.Serves held where
  claimed_once := by rw [h.claimed]; exact serves.claimed_once
  held_once := serves.held_once
  claimed_iff id := by rw [h.claimed]; exact serves.claimed_iff id
  known id hmem := by rw [h.agents]; exact serves.known id hmem
  stands agent hmem := by rw [h.agents] at hmem; exact serves.stands agent hmem

namespace Serves

theorem perm (serves : swarm.Serves held) (h : held.Perm held') : swarm.Serves held' where
  claimed_once := serves.claimed_once
  held_once := (h.map _).nodup_iff.1 serves.held_once
  claimed_iff id := (serves.claimed_iff id).trans (h.map _).mem_iff
  known id hmem := serves.known id ((h.map _).mem_iff.2 hmem)
  stands agent hmem :=
    have stands := serves.stands agent hmem
    ⟨fun job => (stands.task_iff job).trans h.mem_iff,
      fun hkey => stands.of_held ((h.map _).mem_iff.2 hkey),
      fun busy => (h.map _).mem_iff.1 (stands.of_busy busy)⟩

/-- A change of agents after which each still stands to what is held as it should. -/
theorem map (serves : swarm.Serves held) (change : Agent → Agent)
    (keeps : ∀ agent, (change agent).id = agent.id)
    (stands : ∀ agent ∈ swarm.agents, Stands held agent → Stands held (change agent))
    {changed : Swarm} (claimed : changed.claimed = swarm.claimed)
    (agents : changed.agents = swarm.agents.map change) : changed.Serves held := by
  have ids : changed.agents.map (·.id) = swarm.agents.map (·.id) := by
    rw [agents, List.map_map]
    exact List.map_congr_left fun agent _ => keeps agent
  exact {
    claimed_once := by rw [claimed]; exact serves.claimed_once
    held_once := serves.held_once
    claimed_iff := fun id => by rw [claimed]; exact serves.claimed_iff id
    known := fun id hmem => by rw [ids]; exact serves.known id hmem
    stands := fun agent hmem => by
      rw [agents] at hmem
      obtain ⟨old, hold, rfl⟩ := List.mem_map.1 hmem
      exact stands old hold (serves.stands old hold) }

theorem modifyAgent (serves : swarm.Serves held) (change : Agent → Agent)
    (keeps : ∀ agent, (change agent).id = agent.id)
    (stands : ∀ agent ∈ swarm.agents, agent.id = id → Stands held agent →
      Stands held (change agent)) :
    (swarm.modifyAgent id change).Serves held := by
  refine serves.map _ (fun agent => ?_) (fun agent hmem hstands => ?_) rfl
    (agents_modifyAgent _ fun agent own => (keeps agent).trans own)
  · split
    · exact keeps agent
    · rfl
  · split
    · next h => exact stands agent hmem h hstands
    · exact hstands

/-! ## Calls -/

section Calls

variable {s t : Session} {now : Instant}

theorem recovered (serves : swarm.Serves held) : (swarm.recovered now).Serves held := by
  refine serves.map _ (fun agent => ?_) (fun agent hmem stands => ?_) rfl rfl
  · split <;> rfl
  · split
    · next hrested =>
      have degraded := Session.degraded_of_rested hrested
      refine stands.of_status rfl rfl (fun hmem => ?_) fun _ => nofun
      rcases stands.of_held hmem with status | status <;> cases degraded.symm.trans status
    · exact stands

theorem recover {ids : List Agent.Id} (serves : s.swarm.Serves held)
    (call : Session.recover now s = .ok ids t) : t.swarm.Serves held :=
  (Session.recover_ok call).serves serves.recovered

/-- Whoever is chosen was free, and is held from then on. -/
theorem claim {capability : String} (serves : swarm.Serves held)
    (choice : swarm.choice? capability = some agent) :
    (swarm.claim agent.id job).Serves ((agent.id, job) :: held) := by
  obtain ⟨chosen, hchosen, hid, -, eligible⟩ := Session.choice?_eq_some choice
  have free : agent.id ∉ held.map (·.1) := fun hmem => by
    rcases (serves.stands chosen hchosen).of_held (hid ▸ hmem) with status | status <;>
      rcases eligible with status' | ⟨status', -⟩ <;> cases status.symm.trans status'
  have ids : (swarm.claim agent.id job).agents.map (·.id) = swarm.agents.map (·.id) :=
    swarm.ids_modifyAgent _ _
  exact {
    claimed_once := serves.claimed_once.insert
    held_once := List.nodup_cons.2 ⟨free, serves.held_once⟩
    claimed_iff := fun id => by
      rw [Swarm.claim, List.mem_insert_iff, serves.claimed_iff, List.map_cons, List.mem_cons]
    known := fun id hmem => by
      rw [ids]
      rcases List.mem_cons.1 hmem with rfl | hmem
      · exact List.mem_map.2 ⟨chosen, hchosen, hid⟩
      · exact serves.known id hmem
    stands := fun changed hmem => by
      rw [agents_claim] at hmem
      obtain ⟨old, hold, rfl⟩ := List.mem_map.1 hmem
      split
      · next h =>
        have unheld (other : Job.Id) : (old.id, some other) ∉ held := fun hmem =>
          free (h ▸ List.mem_map_of_mem hmem)
        refine ⟨fun other => ?_, fun _ => .inl rfl, fun _ => ?_⟩
        · simp [h, h ▸ unheld other, eq_comm]
        · simp [h]
      · next h => exact (Stands.cons_iff h).2 (serves.stands old hold) }

theorem acquire {capability : String} {given : Option Agent.Id} (serves : s.swarm.Serves held)
    (call : Session.acquire capability job now s = .ok given t) :
    t.swarm.Serves ((given.map (·, job)).toList ++ held) := by
  obtain ⟨rfl, -, rfl⟩ | ⟨rfl, -, leads, -⟩ | ⟨agent, u, rfl, -, leads, choice, claimed⟩ :=
    Session.acquire_ok call
  · exact serves
  · exact leads.serves serves.recovered
  · exact claimed.serves ((leads.serves serves.recovered).claim choice)

/-- An agent that is taken back is free. -/
theorem returned {after : Agent} (serves : swarm.Serves ((after.id, job) :: held))
    (task : after.currentTask = none) (status : after.status ≠ .busy) :
    (Session.returned swarm after).Serves held := by
  obtain ⟨free, held_once⟩ := List.nodup_cons.1 serves.held_once
  have ids : (Session.returned swarm after).agents.map (·.id) = swarm.agents.map (·.id) :=
    swarm.ids_modifyAgent _ _
  exact {
    claimed_once := serves.claimed_once.erase _
    held_once := held_once
    claimed_iff := fun id => by
      rw [Session.returned, serves.claimed_once.mem_erase_iff, serves.claimed_iff, List.map_cons,
        List.mem_cons]
      constructor
      · rintro ⟨hne, heq | hmem⟩
        · exact absurd heq hne
        · exact hmem
      · exact fun hmem => ⟨fun heq => free (heq ▸ hmem), .inr hmem⟩
    known := fun id hmem => by rw [ids]; exact serves.known id (List.mem_cons_of_mem _ hmem)
    stands := fun changed hmem => by
      rw [Session.agents_returned] at hmem
      obtain ⟨old, hold, rfl⟩ := List.mem_map.1 hmem
      split
      · exact .of_free free task status
      · next h => exact (Stands.cons_iff h).1 (serves.stands old hold) }

theorem discharged_free (agent : Agent) (outcome : Task.Outcome) (threshold : UInt32)
    (now : Instant) :
    (Session.discharged agent outcome threshold now).currentTask = none ∧
      (Session.discharged agent outcome threshold now).status ≠ .busy := by
  simp only [Session.discharged]
  split
  · split
    · exact ⟨rfl, by simp⟩
    · exact ⟨rfl, by simp⟩
  · next status => exact ⟨rfl, status⟩

/-- An agent that is held is not refused when it is given back. -/
theorem releases {outcome : Task.Outcome} {answer : Except Error Agent.Status}
    (serves : s.swarm.Serves held) (here : id ∈ held.map (·.1))
    (call : Session.release id outcome now s = .ok answer t) :
    ∃ agent counted, s.swarm.agent? id = some agent ∧
      Session.tally outcome agent = .ok () counted ∧
      s.Leads (Session.returned s.swarm
        (Session.discharged counted outcome s.swarm.config.failureThreshold now)) t := by
  obtain ⟨-, absent, -⟩ | ⟨agent, counted, found, -, tally, -, leads⟩ := Session.release_ok call
  · rcases absent with none | unclaimed
    · obtain ⟨agent, hmem, hid⟩ := List.mem_map.1 (serves.known id here)
      exact absurd hid (agent?_eq_none.1 none agent hmem)
    · exact absurd ((serves.claimed_iff id).2 here) unclaimed
  · exact ⟨agent, counted, found, tally, leads⟩

/-- An agent that is held can be given back, and then nobody holds it. -/
theorem release {outcome : Task.Outcome} {answer : Except Error Agent.Status}
    (serves : s.swarm.Serves ((id, job) :: held))
    (call : Session.release id outcome now s = .ok answer t) : t.swarm.Serves held := by
  obtain ⟨agent, counted, found, tally, leads⟩ := serves.releases List.mem_cons_self call
  have hid : counted.id = id := by rw [Session.tally_ok tally, Session.agent?_id found]
  obtain ⟨task, status⟩ := discharged_free counted outcome s.swarm.config.failureThreshold now
  rw [← hid,
    ← Session.discharged_id counted outcome s.swarm.config.failureThreshold now] at serves
  exact leads.serves (serves.returned task status)

/-! ## Administration -/

theorem markOffline {answer : Except Error Unit} (serves : s.swarm.Serves held)
    (call : Session.markOffline id s = .ok answer t) : t.swarm.Serves held := by
  rcases Session.markOffline_ok call with ⟨-, rfl⟩ | ⟨-, leads⟩
  · exact serves
  · refine leads.serves (serves.modifyAgent _ (fun _ => rfl) fun agent _ _ stands => ?_)
    exact stands.of_status rfl rfl (fun _ => .inr rfl) fun _ => nofun

theorem markOnline {answer : Except Error Unit} (serves : s.swarm.Serves held)
    (call : Session.markOnline id now s = .ok answer t) : t.swarm.Serves held := by
  rcases Session.markOnline_ok call with ⟨-, rfl, -⟩ | ⟨-, -, leads⟩
  · exact serves
  · refine leads.serves (serves.modifyAgent _ (fun _ => rfl) fun agent _ hid stands => ?_)
    refine stands.of_status rfl rfl (fun hmem => .inl ?_) fun free => ?_
    · have claimed := (serves.claimed_iff agent.id).2 hmem
      simp [Session.backOnline, ← hid, claimed]
    · have unclaimed := mt (serves.claimed_iff agent.id).1 free
      simp [Session.backOnline, ← hid, unclaimed]

theorem reset {answer : Except Error Unit} (serves : s.swarm.Serves held)
    (call : Session.reset id s = .ok answer t) : t.swarm.Serves held := by
  rcases Session.reset_ok call with ⟨-, rfl⟩ | ⟨-, ⟨degraded, found, status⟩, leads⟩
  · exact serves
  · refine leads.serves (serves.modifyAgent _ (fun _ => rfl) fun agent hmem hid stands => ?_)
    obtain rfl : agent = degraded := eq_of_agent? found hmem hid
    refine stands.of_status rfl rfl (fun hheld => ?_) fun _ => nofun
    rcases stands.of_held hheld with status' | status' <;> cases status.symm.trans status'

end Calls

end Serves

/-! ## The beginning -/

/-- A swarm of which nobody has acquired an agent yet. -/
structure AtRest (swarm : Swarm) : Prop where
  unclaimed : swarm.claimed = []
  free : ∀ agent ∈ swarm.agents, agent.currentTask = none ∧ agent.status ≠ .busy

theorem AtRest.serves (atRest : swarm.AtRest) : swarm.Serves [] where
  claimed_once := by rw [atRest.unclaimed]; exact .nil
  held_once := .nil
  claimed_iff id := by rw [atRest.unclaimed]; rfl
  known := nofun
  stands agent hmem :=
    .of_free List.not_mem_nil (atRest.free agent hmem).1 (atRest.free agent hmem).2

/-- A swarm that has just got its agents is at rest. -/
theorem populate_atRest {definitions : List Agent.Definition} {now : Instant} {s t : Session}
    (unclaimed : s.swarm.claimed = [])
    (call : Session.populate definitions now s = .ok (.ok ()) t) : t.swarm.AtRest := by
  obtain ⟨⟨_, refused⟩, -⟩ | ⟨-, -, once, health, rfl⟩ := Session.populate_ok call
  · cases refused
  refine ⟨unclaimed, fun agent hmem => ?_⟩
  · obtain ⟨⟨⟨id, definition⟩, place⟩, -, rfl⟩ := List.mem_map.1 hmem
    exact ⟨rfl, by simp [Agent.fresh]⟩

end JobSwarm.Swarm
