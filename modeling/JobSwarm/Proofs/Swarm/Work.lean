import JobSwarm.Proofs.Swarm.Serves

/-!
# What agents have counted

An agent counts how its tasks ended and how long they took. When an agent is given back, the outcome
of its task is added to its counts. Nothing else that is done to a swarm touches a count.

Results:

* `Session.tally_amount`: an outcome is added to the counts of an agent.
* `Serves.release_work`: an agent that is given back has counted the outcome of its task, and the
  others have counted nothing.
* `acquire_work`, `recover_work`, `Session.Administers.work_eq`: nothing is counted.
* `populate_unused`: at first nothing has been counted.
-/

namespace JobSwarm

open Time (Instant)

/-! ## Amounts -/

/-- What is counted of tasks. -/
inductive Task.Measure where
  | completed
  | failed
  | cancelled
  | durationMs

open JobSwarm.Task (Measure)

/-- What one task counts for, by its outcome. -/
def Task.Outcome.amount : Task.Outcome → Measure → Nat
  | .succeeded _, .completed => 1
  | .failed _, .failed => 1
  | .cancelled, .cancelled => 1
  | .succeeded duration, .durationMs | .failed duration, .durationMs => duration.toNat
  | _, _ => 0

/-- What an agent has counted so far. -/
def Agent.Metrics.amount (metrics : Agent.Metrics) : Measure → Nat
  | .completed => metrics.tasksCompleted.toNat
  | .failed => metrics.tasksFailed.toNat
  | .cancelled => metrics.tasksCancelled.toNat
  | .durationMs => metrics.totalDurationMs.toNat

namespace Swarm

/-- What an agent has counted, if it is one of those asked for. -/
def share (who : Agent.Id → Bool) (what : Measure) (agent : Agent) : Nat :=
  if who agent.id then agent.metrics.amount what else 0

/-- What some agents of a swarm have counted together. -/
def work (swarm : Swarm) (who : Agent.Id → Bool) (what : Measure) : Nat :=
  (swarm.agents.map (share who what)).sum

variable {swarm after : Swarm} {who : Agent.Id → Bool} {what : Measure}

/-- A change of agents that touches no count. -/
theorem work_of_map {change : Agent → Agent} (agents : after.agents = swarm.agents.map change)
    (keeps : ∀ agent, (change agent).id = agent.id ∧
      (change agent).metrics.amount = agent.metrics.amount) :
    after.work who what = swarm.work who what := by
  rw [work, agents, List.map_map, work]
  refine congrArg List.sum (List.map_congr_left fun agent _ => ?_)
  obtain ⟨same, amount⟩ := keeps agent
  rw [Function.comp_apply, share, same, amount, share]

theorem work_of_modifyAgent {id : Agent.Id} {change : Agent → Agent}
    (agents : after.agents = (swarm.modifyAgent id change).agents)
    (keeps : ∀ agent, (change agent).id = agent.id ∧
      (change agent).metrics.amount = agent.metrics.amount) :
    after.work who what = swarm.work who what := by
  rw [agents_modifyAgent _ fun agent own => (keeps agent).1.trans own] at agents
  refine work_of_map agents fun agent => ?_
  split
  · exact keeps agent
  · exact ⟨rfl, rfl⟩

/-! ## Counting -/

namespace Session

variable {s t : Session} {id : Agent.Id} {now : Instant}

theorem Leads.work_eq (leads : s.Leads swarm t) :
    t.swarm.work who what = swarm.work who what := by
  rw [work, leads.agents, work]

/-- An outcome is added to what an agent has counted. -/
theorem tally_amount {outcome : Task.Outcome} {agent counted : Agent} {r : Unit} (what : Measure)
    (h : tally outcome agent = .ok r counted) :
    counted.metrics.amount what = agent.metrics.amount what + outcome.amount what := by
  cases outcome with
  | succeeded duration =>
    simp only [tally, Step.bind_eq_ok, Step.modify_eq_ok] at h
    obtain ⟨_, _, htask, _, _, hduration, rfl⟩ := h
    obtain ⟨count, next, rfl⟩ := countTask_ok htask
    obtain ⟨total, sum, rfl⟩ := countDuration_ok hduration
    have next := (addWord_eq_ok_iff _ _ _).1 next
    have sum := (addWord_eq_ok_iff _ _ _).1 sum
    cases what with
    | completed => exact next
    | durationMs => exact sum
    | failed | cancelled => rfl
  | failed duration =>
    simp only [tally, Step.bind_eq_ok, Step.get_eq_ok, Step.ofSum_eq_ok, Step.modify_eq_ok] at h
    obtain ⟨_, _, htask, _, _, hduration, _, _, ⟨rfl, rfl⟩, _, _, ⟨-, rfl⟩, rfl⟩ := h
    obtain ⟨count, next, rfl⟩ := countTask_ok htask
    obtain ⟨total, sum, rfl⟩ := countDuration_ok hduration
    have next := (addWord_eq_ok_iff _ _ _).1 next
    have sum := (addWord_eq_ok_iff _ _ _).1 sum
    cases what with
    | failed => exact next
    | durationMs => exact sum
    | completed | cancelled => rfl
  | cancelled =>
    simp only [tally] at h
    obtain ⟨count, next, rfl⟩ := countTask_ok h
    have next := (addWord_eq_ok_iff _ _ _).1 next
    cases what with
    | cancelled => exact next
    | completed | failed | durationMs => rfl

theorem recovered_work : (swarm.recovered now).work who what = swarm.work who what := by
  refine work_of_map rfl fun agent => ?_
  split <;> exact ⟨rfl, rfl⟩

theorem recover_work {ids : List Agent.Id} (call : recover now s = .ok ids t) :
    t.swarm.work who what = s.swarm.work who what :=
  (recover_ok call).work_eq.trans recovered_work

theorem acquire_work {capability : String} {job : Option Job.Id} {given : Option Agent.Id}
    (call : acquire capability job now s = .ok given t) :
    t.swarm.work who what = s.swarm.work who what := by
  obtain ⟨-, -, rfl⟩ | ⟨-, -, leads, -⟩ | ⟨agent, u, -, -, leads, -, claimed⟩ := acquire_ok call
  · rfl
  · exact leads.work_eq.trans recovered_work
  · have claim : (u.swarm.claim agent.id job).work who what = u.swarm.work who what :=
      work_of_modifyAgent rfl fun _ => ⟨rfl, rfl⟩
    rw [claimed.work_eq, claim, leads.work_eq, recovered_work]

end Session

/-- An agent that is given back has counted the outcome of its task, and the others have counted
nothing. -/
theorem Serves.release_work {s t : Session} {held : List Holding} {id : Agent.Id}
    {outcome : Task.Outcome} {now : Instant} {answer : Except Error Agent.Status}
    (serves : s.swarm.Serves held) (here : id ∈ held.map (·.1))
    (call : Session.release id outcome now s = .ok answer t) :
    t.swarm.work who what =
      s.swarm.work who what + if who id then outcome.amount what else 0 := by
  obtain ⟨agent, counted, found, tally, leads⟩ := serves.releases here call
  let after := Session.discharged counted outcome s.swarm.config.failureThreshold now
  have known := Session.agent?_id found
  have same : after.id = id := by
    rw [Session.discharged_id, Session.tally_ok tally, known]
  have amount : after.metrics.amount what = agent.metrics.amount what + outcome.amount what := by
    rw [Session.discharged_metrics, Session.tally_amount what tally]
  have moved : t.swarm.work who what + share who what agent =
      s.swarm.work who what + share who what after := by
    rw [leads.work_eq, Swarm.work, Session.agents_returned, same]
    exact Keyed.sum_modify (share who what) (fun _ => after) s.swarm.ids_once
      (find?_of_agent? found)
  rw [share, share, known, same, amount] at moved
  split
  · next asked =>
    rw [if_pos asked, if_pos asked] at moved
    omega
  · next asked =>
    rw [if_neg asked, if_neg asked] at moved
    omega

/-! ## Administration -/

/-- A call of whoever administers a swarm. -/
inductive Session.Administers (s : Session) : Session → Prop
  | marksOffline (id : Agent.Id) {answer : Except Error Unit} {t : Session}
      (call : markOffline id s = .ok answer t) : Administers s t
  | marksOnline (id : Agent.Id) (now : Instant) {answer : Except Error Unit} {t : Session}
      (call : markOnline id now s = .ok answer t) : Administers s t
  | resets (id : Agent.Id) {answer : Except Error Unit} {t : Session}
      (call : reset id s = .ok answer t) : Administers s t
  | recovers (now : Instant) {ids : List Agent.Id} {t : Session}
      (call : recover now s = .ok ids t) : Administers s t

/-- Who administers a swarm touches no count. -/
theorem Session.Administers.work_eq {s t : Session} (step : s.Administers t) :
    t.swarm.work who what = s.swarm.work who what := by
  cases step with
  | marksOffline id call =>
    rcases markOffline_ok call with ⟨-, rfl⟩ | ⟨-, leads⟩
    · rfl
    · exact leads.work_eq.trans (work_of_modifyAgent rfl fun _ => ⟨rfl, rfl⟩)
  | marksOnline id now call =>
    rcases markOnline_ok call with ⟨-, rfl, -⟩ | ⟨-, -, leads⟩
    · rfl
    · refine leads.work_eq.trans (work_of_modifyAgent rfl fun agent => ⟨rfl, ?_⟩)
      funext what
      cases what <;> rfl
  | resets id call =>
    rcases reset_ok call with ⟨-, rfl⟩ | ⟨-, -, leads⟩
    · rfl
    · exact leads.work_eq.trans (work_of_modifyAgent rfl fun _ => ⟨rfl, rfl⟩)
  | recovers now call => exact recover_work call

/-! ## The beginning -/

/-- A swarm of which nobody has acquired an agent ever. -/
structure Unused (swarm : Swarm) : Prop extends AtRest swarm where
  uncounted : ∀ agent ∈ swarm.agents, ∀ what, agent.metrics.amount what = 0

theorem Unused.work_eq_zero (unused : swarm.Unused) : swarm.work who what = 0 := by
  rw [work, List.sum_eq_zero_iff_forall_eq_nat]
  intro amount hmem
  obtain ⟨agent, there, rfl⟩ := List.mem_map.1 hmem
  rw [share, unused.uncounted agent there, ite_self]

/-- The amounts of an agent that has just been made. -/
theorem amount_fresh (id : Agent.Id) (tier : Agent.Tier) (capability : String) (ordinal : UInt64)
    (now : Instant) (what : Measure) :
    (Agent.fresh id tier capability ordinal now).metrics.amount what = 0 := by
  cases what <;> rfl

/-- A swarm that has just got its agents is unused. -/
theorem populate_unused {definitions : List Agent.Definition} {now : Instant} {s t : Session}
    (unclaimed : s.swarm.claimed = [])
    (call : Session.populate definitions now s = .ok (.ok ()) t) : t.swarm.Unused where
  toAtRest := populate_atRest unclaimed call
  uncounted agent hmem what := by
    obtain ⟨⟨_, refused⟩, -⟩ | ⟨-, -, once, health, rfl⟩ := Session.populate_ok call
    · cases refused
    · obtain ⟨⟨⟨id, definition⟩, place⟩, -, rfl⟩ := List.mem_map.1 hmem
      exact amount_fresh ..

end Swarm

end JobSwarm
