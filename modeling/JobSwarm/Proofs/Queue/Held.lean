import JobSwarm.Proofs.Queue.Run
import JobSwarm.Proofs.Swarm.Serves

/-!
# What the jobs of a queue hold

Each active job of a queue holds an agent. Beside it, others may hold agents of the same swarm.

Results:

* `Move.serves`: if the swarm serves a queue and others before a move, it serves them after.
* `handle_serves`, `drain_serves`: the same for a message, and for the end of all jobs.
* `Sound.mem_held_iff`: what is held is held by the active jobs, as their records say.
* `loneSwarm_atRest`: in a swarm with one agent no agent is held at first.
-/

namespace JobSwarm.Queue

open Swarm (Session Holding)
open Time (Clock)

/-- The agents that the active jobs of a queue hold. -/
def held (queue : Queue) : List Holding :=
  queue.active.map fun active => (active.agentId, some active.jobId)

variable {queue : Queue} {id : Job.Id} {active : Active}

theorem held_activate :
    (queue.activate active).held = queue.held ++ [(active.agentId, some active.jobId)] := by
  rw [held, held, activate, List.map_append, List.map_singleton]

theorem held_retire (sound : queue.Sound) (holds : queue.active? id = some active) :
    queue.held.Perm ((active.agentId, some id) :: (queue.retire id).held) := by
  have h := (Keyed.perm_remove sound.active_unique holds).map
    fun active => (active.agentId, some active.jobId)
  rwa [List.map_cons, active?_jobId holds] at h

/-- The agent of an active job is held. -/
theorem mem_held_of_active? {others : List Holding} (holds : queue.active? id = some active) :
    active.agentId ∈ (others ++ queue.held).map (·.1) := by
  refine List.mem_map.2 ⟨(active.agentId, some active.jobId), ?_, rfl⟩
  exact List.mem_append_right _ (List.mem_map.2 ⟨active, (Keyed.mem_of_find? holds).1, rfl⟩)

theorem held_modifyActive {change : Active → Active}
    (keeps : ∀ active, (change active).agentId = active.agentId ∧
      (change active).jobId = active.jobId) :
    (queue.modifyActive id change).held = queue.held := by
  rw [held, held, modifyActive, List.map_map]
  refine List.map_congr_left fun active _ => ?_
  by_cases h : active.jobId = id <;> simp [h, keeps]

variable {σ : Type} {engine : Engine σ} {clock : Clock} {scope : Scope} {s t : Scene σ}
  {others : List Holding}

/-- What else is noted of an active job is nothing to the swarm. -/
theorem modifyActive_serves {swarm : Swarm} {change : Active → Active}
    (keeps : ∀ active, (change active).agentId = active.agentId ∧
      (change active).jobId = active.jobId) (serves : swarm.Serves (others ++ queue.held)) :
    swarm.Serves (others ++ (queue.modifyActive id change).held) := by
  rw [held_modifyActive keeps]
  exact serves

/-- An active job that ends gives back its agent. -/
theorem release_serves {outcome : Task.Outcome} {answer : Except Swarm.Error Agent.Status}
    {session : Session} (sound : s.queue.Sound) (holds : s.queue.active? id = some active)
    (serves : s.swarm.Serves (others ++ s.queue.held))
    (release : Session.release active.agentId outcome clock.wall s.toSession = .ok answer session) :
    session.swarm.Serves (others ++ (s.queue.retire id).held) := by
  have h := (held_retire sound holds).append_left others
  exact (serves.perm (h.trans List.perm_middle)).release release

theorem Move.serves (move : Move engine clock scope s t) (sound : s.queue.Sound)
    (serves : s.swarm.Serves (others ++ s.queue.held)) :
    t.swarm.Serves (others ++ t.queue.held) := by
  cases move with
  | submit | advance | withdraw | keepOn | keepStill => exact serves
  | recover call => exact serves.recover call
  | want call => exact serves.acquire call
  | @start job agent session handle _ _ _ _ _ call =>
    have acquired := serves.acquire call
    have h : ((agent, some job.id) :: (others ++ s.queue.held)).Perm
        (others ++ (s.queue.held ++ [(agent, some job.id)])) := by
      rw [← List.append_assoc]
      exact (List.perm_append_singleton _ _).symm
    have now : (((s.queue.withdraw job.id).putJob (job.started agent clock.wall)).activate
        (begun s.queue job agent handle clock.wall)).held =
          s.queue.held ++ [(agent, some job.id)] :=
      held_activate
    exact now ▸ acquired.perm h
  | @refuse job agent session _ _ _ _ _ _ _ _ call _ release =>
    have acquired := serves.acquire call
    have told : (session.tell (.jobStarted job.id agent)).swarm.Serves _ := acquired
    have released := told.release release
    exact released
  | announce | hold | pause | resume =>
    exact modifyActive_serves (fun _ => ⟨rfl, rfl⟩) serves
  | complete _ holds _ _ _ _ release | fail _ holds _ _ _ release | abandon _ holds _ release =>
    have released := release_serves sound holds serves release
    exact released

theorem Path.serves (path : Path engine clock scope s t) (sound : s.queue.Sound)
    (serves : s.swarm.Serves (others ++ s.queue.held)) :
    t.swarm.Serves (others ++ t.queue.held) := by
  induction path with
  | refl => exact serves
  | tail before move ih => exact move.serves (Path.sound before sound) ih

theorem handle_serves {message : Message} {reply : Reply} (sound : s.queue.Sound)
    (fresh : message.IsFresh s.queue) (call : handle engine clock message s = .ok reply t)
    (serves : s.swarm.Serves (others ++ s.queue.held)) :
    t.swarm.Serves (others ++ t.queue.held) :=
  (handle_path sound fresh call).serves sound serves

theorem drain_serves {r : Unit} (sound : s.queue.Sound) (call : drain engine clock s = .ok r t)
    (serves : s.swarm.Serves (others ++ s.queue.held)) :
    t.swarm.Serves (others ++ t.queue.held) := by
  have path : Path engine clock false s t := drain_path sound call
  exact path.serves sound serves

/-- A job that runs or has paused holds the agent that its record names. -/
theorem Sound.holds_of_active (sound : queue.Sound) {job : Job} (hmem : job ∈ queue.jobs)
    (state : job.status = .running ∨ job.status = .paused) :
    ∃ active, queue.active? job.id = some active ∧ job.agentId = some active.agentId := by
  have found := sound.job?_of_mem hmem
  rcases state with status | status
  · obtain ⟨active, holds, agent, -⟩ := sound.holds_of_running found status
    exact ⟨active, holds, agent⟩
  · obtain ⟨active, holds, agent, -⟩ := sound.holds_of_paused found status
    exact ⟨active, holds, agent⟩

/-- What is held is held by the active jobs, and by them as their records say. -/
theorem Sound.mem_held_iff (sound : queue.Sound) {agent : Agent.Id} :
    (agent, some id) ∈ queue.held ↔
      ∃ job ∈ queue.jobs, job.id = id ∧ (job.status = .running ∨ job.status = .paused) ∧
        job.agentId = some agent := by
  constructor
  · intro hmem
    obtain ⟨active, hactive, heq⟩ := List.mem_map.1 hmem
    cases heq
    obtain ⟨job, found, agent, state⟩ := sound.job_of_active (sound.active?_of_mem hactive)
    exact ⟨job, (Keyed.mem_of_find? found).1, job?_id found, state.imp And.left And.left, agent⟩
  · rintro ⟨job, hmem, rfl, state, agent⟩
    obtain ⟨active, holds, agent'⟩ := sound.holds_of_active hmem state
    rw [agent'] at agent
    cases agent
    exact List.mem_map.2 ⟨active, (Keyed.mem_of_find? holds).1, by rw [active?_jobId holds]⟩

theorem loneSwarm_atRest : loneSwarm.AtRest where
  unclaimed := rfl
  free agent hmem := by
    cases List.mem_singleton.1 hmem
    exact ⟨rfl, nofun⟩

end JobSwarm.Queue
