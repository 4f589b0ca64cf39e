import JobSwarm.Proofs.Queue.Held
import Mathlib.Data.List.Flatten

/-!
# Queues that share a swarm

Several queues use one swarm. Each handles its messages one at a time, and whoever administers the
swarm calls on it in between. The agents go to and fro through the queues alone.

Results:

* `Proceeds.inOrder`: each step keeps the queues sound, and the swarm serving them all.
* `Run.exclusive`: no agent serves two jobs, none is lost, and none is busy without a job.
-/

namespace JobSwarm

open Queue (Scene Message Reply)
open Swarm (Session)
open Time (Instant Clock)

/-- Some queues and the swarm that they share. -/
structure Fleet where
  swarm : Swarm
  queues : List Queue

namespace Fleet

/-! ## Steps -/

/-- One step of a fleet: a queue handles a message or is drained, with an engine of its own, or the
swarm is administered. -/
inductive Proceeds : Fleet → Fleet → Prop
  | handles {σ : Type} (engine : Engine σ) (clock : Clock) (message : Message) {reply : Reply}
      {s t : Scene σ} (before after : List Queue) (fresh : message.IsFresh s.queue)
      (call : Queue.handle engine clock message s = .ok reply t) :
      Proceeds ⟨s.swarm, before ++ s.queue :: after⟩ ⟨t.swarm, before ++ t.queue :: after⟩
  | drains {σ : Type} (engine : Engine σ) (clock : Clock) {s t : Scene σ}
      (before after : List Queue) (call : Queue.drain engine clock s = .ok () t) :
      Proceeds ⟨s.swarm, before ++ s.queue :: after⟩ ⟨t.swarm, before ++ t.queue :: after⟩
  | marksOffline (id : Agent.Id) {answer : Except Swarm.Error Unit} {s t : Session}
      (queues : List Queue) (call : Session.markOffline id s = .ok answer t) :
      Proceeds ⟨s.swarm, queues⟩ ⟨t.swarm, queues⟩
  | marksOnline (id : Agent.Id) (now : Instant) {answer : Except Swarm.Error Unit} {s t : Session}
      (queues : List Queue) (call : Session.markOnline id now s = .ok answer t) :
      Proceeds ⟨s.swarm, queues⟩ ⟨t.swarm, queues⟩
  | resets (id : Agent.Id) {answer : Except Swarm.Error Unit} {s t : Session}
      (queues : List Queue) (call : Session.reset id s = .ok answer t) :
      Proceeds ⟨s.swarm, queues⟩ ⟨t.swarm, queues⟩
  | recovers (now : Instant) {ids : List Agent.Id} {s t : Session}
      (queues : List Queue) (call : Session.recover now s = .ok ids t) :
      Proceeds ⟨s.swarm, queues⟩ ⟨t.swarm, queues⟩

/-- One step after another. -/
abbrev Run : Fleet → Fleet → Prop :=
  Relation.ReflTransGen Proceeds

/-! ## Order -/

/-- The queues are sound, and the swarm serves them all. -/
structure InOrder (fleet : Fleet) : Prop where
  sound : ∀ queue ∈ fleet.queues, queue.Sound
  serves : fleet.swarm.Serves (fleet.queues.flatMap Queue.held)

variable {fleet fleet' : Fleet} {swarm swarm' : Swarm} {queue queue' : Queue}
  {before after : List Queue}

/-- What one queue of a fleet holds may stand at the end. -/
theorem held_perm : ((before ++ queue :: after).flatMap Queue.held).Perm
    ((before ++ after).flatMap Queue.held ++ queue.held) := by
  rw [List.flatMap_append, List.flatMap_append, List.flatMap_cons, List.append_assoc]
  exact List.perm_append_comm.append_left _

/-- A step of one queue is a step of the fleet. -/
theorem InOrder.replace (order : InOrder ⟨swarm, before ++ queue :: after⟩)
    (sound : queue.Sound → queue'.Sound)
    (serves : ∀ others, queue.Sound → swarm.Serves (others ++ queue.held) →
      swarm'.Serves (others ++ queue'.held)) :
    InOrder ⟨swarm', before ++ queue' :: after⟩ where
  sound other hmem := by
    have own := order.sound queue (List.mem_append_right _ List.mem_cons_self)
    rcases List.mem_append.1 hmem with hmem | hmem
    · exact order.sound other (List.mem_append_left _ hmem)
    · rcases List.mem_cons.1 hmem with rfl | hmem
      · exact sound own
      · exact order.sound other (List.mem_append_right _ (List.mem_cons_of_mem _ hmem))
  serves := by
    have own := order.sound queue (List.mem_append_right _ List.mem_cons_self)
    exact (serves _ own (order.serves.perm held_perm)).perm held_perm.symm

theorem Proceeds.inOrder (step : Proceeds fleet fleet') (order : fleet.InOrder) :
    fleet'.InOrder := by
  cases step with
  | handles engine clock message before after fresh call =>
    exact order.replace (fun sound => (Queue.handle_path sound fresh call).sound sound)
      fun _ sound serves => Queue.handle_serves sound fresh call serves
  | drains engine clock before after call =>
    refine order.replace (fun sound => ?_)
      fun _ sound serves => Queue.drain_serves sound call serves
    have path : Queue.Path engine clock false _ _ := Queue.drain_path sound call
    exact path.sound sound
  | marksOffline id queues call => exact ⟨order.sound, order.serves.markOffline call⟩
  | marksOnline id now queues call => exact ⟨order.sound, order.serves.markOnline call⟩
  | resets id queues call => exact ⟨order.sound, order.serves.reset call⟩
  | recovers now queues call => exact ⟨order.sound, order.serves.recover call⟩

theorem Run.inOrder (run : Run fleet fleet') (order : fleet.InOrder) : fleet'.InOrder := by
  induction run with
  | refl => exact order
  | tail _ step ih => exact step.inOrder ih

/-! ## Exclusion -/

/-- A job that runs or has paused, in the queue at a place. -/
def IsActive (fleet : Fleet) (place : Nat) (job : Job) : Prop :=
  ∃ queue, fleet.queues[place]? = some queue ∧ job ∈ queue.jobs ∧
    (job.status = .running ∨ job.status = .paused)

/-- The agents of a fleet serve its active jobs, each one job, and no other. -/
structure Exclusive (fleet : Fleet) : Prop where
  /-- An active job has an agent, which is busy or was taken offline. -/
  served : ∀ place job, fleet.IsActive place job →
    ∃ agent ∈ fleet.swarm.agents, job.agentId = some agent.id ∧
      (agent.status = .busy ∨ agent.status = .offline)
  /-- Two active jobs do not have the same agent. -/
  injective : ∀ place place' job job', fleet.IsActive place job → fleet.IsActive place' job' →
    job.agentId = job'.agentId → place = place' ∧ job = job'
  /-- The agents of active jobs are claimed, and no others. -/
  claimed_iff : ∀ id, id ∈ fleet.swarm.claimed ↔
    ∃ place job, fleet.IsActive place job ∧ job.agentId = some id
  /-- An agent names the active job that has it. -/
  task_iff : ∀ agent ∈ fleet.swarm.agents, ∀ id, agent.currentTask = some id ↔
    ∃ place job, fleet.IsActive place job ∧ job.id = id ∧ job.agentId = some agent.id
  /-- A busy agent is the agent of an active job. -/
  of_busy : ∀ agent ∈ fleet.swarm.agents, agent.status = .busy →
    ∃ place job, fleet.IsActive place job ∧ job.agentId = some agent.id

namespace InOrder

variable {id : Agent.Id} {jobId : Job.Id}

/-- What is held in a fleet is held by its active jobs. -/
theorem mem_held_iff (order : fleet.InOrder) :
    (id, some jobId) ∈ fleet.queues.flatMap Queue.held ↔
      ∃ place job, fleet.IsActive place job ∧ job.id = jobId ∧ job.agentId = some id := by
  constructor
  · intro hmem
    obtain ⟨queue, hqueue, hheld⟩ := List.mem_flatMap.1 hmem
    obtain ⟨job, hjob, hid, active, agent⟩ := (order.sound queue hqueue).mem_held_iff.1 hheld
    obtain ⟨place, hplace⟩ := List.mem_iff_getElem?.1 hqueue
    exact ⟨place, job, ⟨queue, hplace, hjob, active⟩, hid, agent⟩
  · rintro ⟨place, job, ⟨queue, hplace, hjob, active⟩, hid, agent⟩
    have hqueue := List.mem_of_getElem? hplace
    exact List.mem_flatMap.2 ⟨queue, hqueue,
      (order.sound queue hqueue).mem_held_iff.2 ⟨job, hjob, hid, active, agent⟩⟩

theorem mem_agents_iff (order : fleet.InOrder) :
    id ∈ (fleet.queues.flatMap Queue.held).map (·.1) ↔
      ∃ place job, fleet.IsActive place job ∧ job.agentId = some id := by
  constructor
  · intro hmem
    obtain ⟨holding, hheld, rfl⟩ := List.mem_map.1 hmem
    obtain ⟨queue, -, hqueue⟩ := List.mem_flatMap.1 hheld
    obtain ⟨active, -, rfl⟩ := List.mem_map.1 hqueue
    obtain ⟨place, job, hjob, -, agent⟩ := order.mem_held_iff.1 hheld
    exact ⟨place, job, hjob, agent⟩
  · rintro ⟨place, job, active, agent⟩
    have hheld := order.mem_held_iff.2 ⟨place, job, active, rfl, agent⟩
    exact List.mem_map.2 ⟨(id, some job.id), hheld, rfl⟩

/-- No agent is held twice: not in two queues, nor in one. -/
theorem held_once (order : fleet.InOrder) :
    (∀ queue ∈ fleet.queues, (queue.held.map (·.1)).Nodup) ∧
      fleet.queues.Pairwise fun a b => (a.held.map (·.1)).Disjoint (b.held.map (·.1)) := by
  have once := order.serves.held_once
  rw [List.map_flatMap] at once
  exact List.nodup_flatMap.1 once

/-- Queues at two places share no agent. -/
theorem not_shared (order : fleet.InOrder) {place place' : Nat} (h : place < place')
    (hplace : fleet.queues[place]? = some queue) (hplace' : fleet.queues[place']? = some queue')
    (held : id ∈ queue.held.map (·.1)) : id ∉ queue'.held.map (·.1) := by
  obtain ⟨hlt, rfl⟩ := List.getElem?_eq_some_iff.1 hplace
  obtain ⟨hlt', rfl⟩ := List.getElem?_eq_some_iff.1 hplace'
  exact List.disjoint_left.1 (List.pairwise_iff_getElem.1 order.held_once.2 _ _ hlt hlt' h) held

/-- One agent, one place, one job. -/
theorem injective (order : fleet.InOrder) {place place' : Nat} {job job' : Job}
    (active : fleet.IsActive place job) (active' : fleet.IsActive place' job')
    (agent : job.agentId = some id) (agent' : job'.agentId = some id) :
    place = place' ∧ job = job' := by
  obtain ⟨queue, hplace, hjob, state⟩ := active
  obtain ⟨queue', hplace', hjob', state'⟩ := active'
  have sound := order.sound queue (List.mem_of_getElem? hplace)
  have sound' := order.sound queue' (List.mem_of_getElem? hplace')
  have held := sound.mem_held_iff.2 ⟨job, hjob, rfl, state, agent⟩
  have held' := sound'.mem_held_iff.2 ⟨job', hjob', rfl, state', agent'⟩
  have key : id ∈ queue.held.map (·.1) := List.mem_map.2 ⟨_, held, rfl⟩
  have key' : id ∈ queue'.held.map (·.1) := List.mem_map.2 ⟨_, held', rfl⟩
  rcases Nat.lt_trichotomy place place' with h | rfl | h
  · exact absurd key' (order.not_shared h hplace hplace' key)
  · cases hplace.symm.trans hplace'
    have once := order.held_once.1 queue (List.mem_of_getElem? hplace)
    have heq := Keyed.eq_of_key_eq once held held' rfl
    have hid : job.id = job'.id := Option.some.inj (congrArg Prod.snd heq)
    exact ⟨rfl, Keyed.eq_of_key_eq sound.jobs_unique hjob hjob' hid⟩
  · exact absurd key (order.not_shared h hplace' hplace key')

theorem toExclusive (order : fleet.InOrder) : fleet.Exclusive where
  served place job active := by
    obtain ⟨queue, hplace, hjob, state⟩ := active
    have sound := order.sound queue (List.mem_of_getElem? hplace)
    obtain ⟨_, -, agent⟩ := sound.holds_of_active hjob state
    have held := order.mem_agents_iff.2 ⟨place, job, ⟨queue, hplace, hjob, state⟩, agent⟩
    obtain ⟨served, hserved, hid⟩ := List.mem_map.1 (order.serves.known _ held)
    rw [← hid] at held agent
    exact ⟨served, hserved, agent, (order.serves.stands served hserved).of_held held⟩
  injective place place' job job' active active' same := by
    obtain ⟨queue, hplace, hjob, state⟩ := active
    have sound := order.sound queue (List.mem_of_getElem? hplace)
    obtain ⟨_, -, agent⟩ := sound.holds_of_active hjob state
    exact order.injective ⟨queue, hplace, hjob, state⟩ active' agent (same ▸ agent)
  claimed_iff id := (order.serves.claimed_iff id).trans order.mem_agents_iff
  task_iff agent hmem id := ((order.serves.stands agent hmem).task_iff id).trans order.mem_held_iff
  of_busy agent hmem busy := order.mem_agents_iff.1 ((order.serves.stands agent hmem).of_busy busy)

end InOrder

/-- Queues without jobs, and a swarm. -/
def initial (swarm : Swarm) (configs : List Queue.Config) : Fleet where
  swarm := swarm
  queues := configs.map fun config => { config := config }

theorem inOrder_initial (atRest : swarm.AtRest) (configs : List Queue.Config) :
    (initial swarm configs).InOrder where
  sound queue hmem := by
    obtain ⟨config, -, rfl⟩ := List.mem_map.1 hmem
    exact Queue.sound_initial config
  serves := by
    have none : (initial swarm configs).queues.flatMap Queue.held = [] := by
      refine List.flatMap_eq_nil_iff.2 fun queue hmem => ?_
      obtain ⟨config, -, rfl⟩ := List.mem_map.1 hmem
      rfl
    rw [none]
    exact atRest.serves

/-- However the steps of the queues and the administration follow one another, the agents serve the
active jobs, each one job, and no other. -/
theorem Run.exclusive {configs : List Queue.Config} (atRest : swarm.AtRest)
    (run : Run (initial swarm configs) fleet) : fleet.Exclusive :=
  (run.inOrder (inOrder_initial atRest configs)).toExclusive

/-- Two queues want the one agent of a swarm: the first has it, and a job of the other waits. -/
theorem Run.exclusive_of_two :
    ∃ fleet, Run (initial Queue.loneSwarm [{}, {}]) fleet ∧
      fleet.queues.map (·.active.length) = [1, 0] ∧ fleet.queues.map (·.pending.length) = [0, 1] ∧
      fleet.Exclusive := by
  let scene (swarm : Swarm) : Scene Engine.Stub.State := .initial {} swarm Engine.Stub.standard
  let submit (id : Job.Id) : Message := .submit id { targetPath := "notes" } .normal
  have played : (Queue.play Engine.Stub.engine [.told (.epoch 0) (submit ⟨1⟩)]
      (scene Queue.loneSwarm)).any (fun s =>
        (Queue.play Engine.Stub.engine [.told (.epoch 1) (submit ⟨2⟩)] (scene s.swarm)).any
          fun t => [s.queue, t.queue].map (·.active.length) = [1, 0] ∧
            [s.queue, t.queue].map (·.pending.length) = [0, 1]) = true := by
    decide +kernel
  obtain ⟨s, hs, rest⟩ := (Option.any_eq_true _ _).1 played
  obtain ⟨t, ht, facts⟩ := (Option.any_eq_true _ _).1 rest
  obtain ⟨active, pending⟩ := of_decide_eq_true facts
  obtain ⟨fresh, reply, call⟩ := Queue.handle_of_play hs
  obtain ⟨fresh', reply', call'⟩ := Queue.handle_of_play ht
  have run : Run (initial Queue.loneSwarm [{}, {}]) ⟨t.swarm, [s.queue, t.queue]⟩ :=
    (Relation.ReflTransGen.single
      (.handles Engine.Stub.engine (.epoch 0) (submit ⟨1⟩) [] [{ config := {} }] fresh call)).tail
      (.handles Engine.Stub.engine (.epoch 1) (submit ⟨2⟩) [s.queue] [] fresh' call')
  have atRest : Queue.loneSwarm.AtRest :=
    ⟨rfl, fun agent hmem => by cases List.mem_singleton.1 hmem; exact ⟨rfl, nofun⟩⟩
  exact ⟨_, run, active, pending, Run.exclusive atRest run⟩

end Fleet

end JobSwarm
