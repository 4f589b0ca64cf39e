import JobSwarm.Event.Basic
import JobSwarm.Selection
import JobSwarm.Swarm.Error
import JobSwarm.Swarm.Registry
import JobSwarm.Task

/-!
# The swarm

A swarm keeps the agents. Whoever acquires an agent holds a claim on it until it is released. Calls
announce every change of an agent's status, and a change of the swarm's health when its level
moves. A call that stops at an overflow leaves what it had done by then.

Results:

* `agents_modifyAgent`: what a change of one agent makes of all agents.
* `agent?_modify_self`: a changed agent is found changed.
* `Session.enroll_eq_error`, `Session.enroll_eq_ok`: a roster makes a registry when no identifier in
  it is repeated.
-/

namespace JobSwarm

open Time (Instant)

/-- A registry of agents, and what is noted of them (`AgentSwarm`). -/
structure Swarm extends Swarm.Registry where
  config : Swarm.Config
  initialized : Bool := false
  /-- The agents that were acquired and not yet released, whatever their status. -/
  claimed : List Agent.Id := []
  /-- The last level that was reached. -/
  level : Option Swarm.Level := none
  /-- The last summary. -/
  health : Swarm.Health := {}

namespace Swarm

/-- A swarm with no agents (`new`). -/
def empty (config : Config) : Swarm :=
  { config := config }

/-- The agent of an identifier. -/
def agent? (swarm : Swarm) (id : Agent.Id) : Option Agent :=
  swarm.toRegistry.agent? id

/-- Whether an agent of the catalog has a capability, whatever its status (`supports`). -/
def supports (swarm : Swarm) (capability : String) : Bool :=
  swarm.agents.any fun agent => agent.capability == capability

/-- The agent to hand out for a capability. -/
def choice? (swarm : Swarm) (capability : String) : Option Agent :=
  (Selection.choose capability (swarm.agents.map .ofAgent)
    (.ofFlag swarm.config.fallbackToDegraded)).bind fun selection => swarm.agent? selection.agentId

/-- Changes the agent of an identifier. -/
def modifyAgent (swarm : Swarm) (id : Agent.Id) (change : Agent → Agent) : Swarm :=
  { swarm with toRegistry := swarm.toRegistry.modify id change }

/-- Notes that an agent was handed out for a job. -/
def claim (swarm : Swarm) (id : Agent.Id) (job : Option Job.Id) : Swarm :=
  { swarm.modifyAgent id fun agent => { agent with status := .busy, currentTask := job } with
    claimed := swarm.claimed.insert id }

/-- Whether a degraded agent has rested long enough. -/
def rested (config : Config) (now : Instant) (agent : Agent) : Bool :=
  agent.status == .degraded &&
    agent.degradedSince.all fun since => decide ((config.cooldown : Int) ≤ now.since since)

/-- An agent with its failures forgotten. -/
def forgiven (agent : Agent) : Agent :=
  { agent with status := .idle, failureStreak := 0, degradedSince := none }

/-- A swarm whose degraded agents have returned to idle, those that have rested. -/
def recovered (swarm : Swarm) (now : Instant) : Swarm :=
  let recover (agent : Agent) := if rested swarm.config now agent then forgiven agent else agent
  { swarm with
    toRegistry := swarm.toRegistry.map recover fun agent => by dsimp only [recover]; split <;> rfl }

/-- A swarm during a call, with what has been announced, oldest first. -/
structure Session where
  swarm : Swarm
  announced : List Event.Notice := []

namespace Session

/-- Announces a notice. -/
def announce (notice : Event.Notice) : Step Session Unit :=
  modify fun s => { s with announced := s.announced ++ [notice] }

/-- Announces that an agent changed its status (`status_changed`). -/
def announceStatus (id : Agent.Id) (old new : Agent.Status) : Step Session Unit :=
  announce (.agentStatusChanged id old new)

/-- Changes the swarm. -/
def modifySwarm (change : Swarm → Swarm) : Step Session Unit :=
  modify fun s => { s with swarm := change s.swarm }

/-- Sums up the agents anew, and announces the summary if the level has moved (`refresh_health`). -/
def refreshHealth : Step Session Unit := do
  let s ← get
  let health ← Step.ofSum (Health.ofAgents s.swarm.config s.swarm.agents)
  modifySwarm fun swarm => { swarm with level := some health.level, health := health }
  if s.swarm.level.any (· != health.level) then announce (.swarmHealthChanged health)

/-! ## Agents come into being -/

/-- The agents of a catalog by identifier and entry, in order. -/
def roster (definitions : List Agent.Definition) : List (Agent.Id × Agent.Definition) :=
  definitions.flatMap fun definition => definition.ids.map (·, definition)

/-- The first identifier that has come before; `seen` holds those that came before. -/
def firstRepeated? (seen : List Agent.Id) : List Agent.Id → Option Agent.Id
  | [] => none
  | id :: rest => if seen.contains id then some id else firstRepeated? (id :: seen) rest

/-- The agents of a roster. -/
def enlist (roster : List (Agent.Id × Agent.Definition)) (now : Instant) : List Agent :=
  roster.zipIdx.map fun ((id, definition), place) =>
    .fresh id definition.tier definition.capability (.ofNat place) now

theorem firstRepeated?_eq_none {seen ids : List Agent.Id}
    (h : firstRepeated? seen ids = none) : ids.Nodup ∧ ∀ id ∈ ids, id ∉ seen := by
  induction ids generalizing seen with
  | nil => exact ⟨.nil, nofun⟩
  | cons id rest ih =>
    rw [firstRepeated?] at h
    split at h
    · cases h
    · next fresh =>
      obtain ⟨unique, unseen⟩ := ih h
      have hnew : id ∉ rest := fun hmem => unseen id hmem List.mem_cons_self
      refine ⟨List.nodup_cons.2 ⟨hnew, unique⟩, fun other hmem => ?_⟩
      rcases List.mem_cons.1 hmem with rfl | hmem
      · simpa using fresh
      · exact fun hseen => unseen other hmem (List.mem_cons_of_mem _ hseen)

theorem enlist_ids (listed : List (Agent.Id × Agent.Definition)) (now : Instant) :
    (enlist listed now).map (·.id) = listed.map (·.1) := by
  rw [enlist, List.map_map]
  have ids : (fun agent : Agent => agent.id) ∘
      (fun (((id, definition), place) : (Agent.Id × Agent.Definition) × Nat) =>
        Agent.fresh id definition.tier definition.capability (.ofNat place) now) =
      (·.1) ∘ (·.1) := rfl
  rw [ids, ← List.map_map, List.zipIdx_map_fst]

/-- The registry of a roster, or the first identifier that is repeated in it. -/
def enroll (listed : List (Agent.Id × Agent.Definition)) (now : Instant) :
    Except Agent.Id Registry :=
  match h : firstRepeated? [] (listed.map (·.1)) with
  | some id => .error id
  | none =>
    .ok (.ofAgents (enlist listed now) (enlist_ids listed now ▸ (firstRepeated?_eq_none h).1))

theorem enroll_eq_error {listed : List (Agent.Id × Agent.Definition)} {now : Instant}
    {id : Agent.Id} :
    enroll listed now = .error id ↔ firstRepeated? [] (listed.map (·.1)) = some id := by
  rw [enroll]
  split <;> simp_all

theorem enroll_eq_ok {listed : List (Agent.Id × Agent.Definition)} {now : Instant}
    {registry : Registry} (h : enroll listed now = .ok registry) :
    ∃ once, registry = .ofAgents (enlist listed now) once := by
  rw [enroll] at h
  split at h
  · cases h
  · cases h
    exact ⟨_, rfl⟩

/-- Fills the registry from a catalog, once (`initialize`). All agents start idle. -/
def populate (definitions : List Agent.Definition) (now : Instant) :
    Step Session (Except Error Unit) := do
  let s ← get
  if s.swarm.initialized then return .error .alreadyInitialized
  match enroll (roster definitions) now with
  | .error id => return .error (.duplicateAgent id)
  | .ok registry =>
    let health ← Step.ofSum (Health.ofAgents s.swarm.config registry.agents)
    modifySwarm fun swarm =>
      { swarm with toRegistry := registry, initialized := true, level := some health.level,
                   health := health }
    return .ok ()

/-! ## Agents recover -/

/-- Returns the degraded agents that have rested until `now` to idle, and names them
(`recover_locked`). -/
def recover (now : Instant) : Step Session (List Agent.Id) := do
  let s ← get
  let ids := (s.swarm.agents.filter (rested s.swarm.config now)).map (·.id)
  if ids.isEmpty then return []
  modifySwarm (·.recovered now)
  ids.forM fun id => announceStatus id .degraded .idle
  refreshHealth
  return ids

/-! ## Agents are handed out -/

/-- Claims an agent for a capability, and notes the job on it (`acquire_locked`). Agents that have
rested recover first. -/
def acquire (capability : String) (job : Option Job.Id) (now : Instant) :
    Step Session (Option Agent.Id) := do
  if !(← get).swarm.initialized then return none
  discard (recover now)
  match (← get).swarm.choice? capability with
  | none => return none
  | some agent =>
    modifySwarm (·.claim agent.id job)
    announceStatus agent.id agent.status .busy
    refreshHealth
    return some agent.id

/-- Claims an agent for a task (`acquire_for`). -/
def acquireFor (task : Task) (now : Instant) : Step Session (Option Agent.Id) :=
  acquire task.capability (some task.jobId) now

/-! ## Agents are given back -/

/-- Adds one to a count of tasks. -/
def countTask (get : Agent.Metrics → UInt64) (put : Agent.Metrics → UInt64 → Agent.Metrics) :
    Step Agent Unit := do
  let count ← Step.ofSum (addWord (get (← MonadState.get).metrics) 1)
  modify fun agent => { agent with metrics := put agent.metrics count }

/-- Adds the duration of a task. -/
def countDuration (duration : UInt64) : Step Agent Unit := do
  let total ← Step.ofSum (addWord (← get).metrics.totalDurationMs duration)
  modify fun agent => { agent with metrics := { agent.metrics with totalDurationMs := total } }

/-- Counts an outcome on an agent. A success ends the row of failures, a failure lengthens it. -/
def tally : Task.Outcome → Step Agent Unit
  | .succeeded duration => do
    countTask (·.tasksCompleted) fun metrics count => { metrics with tasksCompleted := count }
    countDuration duration
    modify fun agent => { agent with failureStreak := 0 }
  | .failed duration => do
    countTask (·.tasksFailed) fun metrics count => { metrics with tasksFailed := count }
    countDuration duration
    let streak ← Step.ofSum (addHalfWord (← get).failureStreak 1)
    modify fun agent => { agent with failureStreak := streak }
  | .cancelled =>
    countTask (·.tasksCancelled) fun metrics count => { metrics with tasksCancelled := count }

/-- When the rest of an agent begins: anew after a failure, else when it began before. -/
def restBegins (agent : Agent) (outcome : Task.Outcome) (now : Instant) : Option Instant :=
  match outcome with
  | .failed _ => some now
  | _ => agent.degradedSince.or (some now)

/-- The agent after its task, the outcome being counted already. One that was taken offline
meanwhile stays offline. -/
def discharged (agent : Agent) (outcome : Task.Outcome) (threshold : UInt32) (now : Instant) :
    Agent :=
  let agent := { agent with currentTask := none }
  if agent.status = .busy then
    if threshold ≤ agent.failureStreak then
      { agent with status := .degraded, degradedSince := restBegins agent outcome now }
    else { agent with status := .idle, degradedSince := none }
  else agent

/-- Takes back a claimed agent after its task, and tells its new status: idle, or degraded after too
many failures in a row (`release`). -/
def release (id : Agent.Id) (outcome : Task.Outcome) (now : Instant) :
    Step Session (Except Error Agent.Status) := do
  let s ← get
  match s.swarm.agent? id with
  | none => return .error (.agentNotFound id)
  | some agent =>
    if !s.swarm.claimed.contains id then
      return .error (.invalidState id agent.status .release)
    modifySwarm fun swarm => { swarm with claimed := swarm.claimed.erase id }
    Step.onPart (fun s => (s.swarm.agent? id).getD agent)
      (fun counted s => { s with swarm := s.swarm.modifyAgent id fun _ => counted })
      (tally outcome)
    let counted := ((← get).swarm.agent? id).getD agent
    let after := discharged counted outcome s.swarm.config.failureThreshold now
    modifySwarm fun swarm => swarm.modifyAgent id fun _ => after
    if agent.status != after.status then announceStatus id agent.status after.status
    refreshHealth
    return .ok after.status

/-! ## Agents are taken out of rotation and put back -/

/-- Takes an agent out of rotation (`mark_offline`). -/
def markOffline (id : Agent.Id) : Step Session (Except Error Unit) := do
  match (← get).swarm.agent? id with
  | none => return .error (.agentNotFound id)
  | some agent =>
    if agent.status = .offline then return .error (.invalidState id agent.status .goOffline)
    modifySwarm fun swarm => swarm.modifyAgent id fun a => { a with status := .offline }
    announceStatus id agent.status .offline
    refreshHealth
    return .ok ()

/-- Brings an offline agent back, with its failures forgotten (`mark_online`). It is busy if it is
still claimed. -/
def markOnline (id : Agent.Id) (now : Instant) : Step Session (Except Error Unit) := do
  let swarm := (← get).swarm
  match swarm.agent? id with
  | none => return .error (.agentNotFound id)
  | some agent =>
    if agent.status ≠ .offline then return .error (.invalidState id agent.status .comeOnline)
    let status : Agent.Status := if swarm.claimed.contains id then .busy else .idle
    modifySwarm fun swarm => swarm.modifyAgent id fun a =>
      { forgiven a with status := status, metrics := { a.metrics with onlineSince := now } }
    announceStatus id .offline status
    refreshHealth
    return .ok ()

/-- Returns a degraded agent to idle before its time (`reset`). -/
def reset (id : Agent.Id) : Step Session (Except Error Unit) := do
  match (← get).swarm.agent? id with
  | none => return .error (.agentNotFound id)
  | some agent =>
    if agent.status ≠ .degraded then return .error (.invalidState id agent.status .reset)
    modifySwarm fun swarm => swarm.modifyAgent id forgiven
    announceStatus id .degraded .idle
    refreshHealth
    return .ok ()

end Session

/-! ## Lookups -/

/-- No two agents have the same identifier. -/
theorem ids_once (swarm : Swarm) : (swarm.agents.map (·.id)).Nodup :=
  swarm.toRegistry.ids_once

variable {swarm : Swarm} {id : Agent.Id} {agent : Agent}

theorem agent?_eq_find? (swarm : Swarm) (id : Agent.Id) :
    swarm.agent? id = swarm.agents.find? fun agent => agent.id == id :=
  swarm.toRegistry.agent?_eq_find? id

/-- What is looked up is found by a search. -/
theorem find?_of_agent? (found : swarm.agent? id = some agent) :
    (swarm.agents.find? fun agent => agent.id == id) = some agent :=
  (swarm.agent?_eq_find? id).symm.trans found

theorem mem_of_agent? (found : swarm.agent? id = some agent) :
    agent ∈ swarm.agents ∧ agent.id = id :=
  ⟨List.mem_of_find?_eq_some (find?_of_agent? found),
    by simpa using List.find?_some (find?_of_agent? found)⟩

theorem agent?_eq_none : swarm.agent? id = none ↔ ∀ agent ∈ swarm.agents, agent.id ≠ id := by
  simp [agent?_eq_find?]

theorem agent?_of_mem (swarm : Swarm) (mem : agent ∈ swarm.agents) :
    swarm.agent? agent.id = some agent := by
  obtain ⟨place, here⟩ := List.getElem?_of_mem mem
  rw [agent?, Registry.agent?, Registry.lookup_of_getElem? here, Option.bind_some, here]

/-- An identifier belongs to one agent. -/
theorem eq_of_agent? {other : Agent} (found : swarm.agent? id = some agent)
    (mem : other ∈ swarm.agents) (same : other.id = id) : other = agent := by
  rw [← same, swarm.agent?_of_mem mem] at found
  exact Option.some.inj found

/-- What a change of one agent makes of all agents. -/
theorem agents_modifyAgent (change : Agent → Agent)
    (keeps : ∀ agent, agent.id = id → (change agent).id = id) :
    (swarm.modifyAgent id change).agents =
      swarm.agents.map fun agent => if agent.id = id then change agent else agent :=
  Registry.agents_modify change keeps

/-- A change of one agent leaves all identifiers where they are. -/
theorem ids_modifyAgent (swarm : Swarm) (id : Agent.Id) (change : Agent → Agent) :
    (swarm.modifyAgent id change).agents.map (·.id) = swarm.agents.map (·.id) :=
  Registry.ids_eq_of_index rfl

theorem agents_claim (swarm : Swarm) (id : Agent.Id) (job : Option Job.Id) :
    (swarm.claim id job).agents = swarm.agents.map fun agent =>
      if agent.id = id then { agent with status := .busy, currentTask := job } else agent :=
  agents_modifyAgent _ fun _ own => own

theorem agent?_modify_self (swarm : Swarm) (id : Agent.Id) (change : Agent → Agent)
    (keeps : ∀ agent, agent.id = id → (change agent).id = id) :
    (swarm.modifyAgent id change).agent? id = (swarm.agent? id).map change := by
  rw [agent?_eq_find?, agent?_eq_find?, agents_modifyAgent _ keeps]
  induction swarm.agents with
  | nil => rfl
  | cons a rest ih =>
    by_cases h : a.id = id
    · simp [h, keeps a h]
    · simp [h, ih]

end Swarm

end JobSwarm
