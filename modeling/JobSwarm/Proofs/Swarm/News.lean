import JobSwarm.Proofs.Swarm.Registry
import Mathlib.Logic.Relation

/-!
# News of a swarm

What a swarm announces since it got its agents mirrors its registry. The status of each agent can be
replayed from the changes that were announced, and the level of health from the summaries.

Results:

* `Chronicle.change_at`, `Chronicle.crossing_at`: what news say that follow on each other.
* `Shifts.alter`, `Shifts.recovered`: how one call changes the statuses, and by which changes.
* `Call.tells`: whatever is called, each change of the registry is announced, then it is summed up
  anew, and the summary is announced if the level has moved. A refusal changes nothing.
* `Session.Reflects.updates`: one such change keeps the reflection true.
* `Life.mirrors`: so it is true after any calls.
-/

namespace JobSwarm.Swarm

open Time (Instant)

/-! ## Replaying the news -/

/-- The changes that an agent's status can go through. -/
inductive Passes : Agent.Status → Agent.Status → Prop
  | taken : Passes .idle .busy
  | takenDegraded : Passes .degraded .busy
  | freed : Passes .busy .idle
  | degraded : Passes .busy .degraded
  | recovered : Passes .degraded .idle
  | leaves {old : Agent.Status} (online : old ≠ .offline) : Passes old .offline
  | returns : Passes .offline .idle
  | returnsHeld : Passes .offline .busy

theorem Passes.ne {old new : Agent.Status} (h : Passes old new) : old ≠ new := by
  cases h with
  | leaves online => exact online
  | _ => decide

/-- The status of an agent after a notice. -/
def statusAfter (id : Agent.Id) (status : Agent.Status) : Event.Notice → Agent.Status
  | .agentStatusChanged other _ new => if other = id then new else status
  | _ => status

/-- The status of an agent after some news, if it was idle at first. -/
def replayStatus (id : Agent.Id) (news : List Event.Notice) : Agent.Status :=
  news.foldl (statusAfter id) .idle

/-- The level after a notice. -/
def levelAfter (level : Level) : Event.Notice → Level
  | .swarmHealthChanged health => health.level
  | _ => level

/-- The level after some news. -/
def replayLevel (first : Level) (news : List Event.Notice) : Level :=
  news.foldl levelAfter first

section Folds

variable {id : Agent.Id} {status : Agent.Status} {changes : List Change}

/-- An agent that no change is about keeps its status. -/
theorem foldl_of_not_mem (h : id ∉ changes.map (·.id)) :
    (changes.map Change.notice).foldl (statusAfter id) status = status := by
  induction changes generalizing status with
  | nil => rfl
  | cons change rest ih =>
    rw [List.map_cons, List.mem_cons, not_or] at h
    rw [List.map_cons, List.foldl_cons, ih h.2]
    show (if change.id = id then change.new else status) = status
    rw [if_neg (Ne.symm h.1)]

/-- An agent that one change is about has its new status. -/
theorem foldl_of_mem {change : Change} (once : (changes.map (·.id)).Nodup)
    (hmem : change ∈ changes) :
    (changes.map Change.notice).foldl (statusAfter change.id) status = change.new := by
  induction changes generalizing status with
  | nil => cases hmem
  | cons first rest ih =>
    rw [List.map_cons, List.nodup_cons] at once
    rw [List.map_cons, List.foldl_cons]
    rcases List.mem_cons.1 hmem with rfl | hmem
    · rw [foldl_of_not_mem once.1]
      show (if change.id = change.id then change.new else status) = change.new
      rw [if_pos rfl]
    · exact ih once.2 hmem

/-- Changes of agents leave the level as it is. -/
theorem foldl_level (level : Level) :
    (changes.map Change.notice).foldl levelAfter level = level := by
  induction changes with
  | nil => rfl
  | cons change rest ih => exact ih

theorem foldl_levelNews (before : Option Level) (health : Health) :
    (levelNews before health).foldl (statusAfter id) status = status := by
  unfold levelNews
  split <;> rfl

end Folds

/-- News in which each change of an agent starts from the status that the agent has by then, and
each summary from another level. -/
inductive Chronicle (ids : List Agent.Id) (first : Level) : List Event.Notice → Prop
  | begins : Chronicle ids first []
  | changes {news : List Event.Notice} {id : Agent.Id} {new : Agent.Status}
      (earlier : Chronicle ids first news) (known : id ∈ ids)
      (passes : Passes (replayStatus id news) new) :
      Chronicle ids first (news ++ [.agentStatusChanged id (replayStatus id news) new])
  | crosses {news : List Event.Notice} {health : Health} (earlier : Chronicle ids first news)
      (moved : health.level ≠ replayLevel first news) :
      Chronicle ids first (news ++ [.swarmHealthChanged health])

namespace Chronicle

variable {ids : List Agent.Id} {first : Level} {news : List Event.Notice}

/-- Changes of different agents may follow, each from the status that the agent has. -/
theorem append_changes {changes : List Change} (chronicle : Chronicle ids first news)
    (once : (changes.map (·.id)).Nodup)
    (lawful : ∀ change ∈ changes, change.id ∈ ids ∧ Passes change.old change.new ∧
      replayStatus change.id news = change.old) :
    Chronicle ids first (news ++ changes.map Change.notice) := by
  induction changes generalizing news with
  | nil => rwa [List.map_nil, List.append_nil]
  | cons change rest ih =>
    rw [List.map_cons, List.nodup_cons] at once
    obtain ⟨known, passes, status⟩ := lawful change List.mem_cons_self
    rw [← status] at passes
    have longer : Chronicle ids first (news ++ [change.notice]) := by
      rw [Change.notice, ← status]
      exact chronicle.changes known passes
    have shape : news ++ (change :: rest).map Change.notice =
        news ++ [change.notice] ++ rest.map Change.notice := by simp
    rw [shape]
    refine ih longer once.2 fun other hmem => ?_
    obtain ⟨known', passes', status'⟩ := lawful other (List.mem_cons_of_mem _ hmem)
    refine ⟨known', passes', ?_⟩
    have apart : change.id ≠ other.id := fun heq =>
      once.1 (heq ▸ List.mem_map_of_mem hmem)
    rw [← status', replayStatus, List.foldl_append]
    show (if change.id = other.id then _ else _) = _
    rw [if_neg apart, replayStatus]

/-- What a chronicle says of each change in it. -/
theorem change_at (chronicle : Chronicle ids first news) {earlier later : List Event.Notice}
    {id : Agent.Id} {old new : Agent.Status}
    (h : news = earlier ++ .agentStatusChanged id old new :: later) :
    id ∈ ids ∧ old = replayStatus id earlier ∧ Passes old new := by
  induction chronicle generalizing later with
  | begins => simp at h
  | changes _ known passes ih =>
    rcases Keyed.concat_eq h with ⟨rfl, heq, -⟩ | ⟨between, -, heq⟩
    · cases heq
      exact ⟨known, rfl, passes⟩
    · exact ih heq
  | crosses _ _ ih =>
    rcases Keyed.concat_eq h with ⟨-, heq, -⟩ | ⟨between, -, heq⟩
    · cases heq
    · exact ih heq

/-- What a chronicle says of each summary in it. -/
theorem crossing_at (chronicle : Chronicle ids first news) {earlier later : List Event.Notice}
    {health : Health} (h : news = earlier ++ .swarmHealthChanged health :: later) :
    health.level ≠ replayLevel first earlier := by
  induction chronicle generalizing later with
  | begins => simp at h
  | changes _ _ _ ih =>
    rcases Keyed.concat_eq h with ⟨-, heq, -⟩ | ⟨between, -, heq⟩
    · cases heq
    · exact ih heq
  | crosses _ moved ih =>
    rcases Keyed.concat_eq h with ⟨rfl, heq, -⟩ | ⟨between, -, heq⟩
    · cases heq
      exact moved
    · exact ih heq

end Chronicle

/-! ## One change of the registry -/

/-- From one registry to another: each agent of these changes went from its old status to its new
one, and all others kept theirs. -/
structure Shifts (before : Swarm) (changes : List Change) (after : Swarm) : Prop where
  config : after.config = before.config
  initialized : after.initialized = before.initialized
  level : after.level = before.level
  ids : after.agents.map (·.id) = before.agents.map (·.id)
  once : (changes.map (·.id)).Nodup
  lawful : ∀ change ∈ changes, Passes change.old change.new ∧
    ∃ agent ∈ before.agents, agent.id = change.id ∧ agent.status = change.old
  statuses : ∀ agent ∈ after.agents, ∃ old ∈ before.agents, old.id = agent.id ∧
    agent.status = (changes.map Change.notice).foldl (statusAfter agent.id) old.status

variable {swarm : Swarm} {s t : Session}

theorem shift_of_passes {id : Agent.Id} {old new : Agent.Status} (h : Passes old new) :
    Session.shift id old new = [⟨id, old, new⟩] := by
  rw [Session.shift, if_neg h.ne]

namespace Shifts

/-- One agent is changed. -/
theorem alter {id : Agent.Id} {agent : Agent} (change : Agent → Agent)
    (found : swarm.agent? id = some agent) (keeps : ∀ other, other.id = id → (change other).id = id)
    (passes : agent.status ≠ (change agent).status →
      Passes agent.status (change agent).status) :
    swarm.Shifts (Session.shift id agent.status (change agent).status)
      (swarm.modifyAgent id change) where
  config := rfl
  initialized := rfl
  level := rfl
  ids := swarm.ids_modifyAgent id change
  once := by
    unfold Session.shift
    split
    · exact .nil
    · exact List.nodup_singleton _
  lawful := by
    intro entry hmem
    obtain ⟨hagent, hid⟩ := mem_of_agent? found
    unfold Session.shift at hmem
    split at hmem
    · cases hmem
    · next moved =>
      cases List.mem_singleton.1 hmem
      exact ⟨passes moved, agent, hagent, hid, rfl⟩
  statuses := by
    intro after hmem
    rw [agents_modifyAgent _ keeps] at hmem
    obtain ⟨old, hold, rfl⟩ := List.mem_map.1 hmem
    refine ⟨old, hold, ?_⟩
    split
    · next same =>
      have alike : old = agent := eq_of_agent? found hold same
      refine ⟨same.trans (keeps old same).symm, ?_⟩
      rw [keeps old same, alike]
      unfold Session.shift
      split
      · next still => exact still.symm
      · show _ = if id = id then _ else _
        rw [if_pos rfl]
    · next apart =>
      refine ⟨rfl, (foldl_of_not_mem ?_).symm⟩
      unfold Session.shift
      split
      · exact List.not_mem_nil
      · exact fun hid => apart (List.mem_singleton.1 hid)

/-- Claims are nothing to the statuses. -/
theorem claiming {before after : Swarm} {changes : List Change} (h : before.Shifts changes after)
    (claimed : List Agent.Id) : before.Shifts changes { after with claimed := claimed } :=
  ⟨h.config, h.initialized, h.level, h.ids, h.once, h.lawful, h.statuses⟩

/-- Those that have rested are idle. -/
theorem recovered (swarm : Swarm) (now : Instant) :
    swarm.Shifts (Session.recoveries swarm now) (swarm.recovered now) := by
  have ids : (Session.recoveries swarm now).map (·.id) =
      (swarm.agents.filter (rested swarm.config now)).map (·.id) := by
    rw [Session.recoveries, List.map_map]
    rfl
  have once : ((Session.recoveries swarm now).map (·.id)).Nodup := by
    rw [ids]
    exact swarm.ids_once.sublist (List.filter_sublist.map _)
  refine ⟨rfl, rfl, rfl, recovered_ids swarm now, once, ?_, ?_⟩
  · intro change hmem
    obtain ⟨agent, hagent, rfl⟩ := List.mem_map.1 hmem
    obtain ⟨hagent, hrested⟩ := List.mem_filter.1 hagent
    exact ⟨.recovered, agent, hagent, rfl, Session.degraded_of_rested hrested⟩
  · intro after hmem
    obtain ⟨old, hold, rfl⟩ := List.mem_map.1 hmem
    refine ⟨old, hold, ?_⟩
    split
    · next hrested =>
      have among : (⟨old.id, .degraded, .idle⟩ : Change) ∈ Session.recoveries swarm now :=
        List.mem_map.2 ⟨old, List.mem_filter.2 ⟨hold, hrested⟩, rfl⟩
      exact ⟨rfl, (foldl_of_mem once among).symm⟩
    · next tired =>
      refine ⟨rfl, (foldl_of_not_mem fun hid => tired ?_).symm⟩
      rw [ids] at hid
      obtain ⟨other, hother, same⟩ := List.mem_map.1 hid
      obtain ⟨hother, hrested⟩ := List.mem_filter.1 hother
      rwa [← Keyed.eq_of_key_eq swarm.ids_once hother hold same]

end Shifts

/-! ## What calls tell -/

namespace Session

/-- One change of the registry: agents go to other statuses, these changes are announced, and the
agents are summed up anew. -/
def Updates (s t : Session) : Prop :=
  ∃ swarm changes, s.swarm.Shifts changes swarm ∧ s.Renews swarm changes t

open Relation (ReflTransGen)

theorem recover_updates {now : Instant} {ids : List Agent.Id}
    (h : recover now s = .ok ids t) : ReflTransGen Updates s t := by
  rcases recover_renews h with ⟨-, rfl⟩ | renews
  · exact .refl
  · exact .single ⟨_, _, .recovered _ now, renews⟩

/-- Whoever is chosen was idle or degraded. -/
theorem passes_of_choice {capability : String} {agent : Agent}
    (h : swarm.choice? capability = some agent) :
    swarm.agent? agent.id = some agent ∧ Passes agent.status .busy := by
  obtain ⟨chosen, hmem, hid, -, available⟩ := choice?_eq_some h
  obtain ⟨selection, -, found⟩ := Option.bind_eq_some_iff.1 h
  have same : chosen = agent :=
    eq_of_agent? found hmem (hid.trans (agent?_id found))
  rw [← agent?_id found] at found
  refine ⟨found, ?_⟩
  rw [← same]
  rcases available with idle | ⟨degraded, -⟩
  · rw [idle]
    exact .taken
  · rw [degraded]
    exact .takenDegraded

theorem acquire_updates {capability : String} {job : Option Job.Id} {now : Instant}
    {given : Option Agent.Id}
    (h : acquire capability job now s = .ok given t) : ReflTransGen Updates s t := by
  obtain ⟨-, -, rfl⟩ | ⟨u, ids, -, recovers, ends⟩ := acquire_renews h
  · exact .refl
  have first := recover_updates recovers
  obtain ⟨-, -, rfl⟩ | ⟨agent, -, choice, renews⟩ := ends
  · exact first
  obtain ⟨found, passes⟩ := passes_of_choice choice
  have shifts := Shifts.alter (fun agent => { agent with status := .busy, currentTask := job })
    found (fun _ hid => hid) fun _ => passes
  rw [shift_of_passes passes] at shifts
  exact first.tail ⟨_, _, shifts.claiming _, renews⟩

/-- An agent that is discharged was busy, or stays as it is. -/
theorem discharged_passes (agent : Agent) (outcome : Task.Outcome) (threshold : UInt32)
    (now : Instant) (moved : agent.status ≠ (discharged agent outcome threshold now).status) :
    Passes agent.status (discharged agent outcome threshold now).status := by
  unfold discharged at moved ⊢
  dsimp only at moved ⊢
  split at moved
  · next busy =>
    rw [if_pos busy, busy]
    split
    · exact .degraded
    · exact .freed
  · exact absurd rfl moved

theorem release_updates {id : Agent.Id} {outcome : Task.Outcome} {now : Instant}
    {answer : Except Error Agent.Status}
    (h : release id outcome now s = .ok answer t) :
    (∃ error, answer = .error error) ∧ t = s ∨ (∃ status, answer = .ok status) ∧ s.Updates t := by
  obtain ⟨refused, -, rfl⟩ | ⟨agent, counted, found, -, counts, answers, renews⟩ :=
    release_renews h
  · exact .inl ⟨refused, rfl⟩
  refine .inr ⟨⟨_, answers⟩, ?_⟩
  have status : counted.status = agent.status := by rw [tally_ok counts]
  have same : counted.id = id := by rw [tally_ok counts, agent?_id found]
  have passes := discharged_passes counted outcome s.swarm.config.failureThreshold now
  have hid := discharged_id counted outcome s.swarm.config.failureThreshold now
  set after := discharged counted outcome s.swarm.config.failureThreshold now
  rw [status] at passes
  rw [same] at hid
  have shifts := Shifts.alter (fun _ => after) found (fun _ _ => hid) passes
  refine ⟨_, _, ?_, renews⟩
  rw [returned, hid]
  exact shifts.claiming _

theorem markOffline_updates {id : Agent.Id} {answer : Except Error Unit}
    (h : markOffline id s = .ok answer t) :
    (∃ error, answer = .error error) ∧ t = s ∨ answer = .ok () ∧ s.Updates t := by
  obtain refused | ⟨answers, agent, found, online, renews⟩ := markOffline_renews h
  · exact .inl refused
  have shifts := Shifts.alter (fun agent => { agent with status := .offline })
    found (fun _ hid => hid) fun _ => .leaves online
  rw [shift_of_passes (.leaves online)] at shifts
  exact .inr ⟨answers, _, _, shifts, renews⟩

theorem markOnline_updates {id : Agent.Id} {now : Instant} {answer : Except Error Unit}
    (h : markOnline id now s = .ok answer t) :
    (∃ error, answer = .error error) ∧ t = s ∨ answer = .ok () ∧ s.Updates t := by
  obtain ⟨refused, same, -⟩ | ⟨answers, agent, found, offline, renews⟩ := markOnline_renews h
  · exact .inl ⟨refused, same⟩
  have passes : Passes .offline (if s.swarm.claimed.contains id then .busy else .idle) := by
    split
    · exact .returnsHeld
    · exact .returns
  have shifts := Shifts.alter (backOnline (s.swarm.claimed.contains id) now)
    found (fun _ hid => hid) fun _ => offline ▸ passes
  rw [offline] at shifts
  rw [← shift_of_passes passes] at renews
  exact .inr ⟨answers, _, _, shifts, renews⟩

theorem reset_updates {id : Agent.Id} {answer : Except Error Unit} (h : reset id s = .ok answer t) :
    (∃ error, answer = .error error) ∧ t = s ∨ answer = .ok () ∧ s.Updates t := by
  obtain refused | ⟨answers, agent, found, degraded, renews⟩ := reset_renews h
  · exact .inl refused
  have shifts := Shifts.alter forgiven found (fun _ hid => hid)
    fun _ => degraded ▸ .recovered
  rw [degraded] at shifts
  rw [← shift_of_passes .recovered] at renews
  exact .inr ⟨answers, _, _, shifts, renews⟩

end Session

/-- The answers that are refusals. -/
inductive Answer.Refusal : Answer → Prop
  | done (error : Error) : Refusal (.done (.error error))
  | returned (error : Error) : Refusal (.returned (.error error))

open Relation (ReflTransGen)

/-- Whatever is called, the registry is filled, or each change of it is announced and summed up, and
a refusal changes nothing. -/
theorem Call.fills_or_tells {call : Call} {answer : Answer} (registered : s.swarm.Registered)
    (performs : call.perform s = .ok answer t) :
    (∃ definitions now, Session.populate definitions now s = .ok (.ok ()) t) ∨
      ReflTransGen Session.Updates s t ∧ (answer.Refusal → t = s) := by
  -- what all calls have in common that are refused or make one change
  have once {refused accepted : Prop} (h : refused ∧ t = s ∨ accepted ∧ s.Updates t)
      (refusal : answer.Refusal → ¬accepted) :
      ReflTransGen Session.Updates s t ∧ (answer.Refusal → t = s) := by
    obtain ⟨-, rfl⟩ | ⟨accepted, updates⟩ := h
    · exact ⟨.refl, fun _ => rfl⟩
    · exact ⟨.single updates, fun h => absurd accepted (refusal h)⟩
  cases call with
  | populate definitions now =>
    obtain ⟨_, fills, rfl⟩ := Step.map_eq_ok.1 performs
    obtain ⟨-, rfl⟩ | ⟨rfl, -⟩ := Session.populate_fills fills
    · exact .inr ⟨.refl, fun _ => rfl⟩
    · exact .inl ⟨definitions, now, fills⟩
  | acquire capability now =>
    obtain ⟨_, acquires, rfl⟩ := Step.map_eq_ok.1 performs
    exact .inr ⟨Session.acquire_updates acquires, nofun⟩
  | acquireFor task now =>
    obtain ⟨_, acquires, rfl⟩ := Step.map_eq_ok.1 performs
    exact .inr ⟨Session.acquire_updates acquires, nofun⟩
  | release id outcome now =>
    obtain ⟨_, releases, rfl⟩ := Step.map_eq_ok.1 performs
    refine .inr (once (Session.release_updates releases) ?_)
    rintro ⟨⟩ ⟨_, accepted⟩
    cases accepted
  | markOffline id =>
    obtain ⟨_, marks, rfl⟩ := Step.map_eq_ok.1 performs
    refine .inr (once (Session.markOffline_updates marks) ?_)
    rintro ⟨⟩ accepted
    cases accepted
  | markOnline id now =>
    obtain ⟨_, marks, rfl⟩ := Step.map_eq_ok.1 performs
    refine .inr (once (Session.markOnline_updates marks) ?_)
    rintro ⟨⟩ accepted
    cases accepted
  | reset id =>
    obtain ⟨_, resets, rfl⟩ := Step.map_eq_ok.1 performs
    refine .inr (once (Session.reset_updates resets) ?_)
    rintro ⟨⟩ accepted
    cases accepted
  | recover now =>
    obtain ⟨_, recovers, rfl⟩ := Step.map_eq_ok.1 performs
    exact .inr ⟨Session.recover_updates recovers, nofun⟩

/-- Whatever is called on a swarm that has its agents, each change of the registry is announced and
summed up, and a refusal changes nothing. -/
theorem Call.tells {call : Call} {answer : Answer} (registered : s.swarm.Registered)
    (initialized : s.swarm.initialized = true) (performs : call.perform s = .ok answer t) :
    ReflTransGen Session.Updates s t ∧ (answer.Refusal → t = s) := by
  obtain ⟨_, _, fills⟩ | tells := call.fills_or_tells registered performs
  · obtain ⟨⟨_, refused⟩, -⟩ | ⟨-, before, -⟩ := Session.populate_fills fills
    · cases refused
    · rw [initialized] at before
      cases before
  · exact tells

/-! ## What the news reflect -/

/-- The four statuses are all that there are. -/
theorem Health.count_statuses (agents : List Agent) :
    agents.countP (fun agent => agent.status = .idle) +
          agents.countP (fun agent => agent.status = .busy) +
        agents.countP (fun agent => agent.status = .degraded) +
      agents.countP (fun agent => agent.status = .offline) = agents.length := by
  induction agents with
  | nil => rfl
  | cons agent rest ih =>
    simp only [List.countP_cons, List.length_cons]
    cases agent.status <;> simp <;> omega

/-- A summary that did not overflow counts the agents, and has the level of those that work. -/
theorem Health.ofAgents_ok {config : Config} {agents : List Agent} {health : Health}
    (h : ofAgents config agents = .ok health) :
    health.total = .ofNat agents.length ∧ health.idle = count agents .idle ∧
      health.busy = count agents .busy ∧ health.degraded = count agents .degraded ∧
      health.offline = count agents .offline ∧
      health.level = config.level (operational health.idle health.busy health.total) := by
  unfold ofAgents at h
  cases work : agents.foldlM addWork (0, 0) with
  | error overflow =>
    rw [work] at h
    cases h
  | ok sums =>
    rw [work] at h
    cases h
    exact ⟨rfl, rfl, rfl, rfl, rfl, rfl⟩

theorem Health.toNat_count {agents : List Agent} (fits : agents.length < UInt64.size)
    (status : Agent.Status) :
    (count agents status).toNat = agents.countP fun agent => agent.status = status :=
  UInt64.toNat_ofNat_of_lt' (Nat.lt_of_le_of_lt List.countP_le_length fits)

theorem Health.counts {config : Config} {agents : List Agent} {health : Health}
    (h : ofAgents config agents = .ok health) :
    health.idle + health.busy + health.degraded + health.offline = health.total := by
  obtain ⟨total, idle, busy, degraded, offline, -⟩ := ofAgents_ok h
  rw [total, idle, busy, degraded, offline, ← count_statuses agents]
  simp only [count, UInt64.ofNat_add]

/-- The counts add up without going round, if there are no more agents than a word can count. -/
theorem Health.counts_exact {config : Config} {agents : List Agent} {health : Health}
    (h : ofAgents config agents = .ok health) (fits : agents.length < UInt64.size) :
    health.idle.toNat + health.busy.toNat + health.degraded.toNat + health.offline.toNat =
      health.total.toNat := by
  obtain ⟨total, idle, busy, degraded, offline, -⟩ := ofAgents_ok h
  rw [total, idle, busy, degraded, offline, UInt64.toNat_ofNat_of_lt' fits]
  simp only [toNat_count fits, count_statuses]

namespace Session

/-- What the announcements reflect of a swarm that has its agents: the statuses, the last summary
and its level. -/
structure Reflects (first : Level) (s : Session) : Prop where
  registered : s.swarm.Registered
  initialized : s.swarm.initialized = true
  chronicle : Chronicle (s.swarm.agents.map (·.id)) first s.announced
  statuses : ∀ agent ∈ s.swarm.agents, agent.status = replayStatus agent.id s.announced
  summary : Health.ofAgents s.swarm.config s.swarm.agents = .ok s.swarm.health
  level : s.swarm.level = some s.swarm.health.level
  last : s.swarm.health.level = replayLevel first s.announced

namespace Reflects

variable {first : Level}

/-- A new registry reflects that nothing was announced. -/
theorem begins {definitions : List Agent.Definition} {now : Instant}
    (registered : s.swarm.Registered) (silent : s.announced = [])
    (fills : populate definitions now s = .ok (.ok ()) t) (level : t.swarm.level = some first) :
    t.Reflects first := by
  obtain ⟨⟨_, refused⟩, -⟩ | ⟨-, -, once, health, summary, rfl⟩ := populate_fills fills
  · cases refused
  have still := keeps_populate definitions now s registered
  rw [fills] at still
  refine ⟨still, rfl, ?_, ?_, summary, rfl, ?_⟩
  · rw [silent]
    exact .begins
  · intro agent hmem
    rw [silent]
    obtain ⟨_, -, rfl⟩ := List.mem_map.1 hmem
    rfl
  · rw [silent]
    exact Option.some.inj level

/-- One change of the registry, announced and summed up, is reflected. -/
theorem updates (h : s.Reflects first) (updated : s.Updates t) : t.Reflects first := by
  obtain ⟨swarm, changes, shifts, renews⟩ := updated
  have leads := renews.leads
  have ids : t.swarm.agents.map (·.id) = s.swarm.agents.map (·.id) := by
    rw [leads.agents, shifts.ids]
  have before : swarm.level = some s.swarm.health.level := shifts.level.trans h.level
  have level : replayLevel first (s.announced ++ changes.map Change.notice) =
      s.swarm.health.level := by
    rw [replayLevel, List.foldl_append, foldl_level, h.last, replayLevel]
  have chronicle : Chronicle (s.swarm.agents.map (·.id)) first
      (s.announced ++ changes.map Change.notice) := by
    refine h.chronicle.append_changes shifts.once fun change hmem => ?_
    obtain ⟨passes, agent, hagent, hid, status⟩ := shifts.lawful change hmem
    refine ⟨?_, passes, ?_⟩
    · rw [← hid]
      exact List.mem_map_of_mem hagent
    · rw [← hid, ← h.statuses agent hagent, status]
  refine ⟨?_, ?_, ?_, ?_, ?_, ?_, ?_⟩
  · exact h.registered.of_ids ids (leads.initialized.trans shifts.initialized)
  · rw [leads.initialized, shifts.initialized, h.initialized]
  · rw [ids, renews.announced, levelNews, before]
    split
    · next moved =>
      refine chronicle.crosses ?_
      rw [level]
      exact Ne.symm (by simpa using moved)
    · rwa [List.append_nil]
  · intro agent hmem
    rw [leads.agents] at hmem
    obtain ⟨old, hold, hid, status⟩ := shifts.statuses agent hmem
    rw [renews.announced, replayStatus, List.foldl_append, foldl_levelNews, List.foldl_append,
      status, h.statuses old hold, hid, replayStatus]
  · rw [leads.config, leads.agents]
    exact renews.summary
  · rw [renews.swarm_eq]
  · rw [replayLevel] at level
    rw [renews.announced, replayLevel, List.foldl_append, level, levelNews, before]
    split
    · rfl
    · next still => exact (by simpa using still : s.swarm.health.level = _).symm

/-- Any number of such changes are. -/
theorem updates_all (h : s.Reflects first) (updated : ReflTransGen Updates s t) :
    t.Reflects first := by
  induction updated with
  | refl => exact h
  | tail _ last ih => exact ih.updates last

end Reflects

end Session

/-- A swarm that got its agents, with what it has announced since; `first` is the level that it had
then. Whoever called before, and whatever is called afterwards, no addition has overflowed since. -/
inductive Life (config : Config) (first : Level) : Session → Prop
  | begins {history : List Entry} {swarm : Swarm} {definitions : List Agent.Definition}
      {now : Instant} {s : Session} (run : Run config history swarm)
      (fills : Session.populate definitions now ⟨swarm, []⟩ = .ok (.ok ()) s)
      (level : s.swarm.level = some first) : Life config first s
  | answers {call : Call} {answer : Answer} {s t : Session} (life : Life config first s)
      (performs : call.perform s = .ok answer t) : Life config first t

/-- After any calls, the announcements and the summary reflect the registry. -/
theorem Life.reflects {config : Config} {first : Level} (life : Life config first s) :
    s.Reflects first := by
  induction life with
  | begins run fills level => exact .begins run.registered rfl fills level
  | answers life performs ih =>
    exact ih.updates_all (Call.tells ih.registered ih.initialized performs).1

/-- The announcements and the summary of a swarm mirror its registry. -/
structure Session.Mirrors (first : Level) (s : Session) : Prop where
  /-- The changes that were announced lead from idle to what each agent is. -/
  statuses : ∀ agent ∈ s.swarm.agents, agent.status = replayStatus agent.id s.announced
  /-- Each of them starts from what the agent was by then, and is of a known kind. -/
  changes : ∀ earlier id old new later,
    s.announced = earlier ++ .agentStatusChanged id old new :: later →
      (∃ agent ∈ s.swarm.agents, agent.id = id) ∧ old = replayStatus id earlier ∧ old ≠ new ∧
        Passes old new
  /-- The summary is that of the agents. -/
  summary : Health.ofAgents s.swarm.config s.swarm.agents = .ok s.swarm.health
  counts : s.swarm.health.idle + s.swarm.health.busy + s.swarm.health.degraded +
    s.swarm.health.offline = s.swarm.health.total
  counts_exact : s.swarm.agents.length < UInt64.size →
    s.swarm.health.idle.toNat + s.swarm.health.busy.toNat + s.swarm.health.degraded.toNat +
      s.swarm.health.offline.toNat = s.swarm.health.total.toNat
  level : s.swarm.level = some s.swarm.health.level
  /-- The last level that was announced is the level. -/
  last : s.swarm.health.level = replayLevel first s.announced
  /-- A summary is announced only if its level is not the one before. -/
  crossings : ∀ earlier health later,
    s.announced = earlier ++ .swarmHealthChanged health :: later →
      health.level ≠ replayLevel first earlier
  /-- Each change that a call makes is announced, and then the new summary if the level differs. -/
  tells : ∀ call answer t, Call.perform call s = .ok answer t → ReflTransGen Session.Updates s t
  /-- A call that is refused changes nothing and announces nothing. -/
  refused : ∀ call answer t, Call.perform call s = .ok answer t → answer.Refusal → t = s

/-- After any calls on a swarm that has its agents, what it has announced and its summary mirror the
registry. -/
theorem Life.mirrors {config : Config} {first : Level} (life : Life config first s) :
    s.Mirrors first := by
  have reflects := life.reflects
  refine ⟨reflects.statuses, ?_, reflects.summary, Health.counts reflects.summary,
    Health.counts_exact reflects.summary, reflects.level, reflects.last, ?_, ?_, ?_⟩
  · intro earlier id old new later h
    obtain ⟨known, starts, passes⟩ := reflects.chronicle.change_at h
    exact ⟨List.mem_map.1 known, starts, passes.ne, passes⟩
  · intro earlier health later h
    exact reflects.chronicle.crossing_at h
  · intro call answer t performs
    exact (Call.tells reflects.registered reflects.initialized performs).1
  · intro call answer t performs
    exact (Call.tells reflects.registered reflects.initialized performs).2

/-- One agent is given out, and the news say so. -/
theorem Life.mirrors_of_lone :
    ∃ s, Life {} .healthy s ∧ s.announced = [.agentStatusChanged ⟨"solo-1"⟩ .idle .busy] ∧
      s.Mirrors .healthy := by
  have made : ∃ t u, Session.populate loneCatalog .epoch ⟨empty {}, []⟩ = .ok (.ok ()) t ∧
      t.swarm.level = some .healthy ∧
      Session.acquire "compress" none .epoch t = .ok (some ⟨"solo-1"⟩) u ∧
      u.announced = [.agentStatusChanged ⟨"solo-1"⟩ .idle .busy] := ⟨_, _, rfl, rfl, rfl, rfl⟩
  obtain ⟨t, u, fills, level, gives, news⟩ := made
  have life : Life {} .healthy t := .begins .begins fills level
  have performs : (Call.acquire "compress" .epoch).perform t = .ok (.given (some ⟨"solo-1"⟩)) u :=
    Step.map_eq_ok.2 ⟨_, gives, rfl⟩
  have longer : Life {} .healthy u := life.answers performs
  exact ⟨u, longer, news, longer.mirrors⟩

end JobSwarm.Swarm
