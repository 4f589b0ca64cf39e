import JobSwarm.Proofs.Swarm.Ledger
import JobSwarm.Proofs.Swarm.Summary

/-!
# Failures and rest

An agent whose tasks have failed too often in a row is degraded, and rests until its cooldown is
over. What the registry keeps of this can be told from the history of the calls: the row of failures
counts those since the failures of the agent were last forgotten, and the rest of a degraded agent
began with the last of them.

Results:

* `failures_snoc`, `lastFailure?_snoc`: what one more call adds to the history.
* `Reckoned.discharged`: what giving back an agent makes of its row of failures.
* `Reckons.recover`: those that have rested begin anew, and the others are left as they are.
* `History.reckons`: after any calls, the registry agrees with the history.
* `History.degrades`: so whoever is idle has not failed too often, whoever is degraded has rested
  since its last failure, and the next sweep returns those that have rested long enough.
-/

namespace JobSwarm.Swarm

open Time (Instant)

/-! ## Histories -/

/-- A call that was answered, with what was announced on the way. -/
structure Note where
  call : Call
  answer : Answer
  news : List Event.Notice

/-- A swarm after some calls, of whichever callers, that were all answered. -/
inductive History (config : Config) : List Note → Swarm → Prop
  | begins : History config [] (.empty config)
  | answers {notes : List Note} {call : Call} {answer : Answer} {swarm : Swarm} {t : Session}
      (earlier : History config notes swarm) (performs : call.perform ⟨swarm, []⟩ = .ok answer t) :
      History config (notes ++ [⟨call, answer, t.announced⟩]) t.swarm

/-- A note without the news. -/
def Note.entry (note : Note) : Entry :=
  ⟨note.call, some note.answer⟩

theorem History.run {config : Config} {notes : List Note} {swarm : Swarm}
    (history : History config notes swarm) : Run config (notes.map Note.entry) swarm := by
  induction history with
  | begins => exact .begins
  | @answers notes call answer swarm t _ performs ih =>
    rw [List.map_append]
    exact ih.answers (s := ⟨swarm, []⟩) performs

theorem Note.answered {notes : List Note} :
    ∀ entry ∈ notes.map Note.entry, entry.answer ≠ none := by
  intro entry hmem
  obtain ⟨note, -, rfl⟩ := List.mem_map.1 hmem
  exact Option.some_ne_none _

/-- The history of some more calls, unless one of them stops. -/
def record : List Call → List Note × Swarm → Option (List Note × Swarm)
  | [], after => some after
  | call :: rest, (notes, swarm) =>
    match call.perform ⟨swarm, []⟩ with
    | .ok answer t => record rest (notes ++ [⟨call, answer, t.announced⟩], t.swarm)
    | .error .. => none

theorem History.of_record {config : Config} {calls : List Call} {notes notes' : List Note}
    {swarm swarm' : Swarm} (history : History config notes swarm)
    (h : record calls (notes, swarm) = some (notes', swarm')) : History config notes' swarm' := by
  induction calls generalizing notes swarm with
  | nil =>
    cases h
    exact history
  | cons call rest ih =>
    rw [record] at h
    split at h
    · next performs => exact ih (history.answers performs) h
    · cases h

/-- Whether a notice tells that an agent has returned from degraded to idle. -/
def tellsRest (id : Agent.Id) : Event.Notice → Bool
  | .agentStatusChanged other .degraded .idle => other == id
  | _ => false

namespace Note

/-- When an agent was given back after a task that has failed, if it was by this call. -/
def failure? (id : Agent.Id) : Note → Option Instant
  | ⟨.release other (.failed _) now, .returned (.ok _), _⟩ => if other = id then some now else none
  | _ => none

/-- Whether the failures of an agent are forgotten by this call: the agent came into being, or has
succeeded, or was brought online, or was reset, or has rested long enough. -/
def forgives (id : Agent.Id) : Note → Bool
  | ⟨.populate .., .done (.ok ()), _⟩ => true
  | ⟨.release other (.succeeded _) _, .returned (.ok _), _⟩ => other == id
  | ⟨.markOnline other _, .done (.ok ()), _⟩ => other == id
  | ⟨.reset other, .done (.ok ()), _⟩ => other == id
  | ⟨.acquire .., _, news⟩ => news.any (tellsRest id)
  | ⟨.acquireFor .., _, news⟩ => news.any (tellsRest id)
  | ⟨.recover _, _, news⟩ => news.any (tellsRest id)
  | _ => false

/-- The catalog by which the registry was filled, if it was by this call, or else another one. -/
def catalogOr (earlier : List Agent.Definition) : Note → List Agent.Definition
  | ⟨.populate definitions _, .done (.ok ()), _⟩ => definitions
  | _ => earlier

end Note

/-- How often an agent has failed since its failures were last forgotten. -/
def failures (notes : List Note) (id : Agent.Id) : Nat :=
  (notes.reverse.takeWhile fun note => !note.forgives id).countP fun note =>
    (note.failure? id).isSome

/-- When an agent has failed last. -/
def lastFailure? (notes : List Note) (id : Agent.Id) : Option Instant :=
  notes.reverse.findSome? (·.failure? id)

/-- The catalog by which the registry was filled. -/
def catalog (notes : List Note) : List Agent.Definition :=
  notes.foldl Note.catalogOr []

variable {notes : List Note} {note : Note} {id : Agent.Id}

theorem failures_snoc : failures (notes ++ [note]) id =
    if note.forgives id then 0 else failures notes id + (note.failure? id).isSome.toNat := by
  unfold failures
  rw [List.reverse_append, List.reverse_singleton, List.singleton_append, List.takeWhile_cons]
  cases note.forgives id with
  | true => rfl
  | false =>
    rw [Bool.not_false, if_pos rfl, List.countP_cons]
    cases note.failure? id <;> rfl

theorem lastFailure?_snoc :
    lastFailure? (notes ++ [note]) id = (note.failure? id).or (lastFailure? notes id) := by
  unfold lastFailure?
  rw [List.reverse_append, List.reverse_singleton, List.singleton_append, List.findSome?_cons]
  cases note.failure? id <;> rfl

theorem catalog_snoc : catalog (notes ++ [note]) = note.catalogOr (catalog notes) := by
  unfold catalog
  rw [List.foldl_append, List.foldl_cons, List.foldl_nil]

/-! ## One agent -/

/-- What the registry keeps of the failures of an agent agrees with the history. -/
structure Reckoned (threshold : UInt32) (notes : List Note) (agent : Agent) : Prop where
  streak : agent.failureStreak.toNat = failures notes agent.id
  idle : agent.status = .idle → agent.failureStreak < threshold ∧ agent.degradedSince = none
  degraded : agent.status = .degraded → threshold ≤ agent.failureStreak
  /-- An agent that has failed too often has its rest counted from its last failure, unless it is
  offline. -/
  since : agent.status ≠ .offline → threshold ≤ agent.failureStreak →
    ∃ last, lastFailure? notes agent.id = some last ∧ agent.degradedSince = some last

namespace Reckoned

variable {threshold : UInt32} {agent : Agent}

/-- What is neither a failure nor forgives any is nothing to an agent. -/
theorem quiet (reckoned : Reckoned threshold notes agent) (kept : note.forgives agent.id = false)
    (unfailing : note.failure? agent.id = none) : Reckoned threshold (notes ++ [note]) agent where
  streak := by
    rw [failures_snoc, kept, unfailing]
    exact reckoned.streak
  idle := reckoned.idle
  degraded := reckoned.degraded
  since online often := by
    rw [lastFailure?_snoc, unfailing]
    exact reckoned.since online often

/-- An agent whose failures are forgotten begins anew. -/
theorem anew (positive : 0 < threshold) (forgiven : note.forgives agent.id = true)
    (streak : agent.failureStreak = 0) (status : agent.status ≠ .degraded)
    (since : agent.status = .idle → agent.degradedSince = none) :
    Reckoned threshold (notes ++ [note]) agent where
  streak := by
    rw [failures_snoc, forgiven, streak]
    rfl
  idle idle := by
    rw [streak]
    exact ⟨positive, since idle⟩
  degraded degraded := absurd degraded status
  since _ often := by
    rw [streak] at often
    exact absurd often (UInt32.not_le.2 positive)

/-- An agent that is handed out keeps what it has. -/
theorem taken (reckoned : Reckoned threshold notes agent) (online : agent.status ≠ .offline)
    (job : Option Job.Id) :
    Reckoned threshold notes { agent with status := .busy, currentTask := job } where
  streak := reckoned.streak
  idle := nofun
  degraded := nofun
  since _ := reckoned.since online

/-- An agent that is taken out of rotation keeps what it has. -/
theorem leaves (reckoned : Reckoned threshold notes agent) :
    Reckoned threshold notes { agent with status := .offline } where
  streak := reckoned.streak
  idle := nofun
  degraded := nofun
  since online := absurd rfl online

end Reckoned

/-- The row of failures after one more outcome. -/
def rowAfter (row : Nat) : Task.Outcome → Nat
  | .succeeded _ => 0
  | .failed _ => row + 1
  | .cancelled => row

open Session (countDuration_ok countTask_ok discharged restBegins tally tally_ok)

theorem tally_streak {outcome : Task.Outcome} {agent counted : Agent} {r : Unit}
    (h : tally outcome agent = .ok r counted) :
    counted.failureStreak.toNat = rowAfter agent.failureStreak.toNat outcome := by
  cases outcome with
  | succeeded duration =>
    simp only [tally, Step.bind_eq_ok, Step.modify_eq_ok] at h
    obtain ⟨_, _, -, _, _, -, rfl⟩ := h
    rfl
  | failed duration =>
    simp only [tally, Step.bind_eq_ok, Step.get_eq_ok, Step.ofSum_eq_ok, Step.modify_eq_ok] at h
    obtain ⟨_, _, htask, _, _, hduration, _, _, ⟨rfl, rfl⟩, streak, _, ⟨next, rfl⟩, rfl⟩ := h
    obtain ⟨_, -, rfl⟩ := countTask_ok htask
    obtain ⟨_, -, rfl⟩ := countDuration_ok hduration
    exact (addHalfWord_eq_ok_iff ..).1 next
  | cancelled =>
    simp only [tally] at h
    obtain ⟨_, -, rfl⟩ := countTask_ok h
    rfl

namespace Reckoned

variable {threshold : UInt32} {agent counted : Agent} {outcome : Task.Outcome}

/-- The row of failures that is counted is that of the history. -/
theorem failures_release (reckoned : Reckoned threshold notes agent)
    (counts : tally outcome agent = .ok () counted) (now : Instant) (status : Agent.Status)
    (news : List Event.Notice) :
    counted.failureStreak.toNat =
      failures (notes ++ [⟨.release agent.id outcome now, .returned (.ok status), news⟩])
        agent.id := by
  rw [tally_streak counts, failures_snoc, reckoned.streak]
  cases outcome <;> simp [rowAfter, Note.forgives, Note.failure?]

/-- The rest of an agent that has failed too often is counted from its last failure. A cancelled
task leaves it as it was. -/
theorem restBegins_eq (reckoned : Reckoned threshold notes agent) (positive : 0 < threshold)
    (busy : agent.status = .busy) (counts : tally outcome agent = .ok () counted)
    (often : threshold ≤ counted.failureStreak) (now : Instant) (status : Agent.Status)
    (news : List Event.Notice) :
    ∃ last, lastFailure? (notes ++ [⟨.release agent.id outcome now, .returned (.ok status), news⟩])
        agent.id = some last ∧
      restBegins { counted with currentTask := none } outcome now = some last := by
  rw [lastFailure?_snoc]
  have row := tally_streak counts
  cases outcome with
  | succeeded duration =>
    rw [UInt32.le_iff_toNat_le, row] at often
    rw [UInt32.lt_iff_toNat_lt] at positive
    exact absurd positive (Nat.not_lt.2 often)
  | failed duration => exact ⟨now, by simp [Note.failure?], rfl⟩
  | cancelled =>
    have same : counted.failureStreak = agent.failureStreak := UInt32.toNat_inj.1 row
    have online : agent.status ≠ .offline := by rw [busy]; decide
    obtain ⟨last, failed, since⟩ := reckoned.since online (same ▸ often)
    have kept : counted.degradedSince = some last := by rw [tally_ok counts, since]
    exact ⟨last, failed, by simp [restBegins, kept]⟩

/-- An agent that is given back is idle as long as it has not failed too often, and else rests. -/
theorem discharged (reckoned : Reckoned threshold notes agent) (positive : 0 < threshold)
    (held : agent.status = .busy ∨ agent.status = .offline)
    (counts : tally outcome agent = .ok () counted) (now : Instant) (status : Agent.Status)
    (news : List Event.Notice) :
    Reckoned threshold (notes ++ [⟨.release agent.id outcome now, .returned (.ok status), news⟩])
      (discharged counted outcome threshold now) := by
  have shape := tally_ok counts
  have hid : counted.id = agent.id := by rw [shape]
  have hstatus : counted.status = agent.status := by rw [shape]
  have row := reckoned.failures_release counts now status news
  rw [Session.discharged]
  rcases held with busy | offline
  · dsimp only
    rw [if_pos (hstatus.trans busy)]
    split
    · next often =>
      have rests := reckoned.restBegins_eq positive busy counts often now status news
      refine ⟨hid ▸ row, fun idle => ?_, fun _ => often, fun _ _ => hid ▸ rests⟩
      cases idle
    · next seldom =>
      refine ⟨hid ▸ row, fun _ => ⟨UInt32.not_le.1 seldom, rfl⟩, fun degraded => ?_,
        fun _ often => absurd often seldom⟩
      cases degraded
  · have away : counted.status = .offline := hstatus.trans offline
    dsimp only
    rw [if_neg (by rw [away]; decide)]
    refine ⟨hid ▸ row, fun idle => ?_, fun degraded => ?_, fun online => absurd away online⟩
    · cases away.symm.trans idle
    · cases away.symm.trans degraded

end Reckoned

/-! ## Sweeps -/

/-- Whether an agent is degraded and has rested for the whole cooldown. -/
def due (config : Config) (now : Instant) (agent : Agent) : Bool :=
  agent.status == .degraded &&
    agent.degradedSince.any fun since => decide ((config.cooldown : Int) ≤ now.since since)

/-- From one registry to another: the degraded agents that have rested for the whole cooldown are
idle, with their failures forgotten, and the others are as they were. The agents that have returned
are named in the order of the catalog. -/
structure Sweeps (now : Instant) (before after : Swarm) (ids : List Agent.Id) : Prop where
  ids_eq : ids = (before.agents.filter (due before.config now)).map (·.id)
  agents_eq : after.agents = before.agents.map fun agent =>
    if due before.config now agent then forgiven agent else agent
  claimed_eq : after.claimed = before.claimed

/-- A degraded agent of the registry has a beginning of its rest. -/
theorem Reckoned.rested_eq {threshold : UInt32} {agent : Agent} {config : Config} {now : Instant}
    (reckoned : Reckoned threshold notes agent) :
    rested config now agent = due config now agent := by
  unfold rested due
  cases hdegraded : agent.status == .degraded with
  | false => rfl
  | true =>
    have degraded : agent.status = .degraded := beq_iff_eq.1 hdegraded
    have online : agent.status ≠ .offline := by rw [degraded]; decide
    obtain ⟨last, -, since⟩ := reckoned.since online (reckoned.degraded degraded)
    rw [since]
    rfl

namespace Session

variable {swarm : Swarm} {s t : Session} {now : Instant} {ids : List Agent.Id}

/-- Those that have returned are named in order. -/
theorem recover_ids (h : recover now s = .ok ids t) :
    ids = (s.swarm.agents.filter (rested s.swarm.config now)).map (·.id) := by
  simp only [recover, Step.bind_eq_ok, Step.get_eq_ok] at h
  obtain ⟨_, _, ⟨rfl, rfl⟩, h⟩ := h
  split at h
  · next none =>
    obtain ⟨rfl, -⟩ := Step.pure_eq_ok.1 h
    exact (List.isEmpty_iff.1 none).symm
  · simp only [Step.bind_eq_ok, Step.pure_eq_ok] at h
    obtain ⟨_, _, -, _, _, -, _, _, -, rfl, -⟩ := h
    rfl

/-- A new summary tells of no agent. -/
theorem Renews.told {changes : List Change} (renews : s.Renews swarm changes t) :
    t.announced.any (tellsRest id) =
      (s.announced.any (tellsRest id) || changes.any fun change => tellsRest id change.notice) := by
  have silent : (levelNews swarm.level t.swarm.health).any (tellsRest id) = false := by
    unfold levelNews
    split <;> rfl
  rw [renews.announced, List.any_append, List.any_append, silent, Bool.or_false, List.any_map]
  rfl

/-- The news tell of those that have returned. -/
theorem recover_told (h : recover now ⟨swarm, []⟩ = .ok ids t) :
    t.announced.any (tellsRest id) = ids.contains id := by
  rw [recover_ids h]
  obtain ⟨none, rfl⟩ | renews := recover_renews h
  · simp [none]
  · rw [renews.told, recoveries, List.any_map, List.contains_eq_any_beq, List.any_map]
    simp only [List.any_nil, Bool.false_or]
    exact congrArg (List.any _) (funext fun agent => BEq.comm (a := agent.id))

end Session

/-! ## The registry -/

/-- The registry agrees with the history of the swarm. -/
structure Reckons (config : Config) (notes : List Note) (swarm : Swarm) : Prop where
  config_eq : swarm.config = config
  /-- The agents stand in the order of the catalog. -/
  catalog_eq : swarm.agents.map (·.id) = (Session.roster (catalog notes)).map (·.1)
  agents : ∀ agent ∈ swarm.agents, Reckoned config.failureThreshold notes agent

namespace Reckons

variable {config : Config} {swarm : Swarm} {s t : Session} {now : Instant}

theorem leads (reckons : swarm.Reckons config notes) (h : s.Leads swarm t) :
    t.swarm.Reckons config notes where
  config_eq := h.config.trans reckons.config_eq
  catalog_eq := by
    rw [h.agents]
    exact reckons.catalog_eq
  agents agent hmem := by
    rw [h.agents] at hmem
    exact reckons.agents agent hmem

/-- A call by which no agent fails and none is forgiven is nothing to the registry. -/
theorem quiet (reckons : swarm.Reckons config notes)
    (filled : note.catalogOr (catalog notes) = catalog notes)
    (kept : ∀ id, note.forgives id = false) (unfailing : ∀ id, note.failure? id = none) :
    swarm.Reckons config (notes ++ [note]) where
  config_eq := reckons.config_eq
  catalog_eq := by
    rw [catalog_snoc, filled]
    exact reckons.catalog_eq
  agents agent hmem := (reckons.agents agent hmem).quiet (kept _) (unfailing _)

/-- One agent is changed by a call that is nothing to the others. -/
theorem modifyAgent {change : Agent → Agent} (reckons : swarm.Reckons config notes)
    (filled : note.catalogOr (catalog notes) = catalog notes)
    (others : ∀ other, other ≠ id → note.forgives other = false ∧ note.failure? other = none)
    (keeps : ∀ agent, agent.id = id → (change agent).id = id)
    (own : ∀ agent ∈ swarm.agents, agent.id = id →
      Reckoned config.failureThreshold notes agent →
        Reckoned config.failureThreshold (notes ++ [note]) (change agent)) :
    (swarm.modifyAgent id change).Reckons config (notes ++ [note]) where
  config_eq := reckons.config_eq
  catalog_eq := by
    rw [catalog_snoc, filled, ← reckons.catalog_eq]
    exact swarm.ids_modifyAgent id change
  agents agent hmem := by
    rw [agents_modifyAgent _ keeps] at hmem
    obtain ⟨old, hold, rfl⟩ := List.mem_map.1 hmem
    have reckoned := reckons.agents old hold
    split
    · next h => exact own old hold h reckoned
    · next h => exact reckoned.quiet (others old.id h).1 (others old.id h).2

/-- The failures of one agent are forgotten. -/
theorem forgive {change : Agent → Agent} (reckons : swarm.Reckons config notes)
    (positive : 0 < config.failureThreshold)
    (filled : note.catalogOr (catalog notes) = catalog notes)
    (forgives : ∀ other, note.forgives other = (id == other))
    (unfailing : ∀ other, note.failure? other = none)
    (anew : ∀ agent, (change agent).id = agent.id ∧ (change agent).failureStreak = 0 ∧
      (change agent).degradedSince = none ∧ (change agent).status ≠ .degraded) :
    (swarm.modifyAgent id change).Reckons config (notes ++ [note]) := by
  refine reckons.modifyAgent filled (fun other ne => ⟨?_, unfailing other⟩)
    (fun agent h => (anew agent).1.trans h) fun agent _ own _ => ?_
  · rw [forgives]
    exact beq_eq_false_iff_ne.2 (Ne.symm ne)
  · obtain ⟨same, streak, since, status⟩ := anew agent
    refine .anew positive ?_ streak status fun _ => since
    rw [forgives, same]
    exact beq_iff_eq.2 own.symm

/-- The next sweep returns those that have rested for the whole cooldown. -/
theorem sweeps {ids : List Agent.Id} (reckons : s.swarm.Reckons config notes)
    (h : Session.recover now s = .ok ids t) : Sweeps now s.swarm t.swarm ids := by
  have same agent (hmem : agent ∈ s.swarm.agents) :
      rested s.swarm.config now agent = due s.swarm.config now agent :=
    (reckons.agents agent hmem).rested_eq
  have leads := Session.recover_ok h
  refine ⟨?_, ?_, leads.claimed⟩
  · rw [Session.recover_ids h, List.filter_congr same]
  · rw [leads.agents]
    exact List.map_congr_left fun agent hmem => by rw [same agent hmem]

/-- Those that have rested begin anew, and the others are left as they are. -/
theorem recover {ids : List Agent.Id} (reckons : s.swarm.Reckons config notes)
    (positive : 0 < config.failureThreshold)
    (h : Session.recover now s = .ok ids t)
    (filled : note.catalogOr (catalog notes) = catalog notes)
    (forgives : ∀ id, note.forgives id = ids.contains id)
    (unfailing : ∀ id, note.failure? id = none) :
    t.swarm.Reckons config (notes ++ [note]) := by
  have leads := Session.recover_ok h
  refine Reckons.leads ?_ leads
  refine ⟨reckons.config_eq, ?_, ?_⟩
  · rw [catalog_snoc, filled, recovered_ids, reckons.catalog_eq]
  intro agent hmem
  obtain ⟨old, hold, rfl⟩ := List.mem_map.1 hmem
  have named : old.id ∈ ids ↔ rested s.swarm.config now old = true := by
    rw [Session.recover_ids h, List.mem_map]
    constructor
    · rintro ⟨other, hother, hid⟩
      obtain ⟨hother, hrested⟩ := List.mem_filter.1 hother
      rwa [← Keyed.eq_of_key_eq s.swarm.ids_once hother hold hid]
    · exact fun hrested => ⟨old, List.mem_filter.2 ⟨hold, hrested⟩, rfl⟩
  split
  · next hrested =>
    have forgiven : note.forgives old.id = true := by
      rw [forgives, List.contains_iff_mem]
      exact named.2 hrested
    exact .anew positive forgiven rfl nofun fun _ => rfl
  · next tired =>
    have kept : note.forgives old.id = false := by
      rw [forgives, ← Bool.not_eq_true, List.contains_iff_mem]
      exact mt named.1 tired
    exact (reckons.agents old hold).quiet kept (unfailing _)

/-- A chosen agent was not offline, and keeps what it has when it is handed out. -/
theorem claim {capability : String} {agent : Agent} {job : Option Job.Id}
    (reckons : swarm.Reckons config notes)
    (choice : swarm.choice? capability = some agent) :
    (swarm.claim agent.id job).Reckons config notes where
  config_eq := reckons.config_eq
  catalog_eq := by
    rw [← reckons.catalog_eq]
    exact ids_modifyAgent _ _ _
  agents changed hmem := by
    rw [agents_claim] at hmem
    obtain ⟨old, hold, rfl⟩ := List.mem_map.1 hmem
    split
    · next same =>
      obtain ⟨chosen, hchosen, hid, -, available⟩ := Session.choice?_eq_some choice
      have online : old.status ≠ .offline := by
        rw [Keyed.eq_of_key_eq swarm.ids_once hold hchosen (same.trans hid.symm)]
        rcases available with idle | ⟨degraded, -⟩
        · rw [idle]; decide
        · rw [degraded]; decide
      exact (reckons.agents old hold).taken online job
    · exact reckons.agents old hold

/-- Claims are nothing to failures. -/
theorem claiming (reckons : swarm.Reckons config notes) (claimed : List Agent.Id) :
    { swarm with claimed := claimed }.Reckons config notes :=
  ⟨reckons.config_eq, reckons.catalog_eq, reckons.agents⟩

/-! ## Calls -/

/-- A registry that is filled begins anew. -/
theorem populate {definitions : List Agent.Definition} {result : Except Error Unit}
    {news : List Event.Notice} (reckons : s.swarm.Reckons config notes)
    (positive : 0 < config.failureThreshold)
    (h : Session.populate definitions now s = .ok result t) :
    t.swarm.Reckons config (notes ++ [⟨.populate definitions now, .done result, news⟩]) := by
  obtain ⟨⟨error, rfl⟩, rfl⟩ | ⟨rfl, -, once, health, rfl⟩ := Session.populate_ok h
  · exact reckons.quiet rfl (fun _ => rfl) fun _ => rfl
  refine ⟨reckons.config_eq, ?_, fun agent hmem => ?_⟩
  · rw [catalog_snoc]
    exact Session.enlist_ids _ _
  · obtain ⟨⟨⟨id, definition⟩, place⟩, -, rfl⟩ := List.mem_map.1 hmem
    exact .anew positive rfl rfl nofun fun _ => rfl

/-- Before an agent is handed out, those that have rested begin anew. -/
theorem acquire {capability : String} {job : Option Job.Id} {given : Option Agent.Id}
    (reckons : swarm.Reckons config notes) (positive : 0 < config.failureThreshold)
    (h : Session.acquire capability job now ⟨swarm, []⟩ = .ok given t)
    (filled : note.catalogOr (catalog notes) = catalog notes)
    (forgives : ∀ id, note.forgives id = t.announced.any (tellsRest id))
    (unfailing : ∀ id, note.failure? id = none) :
    t.swarm.Reckons config (notes ++ [note]) := by
  obtain ⟨-, -, rfl⟩ | ⟨u, ids, -, sweep, ends⟩ := Session.acquire_renews h
  · exact reckons.quiet filled forgives unfailing
  have told id : u.announced.any (tellsRest id) = ids.contains id := Session.recover_told sweep
  obtain ⟨-, -, rfl⟩ | ⟨agent, -, choice, renews⟩ := ends
  · exact Reckons.recover (s := ⟨swarm, []⟩) reckons positive sweep filled
      (fun id => (forgives id).trans (told id)) unfailing
  · have said id : t.announced.any (tellsRest id) = u.announced.any (tellsRest id) := by
      rw [renews.told, List.any_cons, List.any_nil, Bool.or_false]
      cases agent.status <;> exact Bool.or_false _
    have swept : u.swarm.Reckons config (notes ++ [note]) :=
      Reckons.recover (s := ⟨swarm, []⟩) reckons positive sweep filled
        (fun id => (forgives id).trans ((said id).trans (told id))) unfailing
    exact (swept.claim choice).leads renews.leads

/-- An agent that is given back has succeeded, failed or neither. -/
theorem release {outcome : Task.Outcome} {result : Except Error Agent.Status}
    {news : List Event.Notice} (reckons : s.swarm.Reckons config notes)
    (positive : 0 < config.failureThreshold)
    (held : ∀ agent ∈ s.swarm.agents, agent.id ∈ s.swarm.claimed →
      agent.status = .busy ∨ agent.status = .offline)
    (h : Session.release id outcome now s = .ok result t) :
    t.swarm.Reckons config (notes ++ [⟨.release id outcome now, .returned result, news⟩]) := by
  obtain ⟨⟨error, rfl⟩, -, rfl⟩ | ⟨agent, counted, found, claimed, counts, rfl, leads⟩ :=
    Session.release_ok h
  · exact reckons.quiet rfl (fun _ => by cases outcome <;> rfl) fun _ => by cases outcome <;> rfl
  obtain ⟨hmem, rfl⟩ := mem_of_agent? found
  have reckoned := (reckons.agents agent hmem).discharged positive (held agent hmem claimed) counts
    now (Session.discharged counted outcome s.swarm.config.failureThreshold now).status news
  have hid : (Session.discharged counted outcome s.swarm.config.failureThreshold now).id =
      agent.id := by
    rw [Session.discharged_id, Session.tally_ok counts]
  refine Reckons.leads (Reckons.claiming ?_ _) leads
  rw [hid]
  refine reckons.modifyAgent ?_ (fun other ne => ?_) (fun _ _ => hid) fun _ _ _ _ => ?_
  · cases outcome <;> rfl
  · cases outcome <;> simp [Note.forgives, Note.failure?, Ne.symm ne]
  · rw [reckons.config_eq]
    rw [reckons.config_eq] at reckoned
    exact reckoned

/-- After whatever call, the registry agrees with the history. -/
theorem answers {call : Call} {answer : Answer} (reckons : swarm.Reckons config notes)
    (positive : 0 < config.failureThreshold)
    (held : ∀ agent ∈ swarm.agents, agent.id ∈ swarm.claimed →
      agent.status = .busy ∨ agent.status = .offline)
    (performs : call.perform ⟨swarm, []⟩ = .ok answer t) :
    t.swarm.Reckons config (notes ++ [⟨call, answer, t.announced⟩]) := by
  cases call with
  | populate definitions now =>
    obtain ⟨result, fills, rfl⟩ := Step.map_eq_ok.1 performs
    exact populate (s := ⟨swarm, []⟩) reckons positive fills
  | acquire capability now =>
    obtain ⟨given, acquires, rfl⟩ := Step.map_eq_ok.1 performs
    exact reckons.acquire positive acquires rfl (fun _ => rfl) fun _ => rfl
  | acquireFor task now =>
    obtain ⟨given, acquires, rfl⟩ := Step.map_eq_ok.1 performs
    exact reckons.acquire positive acquires rfl (fun _ => rfl) fun _ => rfl
  | release id outcome now =>
    obtain ⟨result, releases, rfl⟩ := Step.map_eq_ok.1 performs
    exact release (s := ⟨swarm, []⟩) reckons positive held releases
  | markOffline id =>
    obtain ⟨result, marks, rfl⟩ := Step.map_eq_ok.1 performs
    obtain ⟨⟨error, rfl⟩, rfl⟩ | ⟨rfl, leads⟩ := Session.markOffline_ok marks
    · exact reckons.quiet rfl (fun _ => rfl) fun _ => rfl
    · refine Reckons.leads ?_ leads
      refine reckons.modifyAgent rfl (fun _ _ => ⟨rfl, rfl⟩) (fun _ h => h) ?_
      exact fun _ _ _ reckoned => (reckoned.quiet rfl rfl).leaves
  | markOnline id now =>
    obtain ⟨result, marks, rfl⟩ := Step.map_eq_ok.1 performs
    obtain ⟨⟨error, rfl⟩, rfl, -⟩ | ⟨rfl, -, leads⟩ := Session.markOnline_ok marks
    · exact reckons.quiet rfl (fun _ => rfl) fun _ => rfl
    · refine Reckons.leads ?_ leads
      refine reckons.forgive positive rfl (fun _ => rfl) (fun _ => rfl) fun agent => ?_
      exact ⟨rfl, rfl, rfl, by unfold Session.backOnline; dsimp only; split <;> decide⟩
  | reset id =>
    obtain ⟨result, resets, rfl⟩ := Step.map_eq_ok.1 performs
    obtain ⟨⟨error, rfl⟩, rfl⟩ | ⟨rfl, -, leads⟩ := Session.reset_ok resets
    · exact reckons.quiet rfl (fun _ => rfl) fun _ => rfl
    · refine Reckons.leads ?_ leads
      refine reckons.forgive positive rfl (fun _ => rfl) (fun _ => rfl) fun agent => ?_
      exact ⟨rfl, rfl, rfl, nofun⟩
  | recover now =>
    obtain ⟨ids, sweep, rfl⟩ := Step.map_eq_ok.1 performs
    exact Reckons.recover (s := ⟨swarm, []⟩) reckons positive sweep rfl
      (fun _ => Session.recover_told sweep) fun _ => rfl

end Reckons

/-- After any calls, the registry agrees with the history. -/
theorem History.reckons {config : Config} {swarm : Swarm} (history : History config notes swarm)
    (positive : 0 < config.failureThreshold) : swarm.Reckons config notes := by
  induction history with
  | begins => exact ⟨rfl, rfl, fun _ hmem => absurd hmem List.not_mem_nil⟩
  | answers earlier performs ih =>
    have run := earlier.run
    obtain ⟨held, accounts⟩ := run.accounts Note.answered
    exact ih.answers positive accounts.toExclusive.of_claimed performs

/-! ## Degradation -/

/-- How the failures of agents, their degradation and their rest go together. -/
structure Degrades (config : Config) (notes : List Note) (swarm : Swarm) : Prop where
  /-- The agents stand in the order of the catalog. -/
  catalog_eq : swarm.agents.map (·.id) = (Session.roster (catalog notes)).map (·.1)
  streak : ∀ agent ∈ swarm.agents, agent.failureStreak.toNat = failures notes agent.id
  idle : ∀ agent ∈ swarm.agents, agent.status = .idle →
    agent.failureStreak < config.failureThreshold ∧ agent.degradedSince = none
  /-- A degraded agent has rested since its last failure. -/
  degraded : ∀ agent ∈ swarm.agents, agent.status = .degraded →
    config.failureThreshold ≤ agent.failureStreak ∧
      ∃ last, lastFailure? notes agent.id = some last ∧ agent.degradedSince = some last
  /-- Whoever asks for a sweep, it ends and is one. -/
  recovers : ∀ now announced, ∃ ids t, Session.recover now ⟨swarm, announced⟩ = .ok ids t ∧
    Sweeps now swarm t.swarm ids
  /-- Whoever asks for an agent, a sweep comes first, and then at most the agent that is given
  changes. -/
  acquires : ∀ capability job now announced, ∃ given t swept ids,
    Session.acquire capability job now ⟨swarm, announced⟩ = .ok given t ∧
      Sweeps now swarm swept ids ∧ t.swarm.agents = (given.elim swept (swept.claim · job)).agents

/-- Whatever was called before, at whatever times, as long as each call was answered: the row of
failures of each agent, its status and the beginning of its rest agree with the history, and so will
the next sweep. -/
theorem History.degrades {config : Config} {swarm : Swarm} (history : History config notes swarm)
    (positive : 0 < config.failureThreshold) : Degrades config notes swarm := by
  have reckons := history.reckons positive
  obtain ⟨health, sums⟩ := history.run.sums Note.answered
  refine ⟨reckons.catalog_eq, fun agent hmem => (reckons.agents agent hmem).streak,
    fun agent hmem => (reckons.agents agent hmem).idle, ?_, ?_, ?_⟩
  · intro agent hmem degraded
    have reckoned := reckons.agents agent hmem
    have online : agent.status ≠ .offline := by rw [degraded]; decide
    exact ⟨reckoned.degraded degraded, reckoned.since online (reckoned.degraded degraded)⟩
  · intro now announced
    cases recovers : Session.recover now ⟨swarm, announced⟩ with
    | error overflow t =>
      obtain ⟨⟨_, stops⟩, -⟩ := Session.recover_stops recovers
      cases stops.symm.trans sums
    | ok ids t => exact ⟨ids, t, rfl, Reckons.sweeps (s := ⟨swarm, announced⟩) reckons recovers⟩
  · intro capability job now announced
    cases acquires : Session.acquire capability job now ⟨swarm, announced⟩ with
    | error overflow t =>
      obtain ⟨⟨_, stops⟩, -⟩ := Session.acquire_stops acquires
      cases stops.symm.trans sums
    | ok given t =>
      refine ⟨given, t, ?_⟩
      obtain ⟨rfl, before, rfl⟩ | ⟨u, ids, -, sweep, ends⟩ := Session.acquire_renews acquires
      · have empty : swarm.agents = [] := history.run.registered.empty_before before
        exact ⟨swarm, [], rfl, ⟨by rw [empty]; rfl, by rw [empty]; rfl, rfl⟩, rfl⟩
      have sweeps := Reckons.sweeps (s := ⟨swarm, announced⟩) reckons sweep
      obtain ⟨rfl, -, rfl⟩ | ⟨agent, rfl, -, renews⟩ := ends
      · exact ⟨t.swarm, ids, rfl, sweeps, rfl⟩
      · exact ⟨u.swarm, ids, rfl, sweeps, renews.leads.agents⟩

/-- The agent of a swarm fails, is taken all the same, and is given back without an outcome. -/
def failedCalls : List Call :=
  [.populate loneCatalog .epoch, .acquire "compress" .epoch,
    .release ⟨"solo-1"⟩ (.failed 5) .epoch, .acquire "compress" (.addClamped .epoch 1),
    .release ⟨"solo-1"⟩ .cancelled (.addClamped .epoch 2)]

/-- It has rested since it failed. -/
theorem History.degrades_of_failed :
    ∃ notes swarm, History { failureThreshold := 1 } notes swarm ∧
      0 < ({ failureThreshold := 1 } : Config).failureThreshold ∧
      swarm.agents.map (·.degradedSince) = [some .epoch] ∧ failures notes ⟨"solo-1"⟩ = 1 ∧
      lastFailure? notes ⟨"solo-1"⟩ = some .epoch ∧
      Degrades { failureThreshold := 1 } notes swarm := by
  have recorded : (record failedCalls ([], .empty { failureThreshold := 1 })).any
      (fun after => after.2.agents.map (·.degradedSince) = [some .epoch] ∧
        failures after.1 ⟨"solo-1"⟩ = 1 ∧
        lastFailure? after.1 ⟨"solo-1"⟩ = some .epoch) = true := by
    decide +kernel
  obtain ⟨⟨notes, swarm⟩, h, state⟩ := (Option.any_eq_true _ _).1 recorded
  obtain ⟨since, failed, last⟩ := of_decide_eq_true state
  have history : History { failureThreshold := 1 } notes swarm := History.begins.of_record h
  have positive : 0 < ({ failureThreshold := 1 } : Config).failureThreshold := by decide
  exact ⟨notes, swarm, history, positive, since, failed, last, History.degrades history positive⟩

end JobSwarm.Swarm
