import JobSwarm.Proofs.Swarm.News
import Mathlib.Algebra.Order.BigOperators.Group.List
import Mathlib.Algebra.Order.Group.Nat

/-!
# Summaries

The last summary of a swarm counts its agents as they stand. Only a call that stops at an overflow
can leave a summary behind that does not. But then the work of the agents no longer adds up, and as
it never gets less, no later call ends that has to add it up.

Results:

* `Health.ofAgents_ends`: agents are summed up if their times and tasks fit.
* `Session.release_stops`: giving back an agent stops with the claim gone, wherever it does.
* `Call.stops`: a call stops before it has changed any status, or where the agents cannot be summed
  up.
* `Run.summed`: so the summary is that of the agents, if they can be summed up at all.
* `Run.sums`: and they can, as long as every call is answered.
-/

namespace JobSwarm

open Time (Instant)

namespace Swarm

/-! ## Work -/

/-- The time that agents spent on tasks. -/
def durations (agents : List Agent) : Nat :=
  (agents.map fun agent => agent.metrics.totalDurationMs.toNat).sum

/-- The tasks of agents that have a duration. -/
def tasks (agents : List Agent) : Nat :=
  (agents.map fun agent =>
    agent.metrics.tasksCompleted.toNat + agent.metrics.tasksFailed.toNat).sum

/-- The work of one more agent is added if the sums fit. -/
theorem addWork_eq_ok_iff {sum sum' : UInt64 × UInt64} {agent : Agent} :
    Health.addWork sum agent = .ok sum' ↔
      sum'.1.toNat = sum.1.toNat + agent.metrics.totalDurationMs.toNat ∧
      sum'.2.toNat = sum.2.toNat +
        (agent.metrics.tasksCompleted.toNat + agent.metrics.tasksFailed.toNat) := by
  unfold Health.addWork Agent.Metrics.timedTasks
  simp only [bind_eq_ok, addWord_eq_ok_iff]
  constructor
  · rintro ⟨duration, first, timed, second, count, third, same⟩
    cases same
    exact ⟨first, by rw [third, second]⟩
  · rintro ⟨first, second⟩
    have small : sum'.2.toNat < UInt64.size := sum'.2.toNat_lt
    let timed := agent.metrics.tasksCompleted.toNat + agent.metrics.tasksFailed.toNat
    have third : (UInt64.ofNat timed).toNat = timed := UInt64.toNat_ofNat_of_lt' (by omega)
    exact ⟨sum'.1, first, .ofNat timed, third, sum'.2, by rw [second, third], rfl⟩

theorem foldlM_addWork_ends {agents : List Agent} {sum : UInt64 × UInt64} :
    (∃ work, agents.foldlM Health.addWork sum = .ok work) ↔
      sum.1.toNat + durations agents < UInt64.size ∧ sum.2.toNat + tasks agents < UInt64.size := by
  induction agents generalizing sum with
  | nil =>
    have first := sum.1.toNat_lt
    have second := sum.2.toNat_lt
    exact iff_of_true ⟨sum, rfl⟩ ⟨first, second⟩
  | cons agent rest ih =>
    have duration : durations (agent :: rest) =
      agent.metrics.totalDurationMs.toNat + durations rest := List.sum_cons
    have count : tasks (agent :: rest) =
      agent.metrics.tasksCompleted.toNat + agent.metrics.tasksFailed.toNat + tasks rest :=
        List.sum_cons
    rw [duration, count]
    simp only [List.foldlM_cons, bind_eq_ok]
    constructor
    · rintro ⟨work, next, adds, others⟩
      obtain ⟨first, second⟩ := addWork_eq_ok_iff.1 adds
      obtain ⟨fits, fits'⟩ := ih.1 ⟨work, others⟩
      omega
    · rintro ⟨fits, fits'⟩
      let next : UInt64 × UInt64 :=
        (.ofNat (sum.1.toNat + agent.metrics.totalDurationMs.toNat),
          .ofNat (sum.2.toNat +
            (agent.metrics.tasksCompleted.toNat + agent.metrics.tasksFailed.toNat)))
      have first : next.1.toNat = _ := UInt64.toNat_ofNat_of_lt' (by omega)
      have second : next.2.toNat = _ := UInt64.toNat_ofNat_of_lt' (by omega)
      have ends : ∃ work, rest.foldlM Health.addWork next = .ok work := ih.2 (by omega)
      obtain ⟨work, others⟩ := ends
      exact ⟨work, next, addWork_eq_ok_iff.2 ⟨first, second⟩, others⟩

/-- Agents are summed up if their times and tasks fit. -/
theorem Health.ofAgents_ends {config : Config} {agents : List Agent} :
    (∃ health, ofAgents config agents = .ok health) ↔
      durations agents < UInt64.size ∧ tasks agents < UInt64.size := by
  unfold ofAgents
  have ends : (∃ work, agents.foldlM addWork (0, 0) = .ok work) ↔ _ := foldlM_addWork_ends
  rw [UInt64.toNat_zero, Nat.zero_add, Nat.zero_add] at ends
  rw [← ends]
  constructor
  · rintro ⟨health, h⟩
    obtain ⟨work, adds, -⟩ := bind_eq_ok.1 h
    exact ⟨work, adds⟩
  · rintro ⟨work, adds⟩
    exact ⟨_, bind_eq_ok.2 ⟨work, adds, rfl⟩⟩

/-- Agents are summed up if they are when they have worked more. -/
theorem Health.ofAgents_ends_of_grows {config config' : Config} {agents : List Agent}
    {change : Agent → Agent} {health : Health}
    (grows : ∀ agent ∈ agents, Grows agent.metrics (change agent).metrics)
    (h : ofAgents config' (agents.map change) = .ok health) :
    ∃ before, ofAgents config agents = .ok before := by
  obtain ⟨fits, fits'⟩ := ofAgents_ends.1 ⟨health, h⟩
  have less : durations agents ≤ durations (agents.map change) := by
    unfold durations
    rw [List.map_map]
    exact List.sum_le_sum fun agent mem => (grows agent mem).duration
  have less' : tasks agents ≤ tasks (agents.map change) := by
    unfold tasks
    rw [List.map_map]
    exact List.sum_le_sum fun agent mem =>
      Nat.add_le_add (grows agent mem).completed (grows agent mem).failed
  exact ofAgents_ends.2 ⟨less.trans_lt fits, less'.trans_lt fits'⟩

/-- Agents that have worked as much are summed up as well. -/
theorem Health.ofAgents_ends_of_same {config : Config} (config' : Config) {agents : List Agent}
    {change : Agent → Agent} {health : Health}
    (same : ∀ agent, (change agent).metrics = agent.metrics)
    (h : ofAgents config agents = .ok health) :
    ∃ after, ofAgents config' (agents.map change) = .ok after := by
  obtain ⟨fits, fits'⟩ := ofAgents_ends.1 ⟨health, h⟩
  have times : durations (agents.map change) = durations agents := by
    simp only [durations, List.map_map, Function.comp_def, same]
  have counts : tasks (agents.map change) = tasks agents := by
    simp only [tasks, List.map_map, Function.comp_def, same]
  exact ofAgents_ends.2 ⟨times ▸ fits, counts ▸ fits'⟩

/-! ## Where calls stop -/

namespace Session

open Step (bind_eq_error discard_eq_error get_eq_ok modify_eq_ok not_get_eq_error
  not_modify_eq_error not_pure_eq_error ofSum_eq_error ofSum_eq_ok)

variable {s t : Session} {overflow : Overflow} {now : Instant}

/-- The agents cannot be summed up. -/
def Unsummed (s : Session) : Prop :=
  ∃ overflow, Health.ofAgents s.swarm.config s.swarm.agents = .error overflow

/-- Summing up the agents stops before anything is changed. -/
theorem refreshHealth_stops (h : refreshHealth s = .error overflow t) : t = s ∧ s.Unsummed := by
  cases summary : Health.ofAgents s.swarm.config s.swarm.agents with
  | ok health =>
    obtain ⟨u, ends⟩ := refreshHealth_ends summary
    rw [ends] at h
    cases h
  | error other =>
    simp only [refreshHealth, bind_eq_error, get_eq_ok, not_get_eq_error, ofSum_eq_error,
      ofSum_eq_ok, false_or] at h
    obtain ⟨_, _, ⟨rfl, rfl⟩, ⟨-, rfl⟩ | ⟨_, _, ⟨sums, -⟩, -⟩⟩ := h
    · exact ⟨rfl, other, summary⟩
    · cases summary.symm.trans sums

/-- From one session to another: the swarm became the given one and these changes of agents were
announced, but then the agents could not be summed up. -/
structure Breaks (s : Session) (swarm : Swarm) (changes : List Change) (t : Session) : Prop where
  unsummed : t.Unsummed
  left : t = { swarm := swarm, announced := s.announced ++ changes.map Change.notice }

/-- If the agents cannot be summed up after a change that leaves their work alone, then they could
not before. -/
theorem Breaks.unsummed_of_same {change : Agent → Agent} {swarm : Swarm}
    {changes : List Change} (breaks : s.Breaks swarm changes t)
    (agents : swarm.agents = s.swarm.agents.map change)
    (same : ∀ agent, (change agent).metrics = agent.metrics) : s.Unsummed := by
  cases before : Health.ofAgents s.swarm.config s.swarm.agents with
  | error overflow => exact ⟨overflow, before⟩
  | ok health =>
    obtain ⟨overflow, stops⟩ := breaks.unsummed
    have ends := Health.ofAgents_ends_of_same t.swarm.config same before
    rw [← agents] at ends
    obtain ⟨after, ends⟩ := ends
    have left : t.swarm.agents = swarm.agents := by rw [breaks.left]
    rw [left, ends] at stops
    cases stops

/-- An agent is changed and this is announced, but the agents cannot be summed up. -/
theorem altered_stops {α : Type} {change : Swarm → Swarm} {id : Agent.Id} {old new : Agent.Status}
    {result : α}
    (h : (do
      modifySwarm change
      announceStatus id old new
      refreshHealth
      return result : Step Session α) s = .error overflow t) :
    s.Breaks (change s.swarm) [⟨id, old, new⟩] t := by
  simp only [modifySwarm, announceStatus, announce, bind_eq_error, modify_eq_ok,
    not_modify_eq_error, not_pure_eq_error, and_false, exists_false, false_or, or_false] at h
  obtain ⟨_, _, rfl, _, _, rfl, h⟩ := h
  obtain ⟨rfl, unsummed⟩ := refreshHealth_stops h
  exact ⟨unsummed, rfl⟩

theorem announce_all_ends {ids : List Agent.Id} {old new : Agent.Status} :
    ∃ u, (ids.forM fun id => announceStatus id old new) s = .ok () u := by
  induction ids generalizing s with
  | nil => exact ⟨s, rfl⟩
  | cons id rest ih =>
    let told : Session := { s with announced := s.announced ++ [.agentStatusChanged id old new] }
    have ends : ∃ u, (rest.forM fun id => announceStatus id old new) told = .ok () u := ih
    obtain ⟨u, ends⟩ := ends
    exact ⟨u, Step.bind_eq_ok.2 ⟨(), told, rfl, ends⟩⟩

/-- Recovery stops where some agents have rested, but the agents cannot be summed up, and could not
before. -/
theorem recover_stops (h : recover now s = .error overflow t) :
    s.Unsummed ∧ recoveries s.swarm now ≠ [] ∧
      s.Breaks (s.swarm.recovered now) (recoveries s.swarm now) t := by
  have alike (agent : Agent) : (if rested s.swarm.config now agent then forgiven agent
      else agent).metrics = agent.metrics := by
    split <;> rfl
  simp only [recover, modifySwarm, bind_eq_error, get_eq_ok, not_get_eq_error, false_or] at h
  obtain ⟨_, _, ⟨rfl, rfl⟩, h⟩ := h
  split at h
  · exact absurd h not_pure_eq_error
  · next some =>
    simp only [bind_eq_error, modify_eq_ok, not_modify_eq_error, not_pure_eq_error, and_false,
      exists_false, false_or, or_false] at h
    obtain ⟨_, _, rfl, stops | ⟨_, _, news, stops⟩⟩ := h
    · obtain ⟨u, ends⟩ := announce_all_ends
      cases ends.symm.trans stops
    · obtain ⟨rfl, unsummed⟩ := refreshHealth_stops stops
      have breaks : s.Breaks (s.swarm.recovered now) (recoveries s.swarm now) t := by
        refine ⟨unsummed, ?_⟩
        rw [← announce_all_ok news, recoveries, List.map_map, List.map_map]
        rfl
      refine ⟨breaks.unsummed_of_same rfl alike, fun none => some ?_, breaks⟩
      rw [List.map_eq_nil_iff.1 none]
      rfl

/-- A call for an agent stops when those that have rested have returned, or, if nobody has, with the
chosen agent claimed. The agents cannot be summed up, and could not before. -/
theorem acquire_stops {capability : String} {job : Option Job.Id}
    (h : acquire capability job now s = .error overflow t) :
    s.Unsummed ∧
      (recoveries s.swarm now ≠ [] ∧ s.Breaks (s.swarm.recovered now) (recoveries s.swarm now) t ∨
      recoveries s.swarm now = [] ∧ ∃ agent, s.swarm.choice? capability = some agent ∧
        s.Breaks (s.swarm.claim agent.id job) [⟨agent.id, agent.status, .busy⟩] t) := by
  have alike (id : Agent.Id) (agent : Agent) : (if agent.id = id then
      { agent with status := .busy, currentTask := job } else agent).metrics = agent.metrics := by
    split <;> rfl
  simp only [acquire, bind_eq_error, get_eq_ok, not_get_eq_error, false_or] at h
  obtain ⟨_, _, ⟨rfl, rfl⟩, h⟩ := h
  split at h
  · exact absurd h not_pure_eq_error
  simp only [bind_eq_error, discard_eq_error, Step.discard_eq_ok, get_eq_ok, not_get_eq_error,
    false_or] at h
  obtain stops | ⟨_, u, ⟨ids, recovers⟩, _, _, ⟨rfl, rfl⟩, h⟩ := h
  · obtain ⟨unsummed, some, breaks⟩ := recover_stops stops
    exact ⟨unsummed, .inl ⟨some, breaks⟩⟩
  cases choice : u.swarm.choice? capability with
  | none =>
    rw [choice] at h
    exact absurd h not_pure_eq_error
  | some agent =>
    rw [choice] at h
    have breaks : u.Breaks (u.swarm.claim agent.id job) [⟨agent.id, agent.status, .busy⟩] t :=
      altered_stops h
    have unsummed : u.Unsummed := 
      breaks.unsummed_of_same (agents_claim _ _ _) (alike agent.id)
    obtain ⟨none, rfl⟩ | renews := recover_renews recovers
    · exact ⟨unsummed, .inr ⟨List.map_eq_nil_iff.2 none, agent, choice, breaks⟩⟩
    · obtain ⟨overflow, stops⟩ := unsummed
      rw [renews.leads.config, renews.leads.agents, renews.summary] at stops
      cases stops

theorem unsummed_of_acquire {capability : String} {job : Option Job.Id}
    (h : acquire capability job now s = .error overflow t) : t.Unsummed := by
  obtain ⟨-, ⟨-, breaks⟩ | ⟨-, _, -, breaks⟩⟩ := acquire_stops h
  · exact breaks.unsummed
  · exact breaks.unsummed

/-- Giving back an agent stops while its outcome is counted, or with the agent discharged, but the
agents cannot be summed up. The claim is gone either way. -/
theorem release_stops {id : Agent.Id} {outcome : Task.Outcome}
    (h : release id outcome now s = .error overflow t) :
    ∃ agent counted, s.swarm.agent? id = some agent ∧ id ∈ s.swarm.claimed ∧
      (tally outcome agent = .error overflow counted ∧
        t = { s with swarm :=
          { s.swarm with claimed := s.swarm.claimed.erase id }.modifyAgent id fun _ => counted } ∨
      tally outcome agent = .ok () counted ∧
        s.Breaks (returned s.swarm
            (discharged counted outcome s.swarm.config.failureThreshold now))
          (shift id agent.status
            (discharged counted outcome s.swarm.config.failureThreshold now).status) t) := by
  by_cases absent : s.swarm.agent? id = none ∨ id ∉ s.swarm.claimed
  · obtain ⟨error, refused⟩ := release_of_unclaimed outcome now absent
    cases refused.symm.trans h
  rw [not_or, not_not, ← ne_eq, Option.ne_none_iff_exists'] at absent
  obtain ⟨⟨agent, found⟩, claimed⟩ := absent
  rw [release_of_claimed found claimed] at h
  cases counts : tally outcome agent with
  | error other counted =>
    rw [counts] at h
    cases h
    exact ⟨agent, counted, found, claimed, .inl ⟨counts, rfl⟩⟩
  | ok r counted =>
    rw [counts] at h
    simp only [bind_eq_error, not_pure_eq_error, and_false, exists_false, or_false] at h
    obtain ⟨rfl, unsummed⟩ := refreshHealth_stops h
    exact ⟨agent, counted, found, claimed, .inr ⟨counts, unsummed, rfl⟩⟩

theorem populate_stops {definitions : List Agent.Definition}
    (h : populate definitions now s = .error overflow t) : t = s := by
  simp only [populate, modifySwarm, bind_eq_error, get_eq_ok, not_get_eq_error, false_or] at h
  obtain ⟨_, _, ⟨rfl, rfl⟩, h⟩ := h
  split at h
  · exact absurd h not_pure_eq_error
  cases enrolled : enroll (roster definitions) now with
  | error id =>
    simp only [enrolled] at h
    exact absurd h not_pure_eq_error
  | ok registry =>
    simp only [enrolled, bind_eq_error, ofSum_eq_error, not_modify_eq_error, not_pure_eq_error,
      and_false, exists_false, or_false] at h
    exact h.2.symm

/-- What is done to an agent stops only where the agents cannot be summed up. -/
theorem administered_stops {α : Type} {found : Option Agent} {missing : α} {refused : Agent → α}
    {refuses : Agent → Prop} [DecidablePred refuses] {rest : Agent → Step Session α}
    (stops : ∀ agent, rest agent s = .error overflow t → t.Unsummed)
    (h : (match found with
      | none => pure missing
      | some agent => if refuses agent then pure (refused agent) else rest agent : Step Session α)
        s = .error overflow t) : t.Unsummed := by
  cases found with
  | none => exact absurd h not_pure_eq_error
  | some agent =>
    dsimp only at h
    split at h
    · exact absurd h not_pure_eq_error
    · exact stops agent h

theorem markOffline_stops {id : Agent.Id} (h : markOffline id s = .error overflow t) :
    t.Unsummed := by
  rw [markOffline, Step.get_bind] at h
  exact administered_stops (fun _ h => (altered_stops h).unsummed) h

theorem markOnline_stops {id : Agent.Id} (h : markOnline id now s = .error overflow t) :
    t.Unsummed := by
  rw [markOnline, Step.get_bind] at h
  exact administered_stops (fun _ h => (altered_stops h).unsummed) h

theorem reset_stops {id : Agent.Id} (h : reset id s = .error overflow t) : t.Unsummed := by
  rw [reset, Step.get_bind] at h
  exact administered_stops (fun _ h => (altered_stops h).unsummed) h

end Session

/-! ## What the summary says -/

/-- If the agents can be summed up, then the last summary is theirs, up to the mean duration, and
the level is its level. -/
def Summed (swarm : Swarm) : Prop :=
  ∀ health, Health.ofAgents swarm.config swarm.agents = .ok health →
    (∃ mean, swarm.health = { health with avgTaskDurationMs := mean }) ∧
      swarm.level = some health.level

variable {swarm : Swarm} {s t : Session}

theorem Session.Unsummed.summed (h : s.Unsummed) : s.swarm.Summed := by
  intro health sums
  obtain ⟨_, stops⟩ := h
  cases stops.symm.trans sums

theorem Session.Renews.summed {changes : List Change} (h : s.Renews swarm changes t) :
    t.swarm.Summed := by
  intro health sums
  have same : t.swarm.health = health := by
    have summary := h.summary
    rw [← h.leads.config, ← h.leads.agents, sums] at summary
    exact (Except.ok.inj summary).symm
  rw [← same]
  exact ⟨⟨_, rfl⟩, by rw [h.swarm_eq]⟩

/-- Agents of the same statuses are counted alike. -/
theorem Health.ofAgents_congr {config : Config} {agents : List Agent} {change : Agent → Agent}
    {before after : Health} (statuses : ∀ agent ∈ agents, (change agent).status = agent.status)
    (h : ofAgents config agents = .ok before)
    (h' : ofAgents config (agents.map change) = .ok after) :
    before = { after with avgTaskDurationMs := before.avgTaskDurationMs } := by
  obtain ⟨_, -, same⟩ := bind_eq_ok.1 h
  obtain ⟨_, -, same'⟩ := bind_eq_ok.1 h'
  have counts (status : Agent.Status) : count (agents.map change) status = count agents status := by
    unfold count
    rw [List.countP_map]
    congr 1
    refine List.countP_congr fun agent mem => ?_
    rw [Function.comp_apply, statuses agent mem]
  cases same
  cases same'
  simp only [counts, List.length_map]

/-- Counting the work of an agent leaves the summary as it should be, whoever holds a claim. -/
theorem Summed.counting {id : Agent.Id} {agent counted : Agent} (h : swarm.Summed)
    (found : swarm.agent? id = some agent)
    (counts : Counted agent counted) (claimed : List Agent.Id) :
    ({ swarm with claimed := claimed }.modifyAgent id fun _ => counted).Summed := by
  intro after sums
  have own : counted.id = id := counts.id.trans (mem_of_agent? found).2
  rw [agents_modifyAgent _ fun _ _ => own] at sums
  have alike {other : Agent} (mem : other ∈ swarm.agents) (same : other.id = id) : other = agent :=
    eq_of_agent? found mem same
  have grown : ∃ before, Health.ofAgents swarm.config swarm.agents = .ok before := by
    refine Health.ofAgents_ends_of_grows (fun other mem => ?_) sums
    split
    · next same =>
      rw [alike mem same]
      exact counts.grows
    · exact .refl _
  obtain ⟨before, sums'⟩ := grown
  have congr := Health.ofAgents_congr (fun other mem => by
    split
    · next same => rw [alike mem same, counts.status]
    · rfl) sums' sums
  obtain ⟨⟨mean, health⟩, level⟩ := h before sums'
  refine ⟨⟨mean, ?_⟩, ?_⟩
  · show swarm.health = _
    rw [health, congr]
  · show swarm.level = _
    rw [level, congr]

/-- Wherever a call stops, the agents cannot be summed up, or their statuses and the summary are
what they were. -/
theorem Call.stops {call : Call} {overflow : Overflow}
    (performs : call.perform s = .error overflow t) :
    t.Unsummed ∨ t = s ∨ ∃ id agent counted, s.swarm.agent? id = some agent ∧
      Counted agent counted ∧
      t.swarm =
        { s.swarm with claimed := s.swarm.claimed.erase id }.modifyAgent id fun _ => counted := by
  cases call with
  | populate definitions now =>
    exact .inr (.inl (Session.populate_stops (Step.map_eq_error.1 performs)))
  | acquire capability now =>
    exact .inl (Session.unsummed_of_acquire (Step.map_eq_error.1 performs))
  | acquireFor task now => exact .inl (Session.unsummed_of_acquire (Step.map_eq_error.1 performs))
  | release id outcome now =>
    obtain ⟨agent, counted, found, -, ⟨stops, rfl⟩ | ⟨-, breaks⟩⟩ :=
      Session.release_stops (Step.map_eq_error.1 performs)
    · have counts := Session.tally_counts outcome agent
      rw [stops] at counts
      exact .inr (.inr ⟨id, agent, counted, found, counts, rfl⟩)
    · exact .inl breaks.unsummed
  | markOffline id => exact .inl (Session.markOffline_stops (Step.map_eq_error.1 performs))
  | markOnline id now => exact .inl (Session.markOnline_stops (Step.map_eq_error.1 performs))
  | reset id => exact .inl (Session.reset_stops (Step.map_eq_error.1 performs))
  | recover now => exact .inl (Session.recover_stops (Step.map_eq_error.1 performs)).2.2.unsummed

/-- Whoever called before, and wherever calls stopped, the last summary is that of the agents if
they can be summed up. -/
theorem Run.summed {config : Config} {history : List Entry} (run : Run config history swarm)
    (initialized : swarm.initialized = true) : swarm.Summed := by
  induction run with
  | begins => cases initialized
  | @answers _ call answer s t run performs ih =>
    obtain ⟨definitions, now, fills⟩ | ⟨tells, -⟩ := call.fills_or_tells run.registered performs
    · obtain ⟨⟨_, refused⟩, -⟩ | ⟨-, -, once, health, summary, rfl⟩ := Session.populate_fills fills
      · cases refused
      intro other sums
      cases summary.symm.trans sums
      exact ⟨⟨_, rfl⟩, rfl⟩
    · cases tells with
      | refl => exact ih initialized
      | tail _ last =>
        obtain ⟨_, _, -, renews⟩ := last
        exact renews.summed
  | @stops _ call overflow s t run performs ih =>
    obtain unsummed | rfl | ⟨id, agent, counted, found, counts, same⟩ := call.stops performs
    · exact unsummed.summed
    · exact ih initialized
    · rw [same] at initialized ⊢
      exact (ih initialized).counting found counts _

/-- As long as every call is answered, the agents can be summed up. -/
theorem Run.sums {config : Config} {history : List Entry} (run : Run config history swarm)
    (answered : ∀ entry ∈ history, entry.answer ≠ none) :
    ∃ health, Health.ofAgents swarm.config swarm.agents = .ok health := by
  induction run with
  | begins => exact ⟨_, rfl⟩
  | @answers _ call answer s t run performs ih =>
    obtain ⟨definitions, now, fills⟩ | ⟨tells, -⟩ := call.fills_or_tells run.registered performs
    · obtain ⟨⟨_, refused⟩, -⟩ | ⟨-, -, once, health, summary, rfl⟩ := Session.populate_fills fills
      · cases refused
      · exact ⟨health, summary⟩
    · cases tells with
      | refl => exact ih fun entry hmem => answered entry (List.mem_append_left _ hmem)
      | tail _ last =>
        obtain ⟨_, _, -, renews⟩ := last
        have summary := renews.summary
        rw [← renews.leads.config, ← renews.leads.agents] at summary
        exact ⟨_, summary⟩
  | stops => exact absurd rfl (answered _ (List.mem_append_right _ List.mem_cons_self))

end Swarm

end JobSwarm
