import JobSwarm.Proofs.Swarm.Degradation
import JobSwarm.Proofs.Swarm.Summary

/-!
# Calls that stop

A call for an agent, or one that gives an agent back, stops where a sum does not fit. What it had
done by then stays done, and this is never nothing: an agent that was to be given back has lost its
claim, and every other call that stops has announced that an agent changed its status. Only the
summary of the agents is always as it was before the call.

Results:

* `tally_stops`: counting an outcome stops with nothing changed but the counts.
* `Call.residue`: the four places where such a call can stop, and what is left at each of them.
* `Stranded.after`: a busy agent that nobody has claimed remains so until it is taken offline.
* `Run.interrupted`: it is by giving back an agent that a call stops for the first time, and the
  agent cannot be given back any more.
-/

namespace JobSwarm.Swarm

open Time (Instant)

/-! ## What is left -/

/-- What is asked for by a call for an agent. -/
inductive Asks : Call → String → Option Job.Id → Instant → Prop
  | acquire {capability : String} {now : Instant} :
      Asks (.acquire capability now) capability none now
  | acquireFor {task : Task} {now : Instant} :
      Asks (.acquireFor task now) task.capability (some task.jobId) now

/-- Whether an agent may go to the caller, or come back from it. -/
def Call.exchanges : Call → Bool
  | .acquire .. | .acquireFor .. | .release .. => true
  | _ => false

open Session (Unsummed discharged recoveries returned shift tally)

/-- What is left by a call that stops. -/
inductive Residue (s : Session) : Call → Session → Prop
  /-- The outcome did not fit into the counts of the agent: its claim is gone, and some of the
  outcome may have been counted. -/
  | counting {id : Agent.Id} {outcome : Task.Outcome} {now : Instant} {agent counted : Agent}
      {overflow : Overflow} (found : s.swarm.agent? id = some agent)
      (claimed : id ∈ s.swarm.claimed) (stops : tally outcome agent = .error overflow counted)
      (same : counted = { agent with metrics := counted.metrics }) :
      Residue s (.release id outcome now) { s with swarm :=
        { s.swarm with claimed := s.swarm.claimed.erase id }.modifyAgent id fun _ => counted }
  /-- The agent was taken back and this was announced, but the agents could not be summed up. -/
  | summing {id : Agent.Id} {outcome : Task.Outcome} {now : Instant} {agent counted after : Agent}
      {t : Session} (found : s.swarm.agent? id = some agent) (claimed : id ∈ s.swarm.claimed)
      (counts : tally outcome agent = .ok () counted)
      (ended : discharged counted outcome s.swarm.config.failureThreshold now = after)
      (breaks : s.Breaks (returned s.swarm after) (shift id agent.status after.status) t) :
      Residue s (.release id outcome now) t
  /-- Those that had rested returned to idle and this was announced, but the agents could not be
  summed up, and could not before. -/
  | sweeping {call : Call} {capability : String} {job : Option Job.Id} {now : Instant} {t : Session}
      (asks : Asks call capability job now) (some : recoveries s.swarm now ≠ [])
      (unsummed : s.Unsummed)
      (breaks : s.Breaks (s.swarm.recovered now) (recoveries s.swarm now) t) : Residue s call t
  /-- Nobody had rested. The chosen agent was claimed and this was announced, but the agents could
  not be summed up, and could not before. -/
  | claiming {call : Call} {capability : String} {job : Option Job.Id} {now : Instant}
      {agent : Agent} {t : Session} (asks : Asks call capability job now)
      (none : recoveries s.swarm now = []) (choice : s.swarm.choice? capability = .some agent)
      (unsummed : s.Unsummed)
      (breaks : s.Breaks (s.swarm.claim agent.id job) [⟨agent.id, agent.status, .busy⟩] t) :
      Residue s call t

/-! ## Where calls stop -/

section Stopped

open Step (bind_eq_error get_eq_ok not_get_eq_error not_modify_eq_error ofSum_eq_error)

variable {agent counted : Agent} {overflow : Overflow}

/-- Counting an outcome stops with nothing changed but the counts. -/
theorem tally_stops {outcome : Task.Outcome} (h : tally outcome agent = .error overflow counted) :
    counted = { agent with metrics := counted.metrics } := by
  cases outcome with
  | succeeded duration =>
    simp only [tally, bind_eq_error, not_modify_eq_error, and_false, exists_false, or_false] at h
    obtain stops | ⟨_, _, task, stops⟩ := h
    · rw [Session.countTask_stops stops]
    · obtain ⟨_, -, rfl⟩ := Session.countTask_ok task
      rw [Session.countDuration_stops stops]
  | failed duration =>
    simp only [tally, bind_eq_error, get_eq_ok, not_get_eq_error, ofSum_eq_error,
      not_modify_eq_error, and_false, exists_false, or_false, false_or] at h
    obtain stops | ⟨_, _, task, stops | ⟨_, _, time, _, _, ⟨rfl, rfl⟩, -, rfl⟩⟩ := h
    · rw [Session.countTask_stops stops]
    · obtain ⟨_, -, rfl⟩ := Session.countTask_ok task
      rw [Session.countDuration_stops stops]
    · obtain ⟨_, -, rfl⟩ := Session.countTask_ok task
      obtain ⟨_, -, rfl⟩ := Session.countDuration_ok time
      rfl
  | cancelled =>
    simp only [tally] at h
    rw [Session.countTask_stops h]

end Stopped

variable {s t : Session} {overflow : Overflow} {now : Instant}

theorem Asks.residue {call : Call} {capability : String} {job : Option Job.Id}
    (asks : Asks call capability job now)
    (h : Session.acquire capability job now s = .error overflow t) : Residue s call t := by
  obtain ⟨unsummed, ⟨some, breaks⟩ | ⟨none, agent, choice, breaks⟩⟩ := Session.acquire_stops h
  · exact .sweeping asks some unsummed breaks
  · exact .claiming asks none choice unsummed breaks

/-- The places where a call for an agent, or one that gives an agent back, can stop. -/
theorem Call.residue {call : Call} (exchanges : call.exchanges = true)
    (performs : call.perform s = .error overflow t) : Residue s call t := by
  cases call with
  | acquire capability now => exact Asks.acquire.residue (Step.map_eq_error.1 performs)
  | acquireFor task now => exact Asks.acquireFor.residue (Step.map_eq_error.1 performs)
  | release id outcome now =>
    obtain ⟨agent, counted, found, claimed, ⟨stops, rfl⟩ | ⟨counts, breaks⟩⟩ :=
      Session.release_stops (Step.map_eq_error.1 performs)
    · exact .counting found claimed stops (tally_stops stops)
    · exact .summing found claimed counts rfl breaks
  | populate | markOffline | markOnline | reset | recover => cases exchanges

/-- The summary of the agents, its level and the settings are as they were. -/
theorem Residue.summary {call : Call} (residue : Residue s call t) :
    t.swarm.health = s.swarm.health ∧ t.swarm.level = s.swarm.level ∧
      t.swarm.config = s.swarm.config ∧ t.swarm.initialized = s.swarm.initialized := by
  cases residue with
  | counting => exact ⟨rfl, rfl, rfl, rfl⟩
  | summing _ _ _ _ breaks | sweeping _ _ _ breaks | claiming _ _ _ _ breaks =>
    rw [breaks.left]
    exact ⟨rfl, rfl, rfl, rfl⟩

/-- Giving back an agent takes its claim away, wherever it stops, and no other claim. -/
theorem Residue.claimed {id : Agent.Id} {outcome : Task.Outcome}
    (residue : Residue s (.release id outcome now) t) :
    id ∈ s.swarm.claimed ∧ t.swarm.claimed = s.swarm.claimed.erase id := by
  cases residue with
  | counting _ claimed => exact ⟨claimed, rfl⟩
  | @summing _ _ _ _ counted after _ found claimed counts ended breaks =>
    have own : after.id = id := by
      rw [← ended, Session.discharged_id, Session.tally_ok counts, Session.agent?_id found]
    refine ⟨claimed, ?_⟩
    rw [breaks.left, returned, own]
  | sweeping asks | claiming asks => cases asks

/-- No agent comes or goes. -/
theorem Residue.ids {call : Call} (residue : Residue s call t) :
    t.swarm.agents.map (·.id) = s.swarm.agents.map (·.id) := by
  cases residue with
  | counting => exact ids_modifyAgent _ _ _
  | summing _ _ _ _ breaks =>
    rw [breaks.left]
    exact ids_modifyAgent _ _ _
  | sweeping _ _ _ breaks =>
    rw [breaks.left]
    exact recovered_ids s.swarm _
  | claiming _ _ _ _ breaks =>
    rw [breaks.left]
    exact ids_modifyAgent _ _ _

/-! ## Lost agents -/

open Step (Keeps keeps_of_get left)

/-- An agent that is busy, though nobody has claimed it. -/
structure Stranded (id : Agent.Id) (swarm : Swarm) : Prop where
  registered : swarm.Registered
  unclaimed : id ∉ swarm.claimed
  busy : ∃ agent ∈ swarm.agents, agent.id = id ∧ agent.status = .busy

namespace Stranded

variable {id other : Agent.Id} {swarm : Swarm}

/-- Whoever is not busy is another agent. -/
theorem apart {agent : Agent} (stranded : swarm.Stranded id)
    (found : swarm.agent? other = some agent) (awake : agent.status ≠ .busy) : other ≠ id := by
  rintro rfl
  obtain ⟨lost, hmem, same, busy⟩ := stranded.busy
  rw [eq_of_agent? found hmem same] at busy
  exact awake busy

/-- Other agents may be changed and claimed. -/
theorem modifyAgent {change : Agent → Agent} {claimed : List Agent.Id}
    (stranded : swarm.Stranded id) (apart : other ≠ id)
    (keeps : ∀ agent, agent.id = other → (change agent).id = other) (unclaimed : id ∉ claimed) :
    { swarm.modifyAgent other change with claimed := claimed }.Stranded id where
  registered := (stranded.registered.modifyAgent _ _).of_ids rfl rfl
  unclaimed := unclaimed
  busy := by
    obtain ⟨agent, hmem, same, busy⟩ := stranded.busy
    refine ⟨agent, ?_, same, busy⟩
    dsimp only
    rw [agents_modifyAgent _ keeps]
    exact List.mem_map.2 ⟨agent, hmem, if_neg (same ▸ apart.symm)⟩

theorem lasts (id : Agent.Id) : Lasts (Stranded id) where
  summed _ _ _ h := ⟨h.registered.of_ids rfl rfl, h.unclaimed, h.busy⟩
  recovered swarm now h := by
    obtain ⟨agent, hmem, same, busy⟩ := h.busy
    have tired : ¬rested swarm.config now agent = true := fun rested => by
      rw [Session.degraded_of_rested rested] at busy
      cases busy
    exact ⟨h.registered.recovered now, h.unclaimed, agent,
      List.mem_map.2 ⟨agent, hmem, if_neg tired⟩, same, busy⟩
  claimed swarm capability agent job choice h := by
    obtain ⟨found, passes⟩ := Session.passes_of_choice choice
    have apart := h.apart found passes.ne
    refine h.modifyAgent apart (fun _ hid => hid) fun hmem => ?_
    exact (List.mem_insert_iff.1 hmem).elim (apart ∘ Eq.symm) h.unclaimed

/-- A registry that has agents is not filled again. -/
theorem keeps_populate (id : Agent.Id) (definitions : List Agent.Definition) (now : Instant) :
    Keeps (fun s => s.swarm.Stranded id) (Session.populate definitions now) := by
  refine keeps_of_get fun s h => ?_
  obtain ⟨agent, hmem, -, -⟩ := h.busy
  have filled : s.swarm.initialized = true := by
    cases before : s.swarm.initialized with
    | true => rfl
    | false =>
      rw [h.registered.empty_before before] at hmem
      cases hmem
  rw [if_pos filled]
  exact h

/-- No call changes anything for such an agent, wherever it ends or stops, unless it takes the agent
offline. -/
theorem keeps {call : Call} (unmoved : call ≠ .markOffline id) :
    Keeps (fun s => s.swarm.Stranded id) call.perform := by
  cases call with
  | populate definitions now => exact (keeps_populate id definitions now).map
  | acquire capability now => exact ((lasts id).acquire capability none now).map
  | acquireFor task now => exact ((lasts id).acquire task.capability (some task.jobId) now).map
  | release other outcome now =>
    refine ((lasts id).release outcome now fun swarm _ after found claimed alike h => ?_).map
    have own : after.id = other :=
      (congrArg Agent.Badge.id alike).trans (Session.agent?_id found)
    have apart : after.id ≠ id := fun same => h.unclaimed (same ▸ own ▸ claimed)
    exact h.modifyAgent apart (fun _ _ => rfl) fun hmem => h.unclaimed (List.mem_of_mem_erase hmem)
  | markOffline other =>
    have apart : other ≠ id := fun same => unmoved (same ▸ rfl)
    exact ((lasts id).markOffline fun _ h =>
      h.modifyAgent apart (fun _ hid => hid) h.unclaimed).map
  | markOnline other now =>
    refine ((lasts id).markOnline fun swarm agent found offline h => ?_).map
    have apart := h.apart found (by rw [offline]; decide)
    exact h.modifyAgent apart (fun _ hid => hid) h.unclaimed
  | reset other =>
    refine ((lasts id).reset fun swarm agent found degraded h => ?_).map
    have apart := h.apart found (by rw [degraded]; decide)
    exact h.modifyAgent apart (fun _ hid => hid) h.unclaimed
  | recover now => exact ((lasts id).recover now).map

end Stranded

/-- A swarm after some more calls, of whichever callers, wherever they end or stop. -/
def after (swarm : Swarm) (calls : List Call) : Swarm :=
  calls.foldl (fun swarm call => (left (call.perform ⟨swarm, []⟩)).swarm) swarm

/-- A stranded agent remains so until it is taken offline. -/
theorem Stranded.after {id : Agent.Id} {swarm : Swarm} {calls : List Call}
    (stranded : swarm.Stranded id) (unmoved : .markOffline id ∉ calls) :
    (swarm.after calls).Stranded id := by
  induction calls generalizing swarm with
  | nil => exact stranded
  | cons call rest ih =>
    rw [List.mem_cons, not_or] at unmoved
    obtain ⟨first, others⟩ := unmoved
    exact ih (Stranded.keeps (Ne.symm first) ⟨swarm, []⟩ stranded) others

/-! ## Runs -/

variable {config : Config} {history : List Entry} {swarm : Swarm}

/-- What a call leaves that stops after the calls of a history. -/
structure Interrupted (history : List Entry) (s : Session) (call : Call) (t : Session) : Prop where
  residue : Residue s call t
  /-- The summary of the agents, its level and the settings are as they were. -/
  summary : t.swarm.health = s.swarm.health ∧ t.swarm.level = s.swarm.level ∧
    t.swarm.config = s.swarm.config ∧ t.swarm.initialized = s.swarm.initialized
  ids : t.swarm.agents.map (·.id) = s.swarm.agents.map (·.id)
  /-- The first call that stops gives back an agent. -/
  first : (∀ entry ∈ history, entry.answer ≠ none) →
    ∃ id outcome now, call = .release id outcome now
  /-- Such an agent was claimed, and is not any more. It cannot be given back once more. -/
  lost : (∀ entry ∈ history, entry.answer ≠ none) → ∀ id outcome now,
    call = .release id outcome now → id ∈ s.swarm.claimed ∧ id ∉ t.swarm.claimed ∧
      ∀ outcome now, ∃ error, Session.release id outcome now t = .ok (.error error) t
  /-- If it is busy still, then it remains so, whatever is called, until it is taken offline. -/
  stranded : (∀ entry ∈ history, entry.answer ≠ none) → ∀ id outcome now,
    call = .release id outcome now →
      (∃ agent ∈ t.swarm.agents, agent.id = id ∧ agent.status = .busy) →
        ∀ calls, .markOffline id ∉ calls → (t.swarm.after calls).Stranded id

/-- Giving back an agent takes its claim away if every earlier call was answered. -/
theorem Run.lost (run : Run config history s.swarm) {id : Agent.Id} {outcome : Task.Outcome}
    (answered : ∀ entry ∈ history, entry.answer ≠ none)
    (residue : Residue s (.release id outcome now) t) :
    id ∈ s.swarm.claimed ∧ id ∉ t.swarm.claimed := by
  obtain ⟨held, accounts⟩ := run.accounts answered
  obtain ⟨claimed, left⟩ := residue.claimed
  refine ⟨claimed, fun hmem => ?_⟩
  rw [left] at hmem
  exact (accounts.serves.claimed_once.mem_erase_iff.1 hmem).1 rfl

/-- Whoever called before, a call for an agent or one that gives an agent back stops in one of four
places, each with something changed but the summary. -/
theorem Run.interrupted (run : Run config history s.swarm) {call : Call}
    (exchanges : call.exchanges = true) (performs : call.perform s = .error overflow t) :
    Interrupted history s call t := by
  have residue := call.residue exchanges performs
  refine ⟨residue, residue.summary, residue.ids, fun answered => ?_, ?_, ?_⟩
  · obtain ⟨health, sums⟩ := run.sums answered
    cases residue with
    | counting | summing => exact ⟨_, _, _, rfl⟩
    | sweeping _ _ unsummed | claiming _ _ _ unsummed =>
      obtain ⟨_, stops⟩ := unsummed
      cases stops.symm.trans sums
  · rintro answered id outcome now rfl
    obtain ⟨claimed, lost⟩ := run.lost answered residue
    exact ⟨claimed, lost, fun outcome now => Session.release_of_unclaimed outcome now (.inr lost)⟩
  · rintro answered id outcome now rfl busy calls unmoved
    obtain ⟨-, lost⟩ := run.lost answered residue
    exact Stranded.after ⟨(run.stops performs).registered, lost, busy⟩ unmoved

/-- The agent of a swarm works for as long as can be counted, and is taken once more. -/
def longCalls : List Call :=
  [.populate loneCatalog .epoch, .acquire "compress" .epoch,
    .release ⟨"solo-1"⟩ (.succeeded 18446744073709551615) .epoch, .acquire "compress" .epoch]

/-- It cannot be given back after a task that took any longer. -/
def overlong : Call :=
  .release ⟨"solo-1"⟩ (.succeeded 1) .epoch

/-- What is left by a call, if it stops. -/
def Call.leftover? (call : Call) (s : Session) : Option Session :=
  match call.perform s with
  | .ok .. => none
  | .error _ t => some t

theorem Call.leftover?_eq_some {call : Call} (h : call.leftover? s = some t) :
    ∃ overflow, call.perform s = .error overflow t := by
  unfold Call.leftover? at h
  split at h
  · cases h
  · next overflow _ stops =>
    cases h
    exact ⟨overflow, stops⟩

theorem overlong_stops : ∃ notes s overflow t, History {} notes s.swarm ∧
    overlong.perform s = .error overflow t ∧
    s.swarm.claimed = [⟨"solo-1"⟩] ∧ t.swarm.claimed = [] ∧
    s.swarm.agents.map (·.metrics.tasksCompleted) = [1] ∧
    t.swarm.agents.map (·.metrics.tasksCompleted) = [2] ∧
    t.swarm.agents.map (·.status) = [.busy] := by
  have recorded : (record longCalls ([], .empty {})).any (fun after =>
      (overlong.leftover? ⟨after.2, []⟩).any fun t =>
        after.2.claimed = [⟨"solo-1"⟩] ∧ t.swarm.claimed = [] ∧
        after.2.agents.map (·.metrics.tasksCompleted) = [1] ∧
        t.swarm.agents.map (·.metrics.tasksCompleted) = [2] ∧
        t.swarm.agents.map (·.status) = [.busy]) = true := by
    decide +kernel
  obtain ⟨⟨notes, swarm⟩, h, leaves⟩ := (Option.any_eq_true _ _).1 recorded
  obtain ⟨t, left, changes⟩ := (Option.any_eq_true _ _).1 leaves
  obtain ⟨overflow, stops⟩ := Call.leftover?_eq_some left
  exact ⟨notes, ⟨swarm, []⟩, overflow, t, History.begins.of_record h, stops,
    of_decide_eq_true changes⟩

/-- The agent is given back and lost. -/
theorem Run.interrupted_of_overlong : ∃ history s overflow t, Run {} history s.swarm ∧
    overlong.exchanges = true ∧ overlong.perform s = .error overflow t ∧
    (∀ entry ∈ history, entry.answer ≠ none) ∧ Interrupted history s overlong t := by
  obtain ⟨notes, s, overflow, t, history, stops, -⟩ := overlong_stops
  exact ⟨_, s, overflow, t, history.run, rfl, stops, Note.answered,
    Run.interrupted history.run rfl stops⟩

/-- A call that stops does not leave everything as it was: a claim is gone and a task was counted,
although the agent is busy still. -/
theorem Run.interruption_changes : ∃ history s overflow t, Run {} history s.swarm ∧
    overlong.exchanges = true ∧ overlong.perform s = .error overflow t ∧
    s.swarm.claimed = [⟨"solo-1"⟩] ∧ t.swarm.claimed = [] ∧
    s.swarm.agents.map (·.metrics.tasksCompleted) = [1] ∧
    t.swarm.agents.map (·.metrics.tasksCompleted) = [2] ∧
    t.swarm.agents.map (·.status) = [.busy] := by
  obtain ⟨notes, s, overflow, t, history, stops, changes⟩ := overlong_stops
  exact ⟨_, s, overflow, t, history.run, rfl, stops, changes⟩

end JobSwarm.Swarm
