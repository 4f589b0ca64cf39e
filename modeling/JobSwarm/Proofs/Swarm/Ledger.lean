import JobSwarm.Proofs.Swarm.Registry

/-!
# Exclusive claims

What callers were given and what they gave back can be counted from the answers alone. The claims of
the swarm agree with the count: an agent is out with at most one caller, and while it is out nobody
else is given it.

Results:

* `Accounts.answers`: whatever is called, the agents that are held are those that were given and not
  given back.
* `Run.exclusive_claims`: the claims, the statuses and the tasks agree with the count, and so do the
  answers to whatever is called next.
-/

namespace JobSwarm.Swarm

open Time (Instant)

/-! ## Counting answers -/

namespace Entry

/-- Whether a caller was given an agent. -/
def gives (id : Agent.Id) (entry : Entry) : Bool :=
  match entry.answer with
  | some (.given (some given)) => given == id
  | _ => false

/-- Whether a caller gave back an agent, and it was taken. -/
def takesBack (id : Agent.Id) : Entry → Bool
  | ⟨.release released _ _, some (.returned (.ok _))⟩ => released == id
  | _ => false

end Entry

/-- How often an agent was given to a caller. -/
def handedOut (history : List Entry) (id : Agent.Id) : Nat :=
  history.countP (·.gives id)

/-- How often an agent was taken back from a caller. -/
def takenBack (history : List Entry) (id : Agent.Id) : Nat :=
  history.countP (·.takesBack id)

variable {history : List Entry} {entry : Entry} {swarm : Swarm} {held held' : List Holding}
  {id : Agent.Id} {now : Instant} {s t : Session}

theorem handedOut_append :
    handedOut (history ++ [entry]) id = handedOut history id + (entry.gives id).toNat := by
  unfold handedOut
  rw [List.countP_append, List.countP_singleton]
  cases entry.gives id <;> rfl

theorem takenBack_append :
    takenBack (history ++ [entry]) id = takenBack history id + (entry.takesBack id).toNat := by
  unfold takenBack
  rw [List.countP_append, List.countP_singleton]
  cases entry.takesBack id <;> rfl

/-! ## Accounts -/

/-- The swarm serves what is held, and that is what was given and not taken back. -/
structure Accounts (history : List Entry) (swarm : Swarm) (held : List Holding) : Prop where
  serves : swarm.Serves held
  balance : ∀ id, handedOut history id = takenBack history id + (held.map (·.1)).count id

namespace Accounts

theorem begins (config : Config) : Accounts [] (.empty config) [] where
  serves := AtRest.serves ⟨rfl, fun _ hmem => absurd hmem List.not_mem_nil⟩
  balance _ := rfl

/-- An answer by which nobody is given or gives back an agent. -/
theorem idle (accounts : Accounts history swarm held) (serves : s.swarm.Serves held)
    (gives : ∀ id, entry.gives id = false) (takesBack : ∀ id, entry.takesBack id = false) :
    Accounts (history ++ [entry]) s.swarm held where
  serves := serves
  balance id := by
    rw [handedOut_append, takenBack_append, gives, takesBack]
    exact accounts.balance id

/-- A registry that is filled has given nothing before. -/
theorem populate {definitions : List Agent.Definition} {result : Except Error Unit}
    (accounts : Accounts history s.swarm held) (registered : s.swarm.Registered)
    (call : Session.populate definitions now s = .ok result t) :
    Accounts (history ++ [⟨.populate definitions now, some (.done result)⟩]) t.swarm held := by
  refine accounts.idle ?_ (fun _ => rfl) fun _ => rfl
  obtain ⟨-, rfl⟩ | ⟨rfl, before, -⟩ := Session.populate_ok call
  · exact accounts.serves
  have none_held : held = [] := by
    refine List.eq_nil_iff_forall_not_mem.2 fun holding hmem => ?_
    have known := accounts.serves.known holding.1 (List.mem_map_of_mem hmem)
    rw [registered.empty_before before] at known
    cases known
  have unclaimed : s.swarm.claimed = [] := by
    refine List.eq_nil_iff_forall_not_mem.2 fun id hmem => ?_
    have hkey := (accounts.serves.claimed_iff id).1 hmem
    rw [none_held] at hkey
    cases hkey
  rw [none_held]
  exact (populate_atRest unclaimed call).serves

/-- Whoever is given an agent holds it from then on. -/
theorem acquire {capability : String} {job : Option Job.Id} {given : Option Agent.Id}
    (accounts : Accounts history s.swarm held)
    (answered : entry.answer = some (.given given)) (other : ∀ id, entry.takesBack id = false)
    (call : Session.acquire capability job now s = .ok given t) :
    Accounts (history ++ [entry]) t.swarm ((given.map (·, job)).toList ++ held) where
  serves := accounts.serves.acquire call
  balance id := by
    rw [handedOut_append, takenBack_append, other, accounts.balance, Entry.gives, answered]
    cases given with
    | none => rfl
    | some agent =>
      show _ + (agent == id).toNat = _ + 0 + ((agent :: held.map (·.1)).count id)
      rw [List.count_cons]
      cases agent == id
      · exact rfl
      · show _ + 1 = _ + (_ + 1)
        omega

/-- An agent that is taken back was held, and is held no more. -/
theorem release {outcome : Task.Outcome} {result : Except Error Agent.Status}
    (accounts : Accounts history s.swarm held)
    (call : Session.release id outcome now s = .ok result t) :
    ∃ held', Accounts (history ++ [⟨.release id outcome now, some (.returned result)⟩]) t.swarm
      held' := by
  obtain ⟨⟨error, rfl⟩, -, rfl⟩ | ⟨agent, counted, -, claimed, -, rfl, -⟩ := Session.release_ok call
  · exact ⟨held, accounts.idle accounts.serves (fun _ => rfl) fun _ => rfl⟩
  obtain ⟨⟨id, job⟩, hmem, rfl⟩ := List.mem_map.1 ((accounts.serves.claimed_iff _).1 claimed)
  have hperm := List.perm_cons_erase hmem
  refine ⟨held.erase (id, job), (accounts.serves.perm hperm).release call, fun other => ?_⟩
  have hcount := (hperm.map (·.1)).count_eq other
  have balance := accounts.balance other
  rw [List.map_cons, List.count_cons] at hcount
  rw [handedOut_append, takenBack_append]
  show _ + 0 = _ + (id == other).toNat + _
  cases h : id == other with
  | false =>
    rw [h] at hcount
    simp only [Bool.false_eq_true, ↓reduceIte, Bool.toNat_false] at hcount ⊢
    omega
  | true =>
    rw [h] at hcount
    simp only [↓reduceIte, Bool.toNat_true] at hcount ⊢
    omega

/-- Whatever is called, the agents that are held are those that were given and not given back. -/
theorem answers {call : Call} {answer : Answer} (accounts : Accounts history s.swarm held)
    (registered : s.swarm.Registered) (performs : call.perform s = .ok answer t) :
    ∃ held', Accounts (history ++ [⟨call, some answer⟩]) t.swarm held' := by
  cases call with
  | populate definitions now =>
    obtain ⟨result, call, rfl⟩ := Step.map_eq_ok.1 performs
    exact ⟨held, accounts.populate registered call⟩
  | acquire capability now =>
    obtain ⟨given, call, rfl⟩ := Step.map_eq_ok.1 performs
    exact ⟨_, accounts.acquire rfl (fun _ => rfl) call⟩
  | acquireFor task now =>
    obtain ⟨given, call, rfl⟩ := Step.map_eq_ok.1 performs
    exact ⟨_, accounts.acquire rfl (fun _ => rfl) call⟩
  | release id outcome now =>
    obtain ⟨result, call, rfl⟩ := Step.map_eq_ok.1 performs
    exact accounts.release call
  | markOffline id =>
    obtain ⟨result, call, rfl⟩ := Step.map_eq_ok.1 performs
    exact ⟨held, accounts.idle (accounts.serves.markOffline call) (fun _ => rfl) fun _ => rfl⟩
  | markOnline id now =>
    obtain ⟨result, call, rfl⟩ := Step.map_eq_ok.1 performs
    exact ⟨held, accounts.idle (accounts.serves.markOnline call) (fun _ => rfl) fun _ => rfl⟩
  | reset id =>
    obtain ⟨result, call, rfl⟩ := Step.map_eq_ok.1 performs
    exact ⟨held, accounts.idle (accounts.serves.reset call) (fun _ => rfl) fun _ => rfl⟩
  | recover now =>
    obtain ⟨ids, call, rfl⟩ := Step.map_eq_ok.1 performs
    exact ⟨held, accounts.idle (accounts.serves.recover call) (fun _ => rfl) fun _ => rfl⟩

end Accounts

/-- As long as every call answers, the accounts are kept. -/
theorem Run.accounts {config : Config} (run : Run config history swarm)
    (answered : ∀ entry ∈ history, entry.answer ≠ none) : ∃ held, Accounts history swarm held := by
  induction run with
  | begins => exact ⟨[], .begins config⟩
  | answers earlier performs ih =>
    obtain ⟨held, accounts⟩ := ih fun entry hmem => answered entry (List.mem_append_left _ hmem)
    exact accounts.answers earlier.registered performs
  | stops => exact absurd rfl (answered _ (List.mem_append_right _ List.mem_cons_self))

/-! ## Exclusion -/

/-- How the claims of a swarm agree with what callers were given and gave back. -/
structure Exclusive (history : List Entry) (swarm : Swarm) : Prop where
  /-- An agent is out with one caller or with none. -/
  out : ∀ id, handedOut history id = takenBack history id ∨
    handedOut history id = takenBack history id + 1
  claimed_iff : ∀ id, id ∈ swarm.claimed ↔ handedOut history id = takenBack history id + 1
  /-- An identifier stands for one agent, and those that are claimed stand for some. -/
  ids_once : (swarm.agents.map (·.id)).Nodup
  known : ∀ id ∈ swarm.claimed, ∃ agent ∈ swarm.agents, agent.id = id
  claimed_of_busy : ∀ agent ∈ swarm.agents, agent.status = .busy → agent.id ∈ swarm.claimed
  of_claimed : ∀ agent ∈ swarm.agents, agent.id ∈ swarm.claimed →
    agent.status = .busy ∨ agent.status = .offline
  free : ∀ agent ∈ swarm.agents, agent.status = .idle ∨ agent.status = .degraded →
    agent.id ∉ swarm.claimed ∧ agent.currentTask = none
  /-- Whoever gives back an agent next succeeds if and only if it is out. -/
  releases : ∀ id outcome now announced result t,
    (Call.release id outcome now).perform ⟨swarm, announced⟩ = .ok (.returned result) t →
      ((∃ status, result = .ok status) ↔ takenBack history id < handedOut history id)
  /-- Whoever is given an agent next is given one that was idle or degraded, and that is not out. -/
  gives : ∀ call announced id t,
    Call.perform call ⟨swarm, announced⟩ = .ok (.given (some id)) t →
      handedOut history id = takenBack history id ∧
        ∃ agent ∈ swarm.agents, agent.id = id ∧ (agent.status = .idle ∨ agent.status = .degraded)
  /-- An agent that is out is busy once it is brought online. -/
  returns : ∀ id now announced result t, id ∈ swarm.claimed →
    (Call.markOnline id now).perform ⟨swarm, announced⟩ = .ok (.done result) t →
      ∃ agent ∈ t.swarm.agents, agent.id = id ∧ agent.status = .busy

namespace Accounts

variable {announced : List Event.Notice}

theorem count_le_one (accounts : Accounts history swarm held) (id : Agent.Id) :
    (held.map (·.1)).count id ≤ 1 :=
  List.nodup_iff_count_le_one.1 accounts.serves.held_once id

theorem claimed_iff (accounts : Accounts history swarm held) (id : Agent.Id) :
    id ∈ swarm.claimed ↔ handedOut history id = takenBack history id + 1 := by
  have balance := accounts.balance id
  have once := accounts.count_le_one id
  rw [accounts.serves.claimed_iff, ← List.count_pos_iff]
  omega

/-- The call for an agent is answered with one that was idle or degraded. -/
theorem given_free {capability : String} {job : Option Job.Id}
    (call : Session.acquire capability job now s = .ok (some id) t) :
    ∃ agent ∈ s.swarm.agents, agent.id = id ∧
      (agent.status = .idle ∨ agent.status = .degraded) := by
  obtain ⟨none, -⟩ | ⟨none, -⟩ | ⟨agent, u, given, -, leads, choice, -⟩ := Session.acquire_ok call
  · cases none
  · cases none
  cases given
  obtain ⟨chosen, hchosen, hid, -, eligible⟩ := Session.choice?_eq_some choice
  rw [leads.agents] at hchosen
  obtain ⟨old, hold, hid', same | ⟨-, degraded⟩⟩ := Session.mem_recovered hchosen
  · refine ⟨old, hold, hid'.trans hid, ?_⟩
    rw [← same]
    exact eligible.imp_right And.left
  · exact ⟨old, hold, hid'.trans hid, .inr degraded⟩

/-- An agent that is held can be given back, and no other. -/
theorem taken_iff {outcome : Task.Outcome} {result : Except Error Agent.Status}
    (accounts : Accounts history s.swarm held)
    (call : Session.release id outcome now s = .ok result t) :
    (∃ status, result = .ok status) ↔ id ∈ s.swarm.claimed := by
  obtain ⟨⟨error, rfl⟩, absent, rfl⟩ | ⟨_, _, -, claimed, -, rfl, -⟩ := Session.release_ok call
  · refine ⟨nofun, fun claimed => ?_⟩
    rcases absent with unknown | unclaimed
    · have known := accounts.serves.known id ((accounts.serves.claimed_iff id).1 claimed)
      obtain ⟨agent, hmem, rfl⟩ := List.mem_map.1 known
      exact absurd rfl (agent?_eq_none.1 unknown agent hmem)
    · exact absurd claimed unclaimed
  · exact ⟨fun _ => claimed, fun _ => ⟨_, rfl⟩⟩

/-- An agent that is held is busy after it was brought online, or was not offline. -/
theorem online_busy {result : Except Error Unit} (accounts : Accounts history s.swarm held)
    (claimed : id ∈ s.swarm.claimed) (call : Session.markOnline id now s = .ok result t) :
    ∃ agent ∈ t.swarm.agents, agent.id = id ∧ agent.status = .busy := by
  have hkey := (accounts.serves.claimed_iff id).1 claimed
  obtain ⟨agent, hmem, rfl⟩ := List.mem_map.1 (accounts.serves.known id hkey)
  have found := s.swarm.agent?_of_mem hmem
  obtain ⟨-, rfl, online⟩ | ⟨-, -, leads⟩ := Session.markOnline_ok call
  · have status := (accounts.serves.stands agent hmem).of_held hkey
    exact ⟨agent, hmem, rfl, status.resolve_right (online agent found)⟩
  · refine ⟨Session.backOnline (s.swarm.claimed.contains agent.id) now agent, ?_, rfl, ?_⟩
    · rw [leads.agents, agents_modifyAgent (Session.backOnline _ now) fun _ own => own]
      exact List.mem_map.2 ⟨agent, hmem, if_pos rfl⟩
    · simp [Session.backOnline, claimed]

theorem toExclusive (accounts : Accounts history swarm held) : Exclusive history swarm where
  out id := by
    have balance := accounts.balance id
    have once := accounts.count_le_one id
    omega
  claimed_iff := accounts.claimed_iff
  ids_once := swarm.ids_once
  known id claimed :=
    List.mem_map.1 (accounts.serves.known id ((accounts.serves.claimed_iff id).1 claimed))
  claimed_of_busy agent hmem busy :=
    (accounts.serves.claimed_iff _).2 ((accounts.serves.stands agent hmem).of_busy busy)
  of_claimed agent hmem claimed :=
    (accounts.serves.stands agent hmem).of_held ((accounts.serves.claimed_iff _).1 claimed)
  free agent hmem status := by
    have stands := accounts.serves.stands agent hmem
    have unheld : agent.id ∉ held.map (·.1) := by
      intro hkey
      rcases stands.of_held hkey with status' | status' <;>
        rcases status with status | status <;> cases status.symm.trans status'
    refine ⟨mt (accounts.serves.claimed_iff _).1 unheld, ?_⟩
    refine Option.eq_none_iff_forall_ne_some.2 fun job task => unheld ?_
    exact List.mem_map_of_mem ((stands.task_iff job).1 task)
  releases id outcome now announced result t performs := by
    obtain ⟨result, call, heq⟩ := Step.map_eq_ok.1 performs
    cases heq
    have balance := accounts.balance id
    have once := accounts.count_le_one id
    rw [accounts.taken_iff call, accounts.claimed_iff]
    omega
  gives call announced id t performs := by
    have given : ∃ capability job now,
        Session.acquire capability job now ⟨swarm, announced⟩ = .ok (some id) t := by
      cases call with
      | acquire capability now =>
        obtain ⟨given, call, heq⟩ := Step.map_eq_ok.1 performs
        cases heq
        exact ⟨_, _, _, call⟩
      | acquireFor task now =>
        obtain ⟨given, call, heq⟩ := Step.map_eq_ok.1 performs
        cases heq
        exact ⟨_, _, _, call⟩
      | _ =>
        obtain ⟨_, _, heq⟩ := Step.map_eq_ok.1 performs
        cases heq
    obtain ⟨capability, job, now, call⟩ := given
    have once := (accounts.serves.acquire call).held_once
    have unheld : id ∉ held.map (·.1) := (List.nodup_cons.1 once).1
    have balance := accounts.balance id
    rw [List.count_eq_zero_of_not_mem unheld] at balance
    exact ⟨balance, given_free call⟩
  returns id now announced result t claimed performs := by
    obtain ⟨result, call, heq⟩ := Step.map_eq_ok.1 performs
    exact accounts.online_busy claimed call

end Accounts

/-- However the calls of whichever callers follow one another, as long as each answers: the claims,
the statuses and the tasks agree with what was given and taken back, and so will the next answer. -/
theorem Run.exclusive_claims {config : Config} (run : Run config history swarm)
    (answered : ∀ entry ∈ history, entry.answer ≠ none) : Exclusive history swarm := by
  obtain ⟨held, accounts⟩ := run.accounts answered
  exact accounts.toExclusive

/-- The one agent of a swarm is out with the caller that was given it. -/
theorem Run.exclusive_claims_of_lone :
    ∃ swarm, Run {} loneHistory swarm ∧ (∀ entry ∈ loneHistory, entry.answer ≠ none) ∧
      handedOut loneHistory ⟨"solo-1"⟩ = 1 ∧ takenBack loneHistory ⟨"solo-1"⟩ = 0 ∧
      swarm.claimed = [⟨"solo-1"⟩] ∧ Exclusive loneHistory swarm := by
  obtain ⟨level, health, run⟩ := run_lone
  have answered : ∀ entry ∈ loneHistory, entry.answer ≠ none := by simp [loneHistory]
  exact ⟨_, run, answered, by decide +kernel, by decide +kernel, rfl,
    Run.exclusive_claims run answered⟩

end JobSwarm.Swarm
