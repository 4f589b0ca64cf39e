import JobSwarm.Proofs.Swarm.Serves

/-!
# Callers of a swarm

Any number of callers call on a swarm, one call after another, each at a time of its own. A call
answers, or stops at an overflow and leaves what it had done by then.

Results:

* `Step.Keeps.bind` and the laws beside it: what an operation keeps, even where it stops.
* `tally_counts`: counting an outcome takes nothing off, wherever it stops.
* `Lasts`: a property of a registry that new summaries, recoveries and claims keep, so that each
  call keeps it that keeps it where it changes one agent.
* `Call.keeps_registered`: no call changes the identifiers of a registry, but the first that fills
  it.
* `Run.registered`: whoever called before, no two agents have the same identifier.
-/

namespace JobSwarm

/-! ## What operations keep -/

namespace Step

variable {S α β : Type} {P : S → Prop}

/-- The state that an operation leaves where it ends or stops. -/
def left : EStateM.Result Overflow S α → S
  | .ok _ s => s
  | .error _ s => s

/-- An operation keeps a property of the state, whether it ends or stops. -/
def Keeps (P : S → Prop) (x : Step S α) : Prop :=
  ∀ s, P s → P (left (x s))

theorem keeps_pure (a : α) : Keeps P (pure a : Step S α) := fun _ h => h

theorem keeps_get : Keeps P (get : Step S S) := fun _ h => h

/-- What is kept may depend on the state that was read. -/
theorem keeps_of_get {f : S → Step S α} (h : ∀ s, P s → P (left (f s s))) :
    Keeps P (get >>= f) := h

theorem keeps_modify {f : S → S} (h : ∀ s, P s → P (f s)) : Keeps P (modify f : Step S PUnit) := h

theorem keeps_ofSum (sum : Except Overflow α) : Keeps P (ofSum sum : Step S α) := by
  cases sum with
  | ok value => exact keeps_pure value
  | error overflow => exact fun _ h => h

namespace Keeps

/-- An operation that ends keeps what it would keep. -/
theorem of_ok {x : Step S α} {a : α} {s t : S} (keeps : Keeps P x) (hs : P s)
    (h : x s = .ok a t) : P t := by
  have kept := keeps s hs
  rw [h] at kept
  exact kept

theorem bind {x : Step S α} {f : α → Step S β} (hx : Keeps P x) (hf : ∀ a, Keeps P (f a)) :
    Keeps P (x >>= f) := by
  intro s hs
  have hu := hx s hs
  show P (left (EStateM.bind x f s))
  unfold EStateM.bind
  cases h : x s with
  | ok a u =>
    rw [h] at hu
    exact hf a u hu
  | error overflow u =>
    rw [h] at hu
    exact hu

theorem map {x : Step S α} {f : α → β} (hx : Keeps P x) : Keeps P (f <$> x) := by
  intro s hs
  have hu := hx s hs
  show P (left (EStateM.map f x s))
  unfold EStateM.map
  cases h : x s with
  | ok a u =>
    rw [h] at hu
    exact hu
  | error overflow u =>
    rw [h] at hu
    exact hu

theorem discard {x : Step S α} (hx : Keeps P x) : Keeps P (discard x) :=
  hx.map

theorem forM {ι : Type} {x : ι → Step S PUnit} (hx : ∀ i, Keeps P (x i)) (items : List ι) :
    Keeps P (items.forM x) := by
  induction items with
  | nil => exact keeps_pure ()
  | cons item rest ih => exact (hx item).bind fun _ => ih

end Keeps

end Step

/-- What is settled of an agent when it is made: what it is called, what it can do and where it
stands. -/
structure Agent.Badge where
  id : Agent.Id
  tier : Agent.Tier
  capability : String
  ordinal : UInt64
  deriving DecidableEq, Repr

def Agent.badge (agent : Agent) : Agent.Badge :=
  ⟨agent.id, agent.tier, agent.capability, agent.ordinal⟩

namespace Swarm

open Step (Keeps bind_eq_error get_eq_ok keeps_get keeps_modify keeps_ofSum keeps_of_get
  keeps_pure left not_get_eq_error not_modify_eq_error ofSum_eq_error)
open Time (Instant)

/-! ## Registries -/

/-- A registry that is empty until it is filled. -/
structure Registered (swarm : Swarm) : Prop where
  empty_before : swarm.initialized = false → swarm.agents = []

variable {swarm : Swarm}

theorem recovered_ids (swarm : Swarm) (now : Instant) :
    (swarm.recovered now).agents.map (·.id) = swarm.agents.map (·.id) :=
  Registry.ids_eq_of_index rfl

namespace Registered

theorem of_ids {changed : Swarm} (h : swarm.Registered)
    (ids : changed.agents.map (·.id) = swarm.agents.map (·.id))
    (initialized : changed.initialized = swarm.initialized) : changed.Registered where
  empty_before before := by
    rw [initialized] at before
    rw [h.empty_before before] at ids
    exact List.map_eq_nil_iff.1 ids

theorem modifyAgent (h : swarm.Registered) (id : Agent.Id) (change : Agent → Agent) :
    (swarm.modifyAgent id change).Registered :=
  h.of_ids (swarm.ids_modifyAgent id change) rfl

theorem recovered (h : swarm.Registered) (now : Instant) : (swarm.recovered now).Registered :=
  h.of_ids (recovered_ids swarm now) rfl

end Registered

/-! ## Counting -/

/-- Counts that are no less than they were. -/
structure Grows (before after : Agent.Metrics) : Prop where
  completed : before.tasksCompleted.toNat ≤ after.tasksCompleted.toNat
  failed : before.tasksFailed.toNat ≤ after.tasksFailed.toNat
  duration : before.totalDurationMs.toNat ≤ after.totalDurationMs.toNat

theorem Grows.refl (metrics : Agent.Metrics) : Grows metrics metrics :=
  ⟨Nat.le_refl _, Nat.le_refl _, Nat.le_refl _⟩

theorem Grows.trans {first second third : Agent.Metrics} (h : Grows first second)
    (h' : Grows second third) : Grows first third :=
  ⟨Nat.le_trans h.completed h'.completed, Nat.le_trans h.failed h'.failed,
    Nat.le_trans h.duration h'.duration⟩

/-- From an agent to the same one with more work counted. -/
structure Counted (before after : Agent) : Prop where
  same : after = { before with metrics := after.metrics, failureStreak := after.failureStreak }
  grows : Grows before.metrics after.metrics

namespace Counted

variable {agent counted : Agent}

theorem refl (agent : Agent) : Counted agent agent :=
  ⟨rfl, .refl _⟩

theorem more {metrics : Agent.Metrics} (h : Counted agent counted)
    (grows : Grows counted.metrics metrics) : Counted agent { counted with metrics := metrics } :=
  ⟨by rw [h.same], h.grows.trans grows⟩

theorem streak (h : Counted agent counted) (streak : UInt32) :
    Counted agent { counted with failureStreak := streak } :=
  ⟨by rw [h.same], h.grows⟩

theorem id (h : Counted agent counted) : counted.id = agent.id := by rw [h.same]

theorem status (h : Counted agent counted) : counted.status = agent.status := by rw [h.same]

theorem badge (h : Counted agent counted) : counted.badge = agent.badge := by
  rw [h.same]
  rfl

end Counted

namespace Session

variable {agent counted : Agent} {overflow : Overflow}

theorem countTask_stops {get : Agent.Metrics → UInt64}
    {put : Agent.Metrics → UInt64 → Agent.Metrics}
    (h : countTask get put agent = .error overflow counted) : counted = agent := by
  simp only [countTask, bind_eq_error, get_eq_ok, not_get_eq_error, ofSum_eq_error,
    not_modify_eq_error, and_false, exists_false, or_false, false_or] at h
  obtain ⟨_, _, ⟨rfl, rfl⟩, -, rfl⟩ := h
  rfl

theorem countDuration_stops {duration : UInt64}
    (h : countDuration duration agent = .error overflow counted) : counted = agent := by
  simp only [countDuration, bind_eq_error, get_eq_ok, not_get_eq_error, ofSum_eq_error,
    not_modify_eq_error, and_false, exists_false, or_false, false_or] at h
  obtain ⟨_, _, ⟨rfl, rfl⟩, -, rfl⟩ := h
  rfl

theorem keeps_countTask {get : Agent.Metrics → UInt64}
    {put : Agent.Metrics → UInt64 → Agent.Metrics}
    (grows : ∀ metrics count, (get metrics).toNat ≤ count.toNat →
      Grows metrics (put metrics count)) :
    Keeps (Counted agent) (countTask get put) := by
  intro counted h
  cases done : countTask get put counted with
  | ok _ more =>
    obtain ⟨count, sum, rfl⟩ := countTask_ok done
    have least : (get counted.metrics).toNat ≤ count.toNat := by
      rw [(addWord_eq_ok_iff ..).1 sum]
      exact Nat.le_add_right _ _
    exact h.more (grows _ _ least)
  | error overflow more =>
    rw [countTask_stops done]
    exact h

theorem keeps_countDuration (duration : UInt64) :
    Keeps (Counted agent) (countDuration duration) := by
  intro counted h
  cases done : countDuration duration counted with
  | ok _ more =>
    obtain ⟨total, sum, rfl⟩ := countDuration_ok done
    have least : counted.metrics.totalDurationMs.toNat ≤ total.toNat := by
      rw [(addWord_eq_ok_iff ..).1 sum]
      exact Nat.le_add_right _ _
    exact h.more ⟨Nat.le_refl _, Nat.le_refl _, least⟩
  | error overflow more =>
    rw [countDuration_stops done]
    exact h

/-- Counting an outcome takes nothing off, and changes nothing else, wherever it stops. -/
theorem tally_counts (outcome : Task.Outcome) (agent : Agent) :
    Counted agent (left (tally outcome agent)) := by
  have keeps : Keeps (Counted agent) (tally outcome) := by
    cases outcome with
    | succeeded ms =>
      unfold tally
      refine (keeps_countTask ?_).bind fun _ => ?_
      · exact fun _ _ least => ⟨least, Nat.le_refl _, Nat.le_refl _⟩
      · exact (keeps_countDuration ms).bind fun _ => keeps_modify fun _ h => h.streak 0
    | failed ms =>
      unfold tally
      refine (keeps_countTask ?_).bind fun _ => ?_
      · exact fun _ _ least => ⟨Nat.le_refl _, least, Nat.le_refl _⟩
      · refine (keeps_countDuration ms).bind fun _ => keeps_get.bind fun _ => ?_
        exact (keeps_ofSum _).bind fun streak => keeps_modify fun _ h => h.streak streak
    | cancelled =>
      unfold tally
      refine keeps_countTask ?_
      exact fun _ _ _ => ⟨Nat.le_refl _, Nat.le_refl _, Nat.le_refl _⟩
  exact keeps agent (.refl agent)

end Session

theorem discharged_badge (agent : Agent) (outcome : Task.Outcome) (threshold : UInt32)
    (now : Instant) : (Session.discharged agent outcome threshold now).badge = agent.badge := by
  simp only [Session.discharged]
  split
  · split <;> rfl
  · rfl

/-! ## What calls keep -/

/-- A property of a registry that outlasts new summaries, recoveries and claims. -/
structure Lasts (P : Swarm → Prop) : Prop where
  summed (swarm : Swarm) (level : Option Level) (health : Health) :
    P swarm → P { swarm with level := level, health := health }
  recovered (swarm : Swarm) (now : Instant) : P swarm → P (swarm.recovered now)
  claimed (swarm : Swarm) (capability : String) (agent : Agent) (job : Option Job.Id) :
    swarm.choice? capability = some agent → P swarm → P (swarm.claim agent.id job)

namespace Lasts

open Session (announce announceStatus modifySwarm refreshHealth)

variable {P : Swarm → Prop} {s : Session}

/-- What is announced is nothing to the registry. -/
theorem announcing (notice : Event.Notice) : Keeps (fun s => P s.swarm) (announce notice) :=
  keeps_modify fun _ h => h

theorem modifying {change : Swarm → Swarm} (h : ∀ swarm, P swarm → P (change swarm)) :
    Keeps (fun s => P s.swarm) (modifySwarm change) :=
  keeps_modify fun s hs => h s.swarm hs

theorem refreshing (lasts : Lasts P) : Keeps (fun s => P s.swarm) refreshHealth := by
  unfold refreshHealth
  refine keeps_get.bind fun s => (keeps_ofSum _).bind fun health => ?_
  refine (modifying fun swarm => lasts.summed swarm _ _).bind fun _ => ?_
  split
  · exact announcing _
  · exact keeps_pure _

/-- Whatever is done to an agent, it is announced, and the agents are summed up anew. -/
theorem altered {α : Type} {change : Swarm → Swarm} {id : Agent.Id} {old new : Agent.Status}
    {result : α} (lasts : Lasts P) (h : P (change s.swarm)) :
    P (left ((do
      modifySwarm change
      announceStatus id old new
      refreshHealth
      return result : Step Session α) s)).swarm := by
  have rest : Keeps (fun s => P s.swarm) (do
      announceStatus id old new
      refreshHealth
      return result : Step Session α) :=
    (announcing _).bind fun _ => lasts.refreshing.bind fun _ => keeps_pure _
  exact rest { s with swarm := change s.swarm } h

theorem recover (lasts : Lasts P) (now : Instant) :
    Keeps (fun s => P s.swarm) (Session.recover now) := by
  unfold Session.recover
  refine keeps_get.bind fun s => ?_
  dsimp only
  split
  · exact keeps_pure _
  · refine (modifying fun swarm => lasts.recovered swarm now).bind fun _ => ?_
    refine (Keeps.forM (fun id => announcing _) _).bind fun _ => ?_
    exact lasts.refreshing.bind fun _ => keeps_pure _

theorem acquire (lasts : Lasts P) (capability : String) (job : Option Job.Id) (now : Instant) :
    Keeps (fun s => P s.swarm) (Session.acquire capability job now) := by
  unfold Session.acquire
  refine keeps_get.bind fun s => ?_
  split
  · exact keeps_pure _
  refine (lasts.recover now).discard.bind fun _ => keeps_of_get fun s h => ?_
  cases choice : s.swarm.choice? capability with
  | none => exact h
  | some agent => exact lasts.altered (lasts.claimed s.swarm capability agent job choice h)

theorem release (lasts : Lasts P) {id : Agent.Id} (outcome : Task.Outcome) (now : Instant)
    (returns : ∀ swarm agent after, swarm.agent? id = some agent → id ∈ swarm.claimed →
      after.badge = agent.badge → P swarm → P (Session.returned swarm after)) :
    Keeps (fun s => P s.swarm) (Session.release id outcome now) := by
  intro s hs
  by_cases absent : s.swarm.agent? id = none ∨ id ∉ s.swarm.claimed
  · obtain ⟨error, refused⟩ := Session.release_of_unclaimed outcome now absent
    rw [refused]
    exact hs
  rw [not_or, not_not, ← ne_eq, Option.ne_none_iff_exists'] at absent
  obtain ⟨⟨agent, found⟩, claimed⟩ := absent
  have counts := (Session.tally_counts outcome agent).badge
  rw [Session.release_of_claimed found claimed]
  cases tallied : Session.tally outcome agent with
  | error overflow counted =>
    rw [tallied] at counts
    have same : counted.id = id := (congrArg Agent.Badge.id counts).trans (Session.agent?_id found)
    have kept := returns s.swarm agent counted found claimed counts hs
    rw [Session.returned, same] at kept
    exact kept
  | ok _ counted =>
    rw [tallied] at counts
    refine lasts.refreshing.bind (fun _ => keeps_pure _) _ ?_
    refine returns s.swarm agent _ found claimed ?_ hs
    exact (discharged_badge ..).trans counts

/-- What is done to an agent that is known, unless it is refused. -/
theorem administered {α : Type} {found : Option Agent} {missing : α} {refused : Agent → α}
    {refuses : Agent → Prop} [DecidablePred refuses] {rest : Agent → Step Session α}
    (hs : P s.swarm) :
    (∀ agent, found = some agent → ¬refuses agent → P (left (rest agent s)).swarm) →
      P (left ((match found with
        | none => pure missing
        | some agent => if refuses agent then pure (refused agent) else rest agent : Step Session α)
          s)).swarm := by
  intro h
  cases found with
  | none => exact hs
  | some agent =>
    dsimp only
    split
    · exact hs
    · next accepted => exact h agent rfl accepted

theorem markOffline (lasts : Lasts P) {id : Agent.Id}
    (leaves : ∀ swarm, P swarm →
      P (swarm.modifyAgent id fun agent => { agent with status := .offline })) :
    Keeps (fun s => P s.swarm) (Session.markOffline id) :=
  keeps_of_get fun s hs => administered hs fun _ _ _ => lasts.altered (leaves s.swarm hs)

theorem markOnline (lasts : Lasts P) {id : Agent.Id} {now : Instant}
    (returns : ∀ swarm agent, swarm.agent? id = some agent → agent.status = .offline → P swarm →
      P (swarm.modifyAgent id (Session.backOnline (swarm.claimed.contains id) now))) :
    Keeps (fun s => P s.swarm) (Session.markOnline id now) :=
  keeps_of_get fun s hs => administered hs fun agent found offline =>
    lasts.altered (returns s.swarm agent found (not_not.1 offline) hs)

theorem reset (lasts : Lasts P) {id : Agent.Id}
    (forgives : ∀ swarm agent, swarm.agent? id = some agent → agent.status = .degraded → P swarm →
      P (swarm.modifyAgent id forgiven)) :
    Keeps (fun s => P s.swarm) (Session.reset id) :=
  keeps_of_get fun s hs => administered hs fun agent found degraded =>
    lasts.altered (forgives s.swarm agent found (not_not.1 degraded) hs)

end Lasts

theorem Registered.lasts : Lasts Registered where
  summed _ _ _ h := h.of_ids rfl rfl
  recovered _ now h := h.recovered now
  claimed _ _ _ _ _ h := h.of_ids (Swarm.ids_modifyAgent ..) rfl

namespace Session

theorem keeps_populate (definitions : List Agent.Definition) (now : Instant) :
    Keeps (fun s => s.swarm.Registered) (populate definitions now) := by
  unfold populate
  refine keeps_get.bind fun s => ?_
  split
  · exact keeps_pure _
  cases enroll (roster definitions) now with
  | error id => exact keeps_pure _
  | ok registry =>
    refine (keeps_ofSum _).bind fun health => ?_
    exact (Lasts.modifying fun swarm _ => ⟨nofun⟩).bind fun _ => keeps_pure _

theorem keeps_recover (now : Instant) : Keeps (fun s => s.swarm.Registered) (recover now) :=
  Registered.lasts.recover now

theorem keeps_acquire (capability : String) (job : Option Job.Id) (now : Instant) :
    Keeps (fun s => s.swarm.Registered) (acquire capability job now) :=
  Registered.lasts.acquire capability job now

theorem keeps_release (id : Agent.Id) (outcome : Task.Outcome) (now : Instant) :
    Keeps (fun s => s.swarm.Registered) (release id outcome now) := by
  refine Registered.lasts.release outcome now fun swarm agent after _ _ _ h => ?_
  exact h.of_ids (Swarm.ids_modifyAgent ..) rfl

theorem keeps_markOffline (id : Agent.Id) :
    Keeps (fun s => s.swarm.Registered) (markOffline id) :=
  Registered.lasts.markOffline fun _ h => h.modifyAgent _ _

theorem keeps_markOnline (id : Agent.Id) (now : Instant) :
    Keeps (fun s => s.swarm.Registered) (markOnline id now) :=
  Registered.lasts.markOnline fun _ _ _ _ h => h.modifyAgent _ _

theorem keeps_reset (id : Agent.Id) : Keeps (fun s => s.swarm.Registered) (reset id) :=
  Registered.lasts.reset fun _ _ _ _ h => h.modifyAgent _ _

end Session

/-! ## Calls -/

/-- A call of a caller, and when it is made. -/
inductive Call where
  | populate (definitions : List Agent.Definition) (now : Instant)
  | acquire (capability : String) (now : Instant)
  | acquireFor (task : Task) (now : Instant)
  | release (id : Agent.Id) (outcome : Task.Outcome) (now : Instant)
  | markOffline (id : Agent.Id)
  | markOnline (id : Agent.Id) (now : Instant)
  | reset (id : Agent.Id)
  | recover (now : Instant)

/-- What a caller is answered. -/
inductive Answer where
  | done (result : Except Error Unit)
  | given (id : Option Agent.Id)
  | returned (result : Except Error Agent.Status)
  | recovered (ids : List Agent.Id)

/-- What a call does. -/
def Call.perform : Call → Step Session Answer
  | .populate definitions now => .done <$> Session.populate definitions now
  | .acquire capability now => .given <$> Session.acquire capability none now
  | .acquireFor task now => .given <$> Session.acquireFor task now
  | .release id outcome now => .returned <$> Session.release id outcome now
  | .markOffline id => .done <$> Session.markOffline id
  | .markOnline id now => .done <$> Session.markOnline id now
  | .reset id => .done <$> Session.reset id
  | .recover now => .recovered <$> Session.recover now

theorem Call.keeps_registered (call : Call) :
    Keeps (fun s => s.swarm.Registered) call.perform := by
  cases call with
  | populate definitions now => exact (Session.keeps_populate definitions now).map
  | acquire capability now => exact (Session.keeps_acquire capability none now).map
  | acquireFor task now => exact (Session.keeps_acquire task.capability (some task.jobId) now).map
  | release id outcome now => exact (Session.keeps_release id outcome now).map
  | markOffline id => exact (Session.keeps_markOffline id).map
  | markOnline id now => exact (Session.keeps_markOnline id now).map
  | reset id => exact (Session.keeps_reset id).map
  | recover now => exact (Session.keeps_recover now).map

/-- A call that was made, and its answer; none if it stopped at an overflow. -/
structure Entry where
  call : Call
  answer : Option Answer

/-- The swarm after some calls, of whichever callers. -/
inductive Run (config : Config) : List Entry → Swarm → Prop
  | begins : Run config [] (.empty config)
  | answers {history : List Entry} {call : Call} {answer : Answer} {s t : Session}
      (run : Run config history s.swarm) (performs : call.perform s = .ok answer t) :
      Run config (history ++ [⟨call, some answer⟩]) t.swarm
  | stops {history : List Entry} {call : Call} {overflow : Overflow} {s t : Session}
      (run : Run config history s.swarm) (performs : call.perform s = .error overflow t) :
      Run config (history ++ [⟨call, none⟩]) t.swarm

theorem registered_empty (config : Config) : (empty config).Registered :=
  ⟨fun _ => rfl⟩

/-- Whoever called before, the registry is empty until it is filled. -/
theorem Run.registered {config : Config} {history : List Entry} (run : Run config history swarm) :
    swarm.Registered := by
  induction run with
  | begins => exact registered_empty config
  | @answers _ call _ s _ _ performs ih =>
    have h := call.keeps_registered s ih
    rw [performs] at h
    exact h
  | @stops _ call _ s _ _ performs ih =>
    have h := call.keeps_registered s ih
    rw [performs] at h
    exact h

/-- A catalog of one agent. -/
def loneCatalog : List Agent.Definition :=
  [{ name := "solo", tier := .fast, capability := "compress" }]

/-- The one agent is given to a caller. -/
def loneHistory : List Entry :=
  [⟨.populate loneCatalog .epoch, some (.done (.ok ()))⟩,
    ⟨.acquire "compress" .epoch, some (.given (some ⟨"solo-1"⟩))⟩]

/-- The swarm afterwards, up to its summary. -/
def loneHeld (level : Option Level) (health : Health) : Swarm where
  toRegistry := .ofAgents
    [{ Agent.fresh ⟨"solo-1"⟩ .fast "compress" 0 .epoch with status := .busy }]
    (List.nodup_singleton _)
  config := {}
  initialized := true
  claimed := [⟨"solo-1"⟩]
  level := level
  health := health

theorem run_lone : ∃ level health, Run {} loneHistory (loneHeld level health) := by
  have fills : ∃ t, Session.populate loneCatalog .epoch ⟨empty {}, []⟩ = .ok (.ok ()) t := ⟨_, rfl⟩
  obtain ⟨t, fills⟩ := fills
  obtain ⟨⟨_, refused⟩, -⟩ | ⟨-, -, once, health, ht⟩ := Session.populate_ok fills
  · cases refused
  have run : Run {} ([] ++ [⟨.populate loneCatalog .epoch, some (.done (.ok ()))⟩]) t.swarm :=
    Run.answers (s := ⟨empty {}, []⟩) .begins (Step.map_eq_ok.2 ⟨_, fills, rfl⟩)
  let solo : Agent := .fresh ⟨"solo-1"⟩ .fast "compress" 0 .epoch
  have gives : ∃ u, Session.acquire "compress" none .epoch t = .ok (some solo.id) u ∧
      t.Leads (t.swarm.claim solo.id none) u := by
    rw [ht]
    exact Session.acquire_ends rfl (by rfl) (by rfl) (by rfl)
  obtain ⟨u, gives, leads⟩ := gives
  have held : u.swarm = loneHeld u.swarm.level u.swarm.health := by
    rw [ht] at leads
    exact leads.swarm_eq
  refine ⟨u.swarm.level, u.swarm.health, ?_⟩
  rw [← held]
  exact run.answers (Step.map_eq_ok.2 ⟨_, gives, rfl⟩)

end Swarm

end JobSwarm
