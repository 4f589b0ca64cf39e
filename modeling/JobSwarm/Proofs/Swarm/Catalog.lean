import JobSwarm.Coordinator.Config
import JobSwarm.Proofs.Swarm.Interruption
import JobSwarm.Proofs.Text.Digits

/-!
# From the catalog to the agents

A registry is filled from a catalog, once. Each entry brings its agents, which are called after it
and numbered from one. No two of them are called alike unless two entries are, whatever characters
stand in the names: what follows the last hyphen of an identifier is the number.

Results:

* `Id.replica_inj`: an identifier tells its entry and its number.
* `nodup_roster`: identifiers are repeated when two entries have the same name, and agents.
* `populate_of_clash`, `populate_of_distinct`: filling a registry is refused for that reason alone.
* `lists_enlist`: the agents that come into being, and their places.
* `Filled.after`: later calls leave the agents what and where they are.
* `validate_catalog`: settings that pass their check have a catalog that is not refused.
* `Run.expands`: all of this for every registry that has not been filled.
-/

namespace JobSwarm

/-! ## Identifiers -/

namespace Agent

/-- A list is cut in one place only after which a character does not come any more. -/
theorem append_cons_inj {front front' back back' : List Char} {c : Char} (last : c ∉ back)
    (last' : c ∉ back') (same : front ++ c :: back = front' ++ c :: back') :
    front = front' ∧ back = back' := by
  obtain ⟨between, fronts, backs⟩ | ⟨between, fronts, backs⟩ := List.append_eq_append_iff.1 same
  · cases between with
    | nil => exact ⟨by rw [fronts, List.append_nil], (List.cons.inj backs).2⟩
    | cons d between =>
      rw [(List.cons.inj backs).2] at last
      exact absurd (List.mem_append_right _ List.mem_cons_self) last
  · cases between with
    | nil => exact ⟨by rw [fronts, List.append_nil], (List.cons.inj backs).2.symm⟩
    | cons d between =>
      rw [(List.cons.inj backs).2] at last'
      exact absurd (List.mem_append_right _ List.mem_cons_self) last'

theorem hyphen_notMem_toDigits (n : Nat) : '-' ∉ Nat.toDigits 10 n := by
  intro mem
  have digit := Text.digits_toDigits n '-' mem
  exact absurd digit (by decide)

/-- An identifier tells its entry and its number. -/
theorem Id.replica_inj {name name' : String} {n n' : Nat} :
    Id.replica name n = .replica name' n' ↔ name = name' ∧ n = n' := by
  constructor
  · intro same
    have texts : name.toList ++ '-' :: Nat.toDigits 10 n =
        name'.toList ++ '-' :: Nat.toDigits 10 n' := by
      have chars := congrArg (fun id : Id => id.text.toList) same
      simpa [Id.replica] using chars
    obtain ⟨names, digits⟩ :=
      append_cons_inj (hyphen_notMem_toDigits n) (hyphen_notMem_toDigits n') texts
    refine ⟨String.toList_inj.1 names, ?_⟩
    rw [← Text.ofDigits_toDigits n, digits, Text.ofDigits_toDigits]
  · rintro ⟨rfl, rfl⟩
    rfl

namespace Definition

variable {definition other : Definition} {id : Id}

theorem mem_ids :
    id ∈ definition.ids ↔
      ∃ n < definition.replicas.toNat, .replica definition.name (n + 1) = id := by
  simp [ids]

theorem ids_nodup (definition : Definition) : definition.ids.Nodup := by
  refine List.nodup_range.map fun n n' same => ?_
  exact Nat.succ.inj (Id.replica_inj.1 same).2

theorem length_ids (definition : Definition) :
    definition.ids.length = definition.replicas.toNat := by
  rw [ids, List.length_map, List.length_range]

theorem replicas_pos_iff : 0 < definition.replicas.toNat ↔ definition.replicas ≠ 0 := by
  rw [Nat.pos_iff_ne_zero, ne_eq, ne_eq, ← UInt32.toNat_inj]
  rfl

/-- Two entries share identifiers when they have the same name, and agents: the first of each. -/
theorem disjoint_ids :
    definition.ids.Disjoint other.ids ↔
      ¬(definition.name = other.name ∧ definition.replicas ≠ 0 ∧ other.replicas ≠ 0) := by
  constructor
  · rintro apart ⟨names, some, some'⟩
    refine apart (mem_ids.2 ⟨0, replicas_pos_iff.2 some, rfl⟩) ?_
    exact mem_ids.2 ⟨0, replicas_pos_iff.2 some', by rw [names]⟩
  · intro apart id mem mem'
    obtain ⟨n, less, rfl⟩ := mem_ids.1 mem
    obtain ⟨n', less', same⟩ := mem_ids.1 mem'
    refine apart ⟨(Id.replica_inj.1 same).1.symm, replicas_pos_iff.1 ?_, replicas_pos_iff.1 ?_⟩
    · exact Nat.zero_lt_of_lt less
    · exact Nat.zero_lt_of_lt less'

end Definition

end Agent

namespace Swarm

open Step (Keeps keeps_of_get left)
open Time (Instant)

variable {definitions : List Agent.Definition} {now : Instant}

/-! ## Rosters -/

/-- Two entries of a catalog have a name, and agents. -/
def Repeats (definitions : List Agent.Definition) (name : String) : Prop :=
  ∃ first second, [first, second].Sublist definitions ∧ first.name = name ∧ second.name = name ∧
    first.replicas ≠ 0 ∧ second.replicas ≠ 0

/-- Two entries of a catalog have the same name, and agents. -/
def Clashes (definitions : List Agent.Definition) : Prop :=
  ∃ name, Repeats definitions name

theorem not_clashes_iff :
    ¬Clashes definitions ↔ definitions.Pairwise fun first second =>
      ¬(first.name = second.name ∧ first.replicas ≠ 0 ∧ second.replicas ≠ 0) := by
  rw [List.pairwise_iff_forall_sublist]
  constructor
  · rintro distinct first second both ⟨same, some⟩
    exact distinct ⟨_, first, second, both, same, rfl, some⟩
  · rintro distinct ⟨name, first, second, both, same, same', some⟩
    exact distinct both ⟨same.trans same'.symm, some⟩

theorem roster_ids :
    (Session.roster definitions).map (·.1) = definitions.flatMap (·.ids) := by
  simp [Session.roster, List.map_flatMap, Function.comp_def]

/-- Identifiers are repeated when two entries have the same name, and agents. -/
theorem nodup_roster :
    ((Session.roster definitions).map (·.1)).Nodup ↔ ¬Clashes definitions := by
  rw [roster_ids, List.nodup_flatMap, not_clashes_iff]
  constructor
  · rintro ⟨-, apart⟩
    exact apart.imp fun disjoint => Agent.Definition.disjoint_ids.1 disjoint
  · intro apart
    exact ⟨fun definition _ => definition.ids_nodup,
      apart.imp fun clash => Agent.Definition.disjoint_ids.2 clash⟩

theorem length_roster :
    (Session.roster definitions).length = (definitions.map (·.replicas.toNat)).sum := by
  simp [Session.roster, List.length_flatMap, Agent.Definition.length_ids]

/-! ## Filling a registry -/

theorem firstRepeated?_of_nodup {seen ids : List Agent.Id} (once : ids.Nodup)
    (new : ∀ id ∈ ids, id ∉ seen) : Session.firstRepeated? seen ids = none := by
  induction ids generalizing seen with
  | nil => rfl
  | cons id rest ih =>
    obtain ⟨unique, once⟩ := List.nodup_cons.1 once
    obtain ⟨fresh, new⟩ := List.forall_mem_cons.1 new
    rw [Session.firstRepeated?, if_neg (by simpa using fresh)]
    refine ih once fun other mem => ?_
    rw [List.mem_cons, not_or]
    exact ⟨fun same => unique (same ▸ mem), new other mem⟩

theorem firstRepeated?_append (seen ids others : List Agent.Id) :
    Session.firstRepeated? seen (ids ++ others) =
      (Session.firstRepeated? seen ids).or
        (Session.firstRepeated? (ids.reverse ++ seen) others) := by
  induction ids generalizing seen with
  | nil => rfl
  | cons id rest ih =>
    rw [List.cons_append, Session.firstRepeated?, Session.firstRepeated?]
    split
    · rfl
    · rw [ih, List.reverse_cons, List.append_assoc, List.singleton_append]

/-- Whoever is there of an entry, the first agent of the entry is there. -/
def Whole (seen : List Agent.Id) : Prop :=
  ∀ name n, .replica name (n + 1) ∈ seen → .replica name 1 ∈ seen

theorem Whole.nil : Whole [] :=
  fun _ _ mem => absurd mem List.not_mem_nil

/-- The first agent of an entry is the first that is repeated. -/
theorem firstRepeated?_ids {seen : List Agent.Id} {definition : Agent.Definition}
    (whole : Whole seen) :
    Session.firstRepeated? seen definition.ids =
      if definition.replicas ≠ 0 ∧ .replica definition.name 1 ∈ seen then
        some (.replica definition.name 1)
      else none := by
  split
  · next repeated =>
    obtain ⟨some, mem⟩ := repeated
    obtain ⟨n, count⟩ := Nat.exists_eq_add_one.2 (Agent.Definition.replicas_pos_iff.2 some)
    rw [Agent.Definition.ids, count, List.range_succ_eq_map, List.map_cons, Session.firstRepeated?,
      if_pos (by simpa using mem)]
  · next new =>
    refine firstRepeated?_of_nodup definition.ids_nodup fun id mem repeated => new ?_
    obtain ⟨n, less, rfl⟩ := Agent.Definition.mem_ids.1 mem
    exact ⟨Agent.Definition.replicas_pos_iff.1 (Nat.zero_lt_of_lt less), whole _ _ repeated⟩

theorem Whole.append_ids {seen : List Agent.Id} (whole : Whole seen)
    (definition : Agent.Definition) : Whole (definition.ids.reverse ++ seen) := by
  intro name n mem
  rw [List.mem_append, List.mem_reverse] at mem ⊢
  rcases mem with own | earlier
  · obtain ⟨m, less, same⟩ := Agent.Definition.mem_ids.1 own
    rw [← (Agent.Id.replica_inj.1 same).1]
    exact .inl (Agent.Definition.mem_ids.2 ⟨0, Nat.zero_lt_of_lt less, rfl⟩)
  · exact .inr (whole name n earlier)

/-- What is repeated first is the first agent of an entry whose name came before. -/
theorem firstRepeated?_eq_some {seen : List Agent.Id} {id : Agent.Id} (whole : Whole seen)
    (repeated : Session.firstRepeated? seen (definitions.flatMap (·.ids)) = some id) :
    ∃ definition ∈ definitions, definition.replicas ≠ 0 ∧ id = .replica definition.name 1 ∧
      (id ∈ seen ∨ Repeats definitions definition.name) := by
  induction definitions generalizing seen with
  | nil => cases repeated
  | cons definition rest ih =>
    rw [List.flatMap_cons, firstRepeated?_append, firstRepeated?_ids whole] at repeated
    split at repeated
    · next came =>
      obtain rfl := Option.some.inj repeated
      exact ⟨definition, List.mem_cons_self, came.1, rfl, .inl came.2⟩
    · obtain ⟨other, mem, some, rfl, came⟩ := ih (whole.append_ids definition) repeated
      refine ⟨other, List.mem_cons_of_mem _ mem, some, rfl, ?_⟩
      rw [List.mem_append, List.mem_reverse] at came
      obtain (own | earlier) | ⟨first, second, both, names⟩ := came
      · obtain ⟨n, less, same⟩ := Agent.Definition.mem_ids.1 own
        have some' := Agent.Definition.replicas_pos_iff.1 (Nat.zero_lt_of_lt less)
        exact .inr ⟨definition, other, (List.singleton_sublist.2 mem).cons_cons definition,
          (Agent.Id.replica_inj.1 same).1, rfl, some', some⟩
      · exact .inl earlier
      · exact .inr ⟨first, second, both.cons definition, names⟩

theorem firstRepeated?_roster :
    Session.firstRepeated? [] ((Session.roster definitions).map (·.1)) = none ↔
      ¬Clashes definitions := by
  rw [← nodup_roster]
  constructor
  · exact fun none => (Session.firstRepeated?_eq_none none).1
  · exact fun once => firstRepeated?_of_nodup once fun _ _ => List.not_mem_nil

variable {s : Session}

/-- A catalog of which two entries clash is refused for the first agent of such an entry. -/
theorem populate_of_clash (before : s.swarm.initialized = false) (clash : Clashes definitions) :
    ∃ name, Repeats definitions name ∧
      Session.populate definitions now s = .ok (.error (.duplicateAgent (.replica name 1))) s := by
  cases repeated : Session.firstRepeated? [] ((Session.roster definitions).map (·.1)) with
  | none => exact absurd clash (firstRepeated?_roster.1 repeated)
  | some id =>
    have first := repeated
    rw [roster_ids] at first
    obtain ⟨definition, -, -, rfl, seen | repeats⟩ := firstRepeated?_eq_some .nil first
    · cases seen
    refine ⟨definition.name, repeats, ?_⟩
    simp only [Session.populate, Step.get_bind, before, Session.enroll_eq_error.2 repeated]
    rfl

/-- Agents that are new can be summed up. -/
theorem ofAgents_enlist (config : Config) (listed : List (Agent.Id × Agent.Definition))
    (now : Instant) :
    ∃ health, Health.ofAgents config (Session.enlist listed now) = .ok health := by
  have unused : ∀ agent ∈ Session.enlist listed now, agent.metrics = { onlineSince := now } := by
    intro agent mem
    obtain ⟨⟨⟨id, definition⟩, place⟩, -, rfl⟩ := List.mem_map.1 mem
    rfl
  have times : durations (Session.enlist listed now) = 0 := by
    refine List.sum_eq_zero fun time mem => ?_
    obtain ⟨agent, new, rfl⟩ := List.mem_map.1 mem
    rw [unused agent new]
    rfl
  have counts : tasks (Session.enlist listed now) = 0 := by
    refine List.sum_eq_zero fun count mem => ?_
    obtain ⟨agent, new, rfl⟩ := List.mem_map.1 mem
    rw [unused agent new]
    rfl
  rw [Health.ofAgents_ends, times, counts]
  decide

theorem populate_of_distinct (before : s.swarm.initialized = false)
    (distinct : ¬Clashes definitions) :
    ∃ once health, Session.populate definitions now s = .ok (.ok ()) { s with swarm :=
      { s.swarm with
        toRegistry := .ofAgents (Session.enlist (Session.roster definitions) now) once
        initialized := true
        level := some health.level
        health := health } } := by
  cases enrolled : Session.enroll (Session.roster definitions) now with
  | error id =>
    have repeated := Session.enroll_eq_error.1 enrolled
    rw [firstRepeated?_roster.2 distinct] at repeated
    cases repeated
  | ok registry =>
    obtain ⟨once, rfl⟩ := Session.enroll_eq_ok enrolled
    obtain ⟨health, summary⟩ := ofAgents_enlist s.swarm.config (Session.roster definitions) now
    refine ⟨once, health, ?_⟩
    simp only [Session.populate, Step.get_bind, before, enrolled, Registry.ofAgents, summary]
    rfl

/-! ## Agents in their places -/

/-- A registry has the agents of a catalog, in their order, and its index tells their places. -/
structure Lists (definitions : List Agent.Definition) (swarm : Swarm) : Prop where
  initialized : swarm.initialized = true
  agents : swarm.agents.map (fun agent => (agent.id, agent.tier, agent.capability)) =
    definitions.flatMap fun definition =>
      definition.ids.map fun id => (id, definition.tier, definition.capability)
  ids_once : (swarm.agents.map (·.id)).Nodup
  places : ∀ place agent, swarm.agents[place]? = some agent →
    agent.ordinal = .ofNat place ∧ swarm.index.lookup agent.id = some place ∧ agent.status = .idle
  length : swarm.agents.length = (definitions.map (·.replicas.toNat)).sum

/-- An agent in its place when it is made. -/
theorem getElem?_enlist {listed : List (Agent.Id × Agent.Definition)} {place : Nat} {agent : Agent}
    (there : (Session.enlist listed now)[place]? = some agent) :
    ∃ (id : Agent.Id) (definition : Agent.Definition), agent =
      .fresh id definition.tier definition.capability (.ofNat place) now := by
  rw [Session.enlist, List.getElem?_map, List.getElem?_zipIdx, Option.map_map] at there
  obtain ⟨⟨id, definition⟩, -, rfl⟩ := Option.map_eq_some_iff.1 there
  refine ⟨id, definition, ?_⟩
  rw [Nat.zero_add]
  rfl

theorem lists_enlist {swarm : Swarm} (filled : swarm.initialized = true)
    (agents : swarm.agents = Session.enlist (Session.roster definitions) now) :
    Lists definitions swarm := by
  refine ⟨filled, ?_, swarm.ids_once, fun place agent there => ?_, ?_⟩
  · have entries : (fun agent : Agent => (agent.id, agent.tier, agent.capability)) ∘
        (fun (((id, definition), place) : (Agent.Id × Agent.Definition) × Nat) =>
          Agent.fresh id definition.tier definition.capability (.ofNat place) now) =
        (fun (id, definition) => (id, definition.tier, definition.capability)) ∘ (·.1) := rfl
    rw [agents, Session.enlist, List.map_map, entries, ← List.map_map, List.zipIdx_map_fst,
      Session.roster, List.map_flatMap]
    simp only [List.map_map, Function.comp_def]
  · have told := Registry.lookup_of_getElem? there
    rw [agents] at there
    obtain ⟨id, definition, rfl⟩ := getElem?_enlist there
    exact ⟨rfl, told, rfl⟩
  · rw [agents, Session.enlist, List.length_map, List.length_zipIdx, length_roster]

/-! ## Later calls -/

/-- What is settled of the agents, in their places. -/
def badges (swarm : Swarm) : List Agent.Badge :=
  swarm.agents.map Agent.badge

/-- Where agents are the same, the index tells the same places. -/
theorem lookup_of_badges {swarm other : Swarm} (same : other.badges = swarm.badges)
    (id : Agent.Id) : other.index.lookup id = swarm.index.lookup id := by
  have ids := congrArg (List.map Agent.Badge.id) same
  rw [Swarm.badges, Swarm.badges, List.map_map, List.map_map] at ids
  refine Option.ext fun place => ?_
  rw [other.indexed, swarm.indexed, ← List.getElem?_map, ← List.getElem?_map]
  exact iff_of_eq (congrArg (·[place]? = some id) ids)

/-- A registry that has been filled with certain agents. -/
structure Filled (badges : List Agent.Badge) (swarm : Swarm) : Prop where
  registered : swarm.Registered
  initialized : swarm.initialized = true
  same : swarm.badges = badges

namespace Filled

variable {badges : List Agent.Badge} {swarm : Swarm} {id : Agent.Id}

/-- Changes of agents that leave what is settled of them. -/
theorem map (h : swarm.Filled badges) {changed : Swarm} {change : Agent → Agent}
    (initialized : changed.initialized = swarm.initialized)
    (agents : changed.agents = swarm.agents.map change)
    (keeps : ∀ agent ∈ swarm.agents, (change agent).badge = agent.badge) :
    changed.Filled badges := by
  have same : changed.badges = swarm.badges := by
    rw [Swarm.badges, agents, List.map_map]
    exact List.map_congr_left keeps
  have ids : changed.agents.map (·.id) = swarm.agents.map (·.id) := by
    have keys := congrArg (List.map Agent.Badge.id) same
    rw [Swarm.badges, Swarm.badges, List.map_map, List.map_map] at keys
    exact keys
  exact ⟨h.registered.of_ids ids initialized, initialized.trans h.initialized, same.trans h.same⟩

theorem modifyAgent (h : swarm.Filled badges) {changed : Swarm} {change : Agent → Agent}
    (initialized : changed.initialized = swarm.initialized)
    (agents : changed.agents = (swarm.modifyAgent id change).agents)
    (own : ∀ agent, agent.id = id → (change agent).id = id)
    (keeps : ∀ agent ∈ swarm.agents, agent.id = id → (change agent).badge = agent.badge) :
    changed.Filled badges := by
  refine h.map initialized (agents.trans (agents_modifyAgent _ own)) fun agent mem => ?_
  split
  · next same => exact keeps agent mem same
  · rfl

theorem lasts (badges : List Agent.Badge) : Lasts (Filled badges) where
  summed _ _ _ h := ⟨h.registered.of_ids rfl rfl, h.initialized, h.same⟩
  recovered _ _ h := h.map rfl rfl fun agent _ => by split <;> rfl
  claimed _ _ _ _ _ h := h.modifyAgent rfl rfl (fun _ own => own) fun _ _ _ => rfl

/-- The agent that is taken back is the one that was given out. -/
theorem returned {agent after : Agent} (h : swarm.Filled badges)
    (found : swarm.agent? id = some agent) (alike : after.badge = agent.badge) :
    (Session.returned swarm after).Filled badges := by
  have own : after.id = id := (congrArg Agent.Badge.id alike).trans (Session.agent?_id found)
  refine h.modifyAgent rfl rfl (fun _ _ => rfl) fun other mem same => ?_
  rw [eq_of_agent? found mem (same.trans own), alike]

/-- A registry is filled once. -/
theorem keeps_populate (badges : List Agent.Badge) (definitions : List Agent.Definition)
    (now : Instant) :
    Keeps (fun s => s.swarm.Filled badges) (Session.populate definitions now) := by
  refine keeps_of_get fun s h => ?_
  rw [if_pos h.initialized]
  exact h

theorem keeps (badges : List Agent.Badge) (call : Call) :
    Keeps (fun s => s.swarm.Filled badges) call.perform := by
  cases call with
  | populate definitions now => exact (keeps_populate badges definitions now).map
  | acquire capability now => exact ((lasts badges).acquire capability none now).map
  | acquireFor task now => exact ((lasts badges).acquire task.capability (some task.jobId) now).map
  | release id outcome now =>
    exact ((lasts badges).release outcome now fun _ _ _ found _ alike h =>
      h.returned found alike).map
  | markOffline id =>
    exact ((lasts badges).markOffline fun _ h =>
      h.modifyAgent rfl rfl (fun _ own => own) fun _ _ _ => rfl).map
  | markOnline id now =>
    exact ((lasts badges).markOnline fun _ _ _ _ h =>
      h.modifyAgent rfl rfl (fun _ own => own) fun _ _ _ => rfl).map
  | reset id =>
    exact ((lasts badges).reset fun _ _ _ _ h =>
      h.modifyAgent rfl rfl (fun _ own => own) fun _ _ _ => rfl).map
  | recover now => exact ((lasts badges).recover now).map

/-- Whatever is called, and wherever it stops, the agents stay what and where they are. -/
theorem after (h : swarm.Filled badges) (calls : List Call) :
    (swarm.after calls).Filled badges := by
  induction calls generalizing swarm with
  | nil => exact h
  | cons call rest ih => exact ih (keeps badges call ⟨swarm, []⟩ h)

end Filled

end Swarm

/-! ## Settings -/

namespace Coordinator.Config

theorem demand_eq_ok {condition : Prop} [Decidable condition] {fault : Fault} :
    demand condition fault = .ok () ↔ condition := by
  unfold demand
  split <;> simp_all

/-- The entries of a catalog that is accepted have names of their own, and agents. -/
theorem validateCatalog_ok {seen : List String} {definitions : List Agent.Definition}
    (valid : validateCatalog seen definitions = .ok ()) :
    (definitions.map (·.name)).Nodup ∧ (∀ definition ∈ definitions, definition.name ∉ seen) ∧
      ∀ definition ∈ definitions, definition.replicas ≠ 0 := by
  induction definitions generalizing seen with
  | nil => exact ⟨.nil, nofun, nofun⟩
  | cons definition rest ih =>
    simp only [validateCatalog, bind_eq_ok] at valid
    obtain ⟨⟨⟩, new, ⟨⟩, -, ⟨⟩, some, others⟩ := valid
    obtain ⟨once, unseen, others⟩ := ih others
    have first : definition.name ∉ rest.map (·.name) := fun mem => by
      obtain ⟨other, mem, same⟩ := List.mem_map.1 mem
      exact unseen other mem (same ▸ List.mem_cons_self)
    exact ⟨List.nodup_cons.2 ⟨first, once⟩,
      List.forall_mem_cons.2 ⟨demand_eq_ok.1 new, fun other mem seen =>
        unseen other mem (List.mem_cons_of_mem _ seen)⟩,
      List.forall_mem_cons.2 ⟨demand_eq_ok.1 some, others⟩⟩

/-- Settings that pass their check have agents, and no two entries of their catalog clash. -/
theorem validate_catalog {config : Config} (valid : config.validate = .ok ()) :
    ¬Swarm.Clashes config.swarm.agents ∧
      1 ≤ (config.swarm.agents.map (·.replicas.toNat)).sum := by
  simp only [validate, bind_eq_ok] at valid
  -- Nine other checks come before those of the catalog.
  obtain ⟨⟨⟩, -, ⟨⟩, -, ⟨⟩, -, ⟨⟩, -, ⟨⟩, -, ⟨⟩, -, ⟨⟩, -, ⟨⟩, -, ⟨⟩, -, ⟨⟩, anyone, catalog⟩ :=
    valid
  obtain ⟨once, -, some⟩ := validateCatalog_ok catalog
  constructor
  · rw [Swarm.not_clashes_iff]
    exact (List.pairwise_map.1 once).imp fun apart clash => apart clash.1
  · obtain ⟨definition, mem⟩ := List.exists_mem_of_ne_nil _ (demand_eq_ok.1 anyone)
    calc 1
      _ ≤ definition.replicas.toNat := Agent.Definition.replicas_pos_iff.2 (some definition mem)
      _ ≤ (config.swarm.agents.map (·.replicas.toNat)).sum :=
        List.le_sum_of_mem (List.mem_map_of_mem mem)

end Coordinator.Config

namespace Swarm

open Time (Instant)

/-- What comes of filling a registry from a catalog. -/
structure Expands (definitions : List Agent.Definition) (now : Instant) (s : Session) : Prop where
  /-- The catalog is refused when two of its entries clash, and then nothing has changed. -/
  refused_iff : (∃ id, Session.populate definitions now s = .ok (.error (.duplicateAgent id)) s) ↔
    Clashes definitions
  /-- It is the first agent of such an entry that is named. -/
  named : ∀ id t, Session.populate definitions now s = .ok (.error (.duplicateAgent id)) t →
    t = s ∧ ∃ name, Repeats definitions name ∧ id = .replica name 1
  /-- Any other catalog brings its agents, which stay what and where they are from then on. -/
  fills : ¬Clashes definitions → ∃ t, Session.populate definitions now s = .ok (.ok ()) t ∧
    Lists definitions t.swarm ∧ ∀ calls, (t.swarm.after calls).badges = t.swarm.badges ∧
      ∀ id, (t.swarm.after calls).index.lookup id = t.swarm.index.lookup id

variable {config : Config} {history : List Entry} {s : Session}

theorem populate_expands (before : s.swarm.initialized = false)
    (definitions : List Agent.Definition) (now : Instant) : Expands definitions now s where
  refused_iff := by
    constructor
    · rintro ⟨id, refused⟩
      by_contra distinct
      obtain ⟨_, _, fills⟩ := populate_of_distinct before distinct
      cases fills.symm.trans refused
    · intro clash
      obtain ⟨name, -, refused⟩ := populate_of_clash before clash
      exact ⟨_, refused⟩
  named := by
    intro id t refused
    by_cases clash : Clashes definitions
    · obtain ⟨name, repeats, refused'⟩ := populate_of_clash before clash
      cases refused'.symm.trans refused
      exact ⟨rfl, name, repeats, rfl⟩
    · obtain ⟨_, _, fills⟩ := populate_of_distinct before clash
      cases fills.symm.trans refused
  fills := by
    intro distinct
    obtain ⟨_, _, fills⟩ := populate_of_distinct before distinct
    refine ⟨_, fills, lists_enlist rfl rfl, fun calls => ?_⟩
    refine and_iff_left_of_imp lookup_of_badges |>.2 ?_
    refine (Filled.after ⟨⟨?_⟩, rfl, rfl⟩ calls).same
    nofun

/-- Whoever called a swarm before it is filled has found no agents. A catalog is refused only when
two of its entries have the same name, and agents; settings that pass their check fill a new swarm
with as many agents as their catalog adds up to. -/
theorem Run.expands (run : Run config history s.swarm) (before : s.swarm.initialized = false) :
    s.swarm.agents = [] ∧ (∀ definitions now, Expands definitions now s) ∧
      ∀ (settings : Coordinator.Config) (now : Instant), settings.validate = .ok () →
        ∃ t, Session.populate settings.swarm.agents now ⟨.empty settings.swarm, []⟩ =
            .ok (.ok ()) t ∧
          Lists settings.swarm.agents t.swarm ∧ 1 ≤ t.swarm.agents.length := by
  refine ⟨run.registered.empty_before before, populate_expands before, fun settings now valid => ?_⟩
  obtain ⟨distinct, some⟩ := settings.validate_catalog valid
  have new : Expands settings.swarm.agents now ⟨.empty settings.swarm, []⟩ :=
    populate_expands rfl settings.swarm.agents now
  obtain ⟨t, fills, lists, -⟩ := new.fills distinct
  exact ⟨t, fills, lists, lists.length ▸ some⟩

/-- A catalog of which one name goes on as the identifiers of the other do. -/
def hyphenCatalog : List Agent.Definition :=
  [{ name := "a", tier := .fast, capability := "compress", replicas := 2 },
    { name := "a-1", tier := .deep, capability := "compress" }]

theorem Run.expands_of_hyphens :
    ∃ t, Session.populate hyphenCatalog .epoch ⟨.empty {}, []⟩ = .ok (.ok ()) t ∧
      t.swarm.agents.map (·.id.text) = ["a-1", "a-2", "a-1-1"] := by
  have distinct : ¬Clashes hyphenCatalog := not_clashes_iff.2 (by decide)
  obtain ⟨-, expands, -⟩ := Run.expands (.begins : Run {} [] (empty {})) (s := ⟨empty {}, []⟩) rfl
  obtain ⟨t, fills, lists, -⟩ := (expands hyphenCatalog .epoch).fills distinct
  refine ⟨t, fills, ?_⟩
  have texts := congrArg (List.map fun entry => entry.1.text) lists.agents
  rw [List.map_map] at texts
  exact texts.trans (by decide)

end Swarm

end JobSwarm
