import JobSwarm.Agent.Basic

/-!
# Registries of agents

The agents stand in the order of the catalog, and an index tells the place of each: agents are
looked up and changed through it. An index that is wrong cannot be built.

Results:

* `lookup_of_getElem?`: the index tells the place of each agent.
* `ids_once`: no two agents of a registry have the same identifier.
* `agent?_eq_find?`: what is looked up through the index is what a search finds.
* `agents_modify`: a change through the index is a change of the agents of that identifier.
-/

namespace JobSwarm.Swarm

/-- Agents and the index of their places. -/
@[ext]
structure Registry where
  /-- The agents, in the order of the catalog. -/
  agents : List Agent := []
  index : List (Agent.Id × Nat) := []
  indexed : ∀ id place, index.lookup id = some place ↔ (agents[place]?).map (·.id) = some id := by
    simp

namespace Registry

/-- The agent of an identifier, from its place (`get_mut`). -/
def agent? (registry : Registry) (id : Agent.Id) : Option Agent :=
  (registry.index.lookup id).bind (registry.agents[·]?)

/-- Changes all agents. -/
def map (registry : Registry) (change : Agent → Agent)
    (keeps : ∀ agent, (change agent).id = agent.id) : Registry where
  agents := registry.agents.map change
  index := registry.index
  indexed id place := by
    rw [registry.indexed, List.getElem?_map, Option.map_map]
    have same : (·.id) ∘ change = (·.id) := funext keeps
    rw [same]

/-- Changes an agent in its place, all but its identifier. -/
def modify (registry : Registry) (id : Agent.Id) (change : Agent → Agent) : Registry where
  agents :=
    match registry.index.lookup id with
    | none => registry.agents
    | some place =>
      registry.agents.modify place fun agent => { change agent with id := agent.id }
  index := registry.index
  indexed other place := by
    rw [registry.indexed]
    split
    · rfl
    · rw [List.getElem?_modify, Option.map_eq_map, Option.map_map]
      refine iff_of_eq (congrArg (· = some other)
        (congrArg (Option.map · _) (funext fun agent => ?_)))
      rw [Function.comp_apply]
      split <;> rfl

/-! ## Making an index -/

theorem lookup_zipIdx {ids : List Agent.Id} (once : ids.Nodup) (start : Nat) (id : Agent.Id)
    (place : Nat) : (ids.zipIdx start).lookup id = some place ↔
      ∃ k, place = start + k ∧ ids[k]? = some id := by
  induction ids generalizing start with
  | nil => simp
  | cons first rest ih =>
    obtain ⟨new, once⟩ := List.nodup_cons.1 once
    rw [List.zipIdx_cons, List.lookup_cons]
    by_cases own : id = first
    · subst own
      rw [beq_self_eq_true]
      constructor
      · intro here
        exact ⟨0, (Option.some.inj here).symm, rfl⟩
      · rintro ⟨k, rfl, there⟩
        cases k with
        | zero => rfl
        | succ k =>
          rw [List.getElem?_cons_succ] at there
          exact absurd (List.mem_of_getElem? there) new
    · rw [beq_false_of_ne own]
      dsimp only
      rw [ih once]
      constructor
      · rintro ⟨k, rfl, there⟩
        exact ⟨k + 1, by omega, there⟩
      · rintro ⟨k, rfl, there⟩
        cases k with
        | zero => exact absurd (Option.some.inj there).symm own
        | succ k => exact ⟨k, by omega, there⟩

/-- A registry of agents that are called differently. -/
def ofAgents (agents : List Agent) (once : (agents.map (·.id)).Nodup) : Registry where
  agents := agents
  index := (agents.map (·.id)).zipIdx
  indexed id place := by
    rw [lookup_zipIdx once, ← List.getElem?_map]
    constructor
    · rintro ⟨k, rfl, there⟩
      rwa [Nat.zero_add]
    · exact fun there => ⟨place, (Nat.zero_add place).symm, there⟩

/-! ## Looking up through the index -/

variable {registry : Registry} {id : Agent.Id} {agent : Agent} {place : Nat}

/-- The index tells the place of each agent. -/
theorem lookup_of_getElem? (there : registry.agents[place]? = some agent) :
    registry.index.lookup agent.id = some place := by
  rw [registry.indexed, there, Option.map_some]

/-- No two agents have the same identifier: the index tells one place for it. -/
theorem ids_once (registry : Registry) : (registry.agents.map (·.id)).Nodup := by
  rw [List.Nodup, List.pairwise_map, List.pairwise_iff_getElem]
  intro i j hi hj less same
  have first := lookup_of_getElem? (List.getElem?_eq_getElem hi)
  rw [same, lookup_of_getElem? (List.getElem?_eq_getElem hj)] at first
  exact Nat.ne_of_lt less (Option.some.inj first).symm

theorem agent?_eq_find? (registry : Registry) (id : Agent.Id) :
    registry.agent? id = registry.agents.find? fun agent => agent.id == id := by
  rw [agent?]
  cases found : registry.index.lookup id with
  | none =>
    refine (List.find?_eq_none.2 fun agent mem own => ?_).symm
    obtain ⟨place, there⟩ := List.getElem?_of_mem mem
    rw [← eq_of_beq own, lookup_of_getElem? there] at found
    cases found
  | some place =>
    obtain ⟨agent, there, own⟩ := Option.map_eq_some_iff.1 ((registry.indexed id place).1 found)
    obtain ⟨inside, here⟩ := List.getElem?_eq_some_iff.1 there
    rw [Option.bind_some, there]
    refine (List.find?_eq_some_iff_getElem.2 ⟨by simpa using own, place, inside, here, ?_⟩).symm
    intro earlier less
    rw [Bool.not_eq_true', beq_eq_false_iff_ne]
    intro same
    have before := lookup_of_getElem? (List.getElem?_eq_getElem (Nat.lt_trans less inside))
    rw [same, found] at before
    exact Nat.ne_of_gt less (Option.some.inj before)

/-- The index tells all identifiers and where they are. -/
theorem ids_eq_of_index {other : Registry} (same : other.index = registry.index) :
    other.agents.map (·.id) = registry.agents.map (·.id) := by
  refine List.ext_getElem? fun place => Option.ext fun id => ?_
  rw [List.getElem?_map, List.getElem?_map, ← other.indexed, ← registry.indexed, same]

/-- A change through the index is a change of the agents of that identifier. -/
theorem agents_modify (change : Agent → Agent)
    (keeps : ∀ agent, agent.id = id → (change agent).id = id) :
    (registry.modify id change).agents =
      registry.agents.map fun agent => if agent.id = id then change agent else agent := by
  refine List.ext_getElem? fun place => ?_
  rw [List.getElem?_map]
  simp only [modify]
  cases found : registry.index.lookup id with
  | none =>
    dsimp only
    cases there : registry.agents[place]? with
    | none => rfl
    | some agent =>
      have apart : agent.id ≠ id := fun own => by
        rw [← own, lookup_of_getElem? there] at found
        cases found
      rw [Option.map_some, if_neg apart]
  | some own =>
    dsimp only
    rw [List.getElem?_modify]
    cases there : registry.agents[place]? with
    | none => rfl
    | some agent =>
      have here : own = place ↔ agent.id = id := by
        rw [← Option.some.injEq, ← found, registry.indexed, there, Option.map_some,
          Option.some.injEq]
      rw [Option.map_eq_map, Option.map_some, Option.map_some]
      by_cases same : agent.id = id
      · rw [if_pos (here.2 same), if_pos same, same, ← keeps agent same]
      · rw [if_neg (mt here.1 same), if_neg same]

/-- Two changes of one agent are the second one, if that does not look at the first. -/
theorem modify_twice (registry : Registry) (id : Agent.Id) (first second : Agent) :
    (registry.modify id fun _ => first).modify id (fun _ => second) =
      registry.modify id fun _ => second := by
  ext1
  · simp only [modify]
    split
    · rfl
    · rw [List.modify_modify_eq]
      rfl
  · rfl

end Registry

end JobSwarm.Swarm
