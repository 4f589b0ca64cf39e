import JobSwarm.Coordinator.Config
import JobSwarm.Proofs.Json.Excerpt
import JobSwarm.Proofs.Json.Fraction
import JobSwarm.Proofs.Records

/-!
# Settings given in part

Settings need not be given in full. A section that is left out is the standard section, a member
that is left out has its standard, and all else is as it was written, whatever members there are
besides that nobody knows.

Results:

* `Queue.Config.read_excerpt`, `Swarm.Config.read_excerpt`, `Emitter.Config.read_excerpt`: sections.
* `Agent.Definition.read_excerpt`: entries of the catalog.
* `Coordinator.Config.read_excerpt`, `Job.Config.read_excerpt`: settings of a coordinator or a job.
* `Json.Yields.of_read`: from what is read of a value to what is read of its text.
* `decode_excerpt`: what is read of settings given in part, as values and in their texts.
* `decode_excerpt_ne`: a threshold that is not found in its numeral, one that is no number, settings
  of an engine that are nested too deep, and a path that is not written.
-/

namespace JobSwarm

open Json (ReadsBack)

/-! ## Sections -/

namespace Queue.Config

/-- The settings with the standards of what is left out. -/
def without (config : Config) (omitted : List String) : Config where
  concurrency :=
    if "concurrency" ∈ omitted then (default : Config).concurrency else config.concurrency
  scheduleIntervalMs :=
    if "schedule_interval_ms" ∈ omitted then (default : Config).scheduleIntervalMs
    else config.scheduleIntervalMs
  pollIntervalMs :=
    if "poll_interval_ms" ∈ omitted then (default : Config).pollIntervalMs
    else config.pollIntervalMs
  progressIntervalMs :=
    if "progress_interval_ms" ∈ omitted then (default : Config).progressIntervalMs
    else config.progressIntervalMs
  defaultTimeoutSecs :=
    if "default_timeout_secs" ∈ omitted then (default : Config).defaultTimeoutSecs
    else config.defaultTimeoutSecs

variable {config : Config} {omitted : List String} {value : Json}

theorem read_excerpt (excerpt : Json.Excerpt fieldNames omitted config.write value) :
    read value = some (config.without omitted) := by
  obtain ⟨part, rfl⟩ := excerpt.isObject
  rw [write] at excerpt
  rw [read, Json.fields?_bind]
  dsimp only
  rw [excerpt.defaulted "concurrency" (by decide)
      (Json.defaulted_of_get? (by simp) (Json.halfWord?_whole config.concurrency)),
    excerpt.defaulted "schedule_interval_ms" (by decide)
      (Json.defaulted_of_get? (by simp) (Json.word?_word config.scheduleIntervalMs)),
    excerpt.defaulted "poll_interval_ms" (by decide)
      (Json.defaulted_of_get? (by simp) (Json.word?_word config.pollIntervalMs)),
    excerpt.defaulted "progress_interval_ms" (by decide)
      (Json.defaulted_of_get? (by simp) (Json.word?_word config.progressIntervalMs)),
    excerpt.defaulted "default_timeout_secs" (by decide)
      (Json.defaulted_of_get? (by simp) (Json.word?_word config.defaultTimeoutSecs))]
  rfl

theorem excerpt_write (config : Config) : Json.Excerpt fieldNames [] config.write config.write :=
  .refl (Json.ordered_self _) (by decide)

theorem without_nothing (config : Config) : config.without [] = config := by
  simp only [without, List.not_mem_nil, if_false]

end Queue.Config

namespace Emitter.Config

/-- The settings with the standards of what is left out. -/
def without (config : Config) (omitted : List String) : Config where
  historyCapacity :=
    if "history_capacity" ∈ omitted then (default : Config).historyCapacity
    else config.historyCapacity

variable {config : Config} {omitted : List String} {value : Json}

theorem read_excerpt (excerpt : Json.Excerpt fieldNames omitted config.write value) :
    read value = some (config.without omitted) := by
  obtain ⟨part, rfl⟩ := excerpt.isObject
  rw [write] at excerpt
  rw [read, Json.fields?_bind]
  rw [excerpt.defaulted "history_capacity" (by decide)
    (Json.defaulted_of_get? (by simp) (Json.word?_word config.historyCapacity))]
  rfl

theorem excerpt_write (config : Config) : Json.Excerpt fieldNames [] config.write config.write :=
  .refl (Json.ordered_self _) (by decide)

theorem without_nothing (config : Config) : config.without [] = config := by
  simp only [without, List.not_mem_nil, if_false]

end Emitter.Config

/-! ## The catalog -/

namespace Agent.Definition

/-- The entry, which stands for one agent if it does not say for how many. -/
def without (entry : Definition) (unsaid : Prop) [Decidable unsaid] : Definition :=
  { entry with replicas := if unsaid then 1 else entry.replicas }

/-- What an entry leaves out that does not say for how many agents it stands. -/
def omitted (unsaid : Prop) [Decidable unsaid] : List String :=
  if unsaid then ["replicas"] else []

variable {entry : Definition} {unsaid : Prop} [Decidable unsaid] {value : Json}

theorem mem_omitted_iff {name : String} : name ∈ omitted unsaid ↔ name = "replicas" ∧ unsaid := by
  rw [omitted]
  split <;> simp_all

theorem read_excerpt (excerpt : Json.Excerpt fieldNames (omitted unsaid) entry.write value) :
    read value = some (entry.without unsaid) := by
  obtain ⟨part, rfl⟩ := excerpt.isObject
  rw [write] at excerpt
  rw [read, Json.fields?_bind]
  rw [excerpt.required "name" (by decide)
      (Json.required_of_get? (by simp) (Json.text?_text entry.name)),
    excerpt.required "tier" (by decide)
      (Json.required_of_get? (by simp) entry.tier.read_write),
    excerpt.required "capability" (by decide)
      (Json.required_of_get? (by simp) (Json.text?_text entry.capability)),
    excerpt.defaulted "replicas" (by decide)
      (Json.defaulted_of_get? (by simp) (Json.halfWord?_whole entry.replicas))]
  simp only [mem_omitted_iff, String.reduceEq, false_and, true_and, if_false]
  rfl

theorem excerpt_write (entry : Definition) : Json.Excerpt fieldNames [] entry.write entry.write :=
  .refl (Json.ordered_self _) (by decide)

end Agent.Definition

namespace Swarm.Config

/-- The settings with the standards of what is left out; the entries of the catalog at the places
in `unsaid` do not say for how many agents they stand. -/
def without (config : Config) (omitted : List String) (unsaid : List Nat) : Config where
  agents :=
    if "agents" ∈ omitted then (default : Config).agents
    else config.agents.zipIdx.map fun (entry, place) => entry.without (place ∈ unsaid)
  failureThreshold :=
    if "failure_threshold" ∈ omitted then (default : Config).failureThreshold
    else config.failureThreshold
  degradedCooldownMs :=
    if "degraded_cooldown_ms" ∈ omitted then (default : Config).degradedCooldownMs
    else config.degradedCooldownMs
  fallbackToDegraded :=
    if "fallback_to_degraded" ∈ omitted then (default : Config).fallbackToDegraded
    else config.fallbackToDegraded
  strainedBelow :=
    if "strained_below" ∈ omitted then (default : Config).strainedBelow else config.strainedBelow
  criticalBelow :=
    if "critical_below" ∈ omitted then (default : Config).criticalBelow else config.criticalBelow

/-- The doubles of settings. -/
def floats (config : Config) : List Float :=
  [config.strainedBelow, config.criticalBelow]

/-- Whether some values give the entries of a catalog but for what is left out. -/
def CatalogExcerpt (agents : List Agent.Definition) (unsaid : List Nat) (entries : List Json) :
    Prop :=
  List.Forall₂ (fun (entry : Agent.Definition × Nat) value =>
      Json.Excerpt Agent.Definition.fieldNames (Agent.Definition.omitted (entry.2 ∈ unsaid))
        entry.1.write value)
    agents.zipIdx entries

variable {config : Config} {omitted : List String} {unsaid : List Nat} {entries : List Json}
  {value : Json}

theorem listOf_of_catalogExcerpt (catalog : CatalogExcerpt config.agents unsaid entries) :
    Json.listOf Agent.Definition.read (.list entries) =
      some (config.agents.zipIdx.map fun (entry, place) => entry.without (place ∈ unsaid)) :=
  Json.listOf_of_forall₂ (catalog.imp fun _ _ excerpt => Agent.Definition.read_excerpt excerpt)

theorem catalogExcerpt_write (agents : List Agent.Definition) :
    CatalogExcerpt agents [] (agents.map Agent.Definition.write) := by
  have entries : agents.map Agent.Definition.write =
      agents.zipIdx.map fun entry => entry.1.write := by
    conv_lhs => rw [← List.zipIdx_map_fst 0 agents, List.map_map]
    rfl
  rw [CatalogExcerpt, entries, List.forall₂_map_right_iff, List.forall₂_same]
  exact fun entry _ => entry.1.excerpt_write

theorem excerpt_write (config : Config) : Json.Excerpt fieldNames []
    (config.write.put "agents" (.list (config.agents.map Agent.Definition.write)))
    config.write := by
  have agents : config.write.put "agents" (.list (config.agents.map Agent.Definition.write)) =
      config.write := by
    simp [write, Json.put, Json.Members.set]
  rw [agents]
  exact .refl (Json.ordered_self _) (by decide)

theorem without_nothing (config : Config) : config.without [] [] = config := by
  have entries : (config.agents.zipIdx.map fun (entry, place) => entry.without (place ∈ [])) =
      config.agents := by
    conv_rhs => rw [← List.zipIdx_map_fst 0 config.agents]
    exact List.map_congr_left fun entry _ => by simp [Agent.Definition.without]
  rw [without, entries]
  simp only [List.not_mem_nil, if_false]

/-- Settings with thresholds that are no numbers are not read, for JSON has no text for these. -/
theorem read_excerpt (catalog : CatalogExcerpt config.agents unsaid entries)
    (excerpt : Json.Excerpt fieldNames omitted (config.write.put "agents" (.list entries)) value) :
    read value =
      let rest := config.without omitted unsaid
      Json.ifFinite rest.floats rest := by
  obtain ⟨part, rfl⟩ := excerpt.isObject
  rw [write, Json.put] at excerpt
  rw [read, Json.fields?_bind]
  dsimp only
  rw [excerpt.defaulted "agents" (by decide)
      (Json.defaulted_of_get? (by simp [Json.Members.get?_set]) (listOf_of_catalogExcerpt catalog)),
    excerpt.defaulted "failure_threshold" (by decide)
      (Json.defaulted_of_get? (by simp [Json.Members.get?_set])
        (Json.halfWord?_whole config.failureThreshold)),
    excerpt.defaulted "degraded_cooldown_ms" (by decide)
      (Json.defaulted_of_get? (by simp [Json.Members.get?_set])
        (Json.word?_word config.degradedCooldownMs)),
    excerpt.defaulted "fallback_to_degraded" (by decide)
      (Json.defaulted_of_get? (by simp [Json.Members.get?_set])
        (Json.flag?_bool config.fallbackToDegraded)),
    excerpt.defaulted_number "strained_below" (by decide) config.strainedBelow
      (by simp [Json.Members.get?_set]) (by decide +kernel),
    excerpt.defaulted_number "critical_below" (by decide) config.criticalBelow
      (by simp [Json.Members.get?_set]) (by decide +kernel)]
  let rest := config.without omitted unsaid
  show (do
      let strained ← Json.ifFinite [rest.strainedBelow] rest.strainedBelow
      let critical ← Json.ifFinite [rest.criticalBelow] rest.criticalBelow
      return { rest with strainedBelow := strained, criticalBelow := critical }) =
    Json.ifFinite rest.floats rest
  simp only [Json.ifFinite, floats, List.forall_mem_cons]
  by_cases strained : rest.strainedBelow.isFinite = true
  · by_cases critical : rest.criticalBelow.isFinite = true
    · simp [strained, critical]
    · simp [strained, critical]
  · simp [strained]

end Swarm.Config

/-! ## Settings of a coordinator -/

namespace Coordinator.Config

/-- The names of the members that are left out of the settings of a coordinator. -/
structure Omission where
  sections : List String := []
  queue : List String := []
  swarm : List String := []
  events : List String := []
  /-- The places of the entries of the catalog that do not say for how many agents they stand. -/
  unsaid : List Nat := []

/-- The settings with the standards of what is left out. -/
def without (config : Config) (omitted : Omission) : Config where
  queue := if "queue" ∈ omitted.sections then default else config.queue.without omitted.queue
  swarm :=
    if "swarm" ∈ omitted.sections then default
    else config.swarm.without omitted.swarm omitted.unsaid
  events := if "events" ∈ omitted.sections then default else config.events.without omitted.events

/-- The doubles of settings. -/
def floats (config : Config) : List Float :=
  config.swarm.floats

/-- Whether a value gives settings but for what is left out. -/
inductive Excerpt (config : Config) (omitted : Omission) : Json → Prop
  | of {queue swarm events value : Json} {entries : List Json}
      (queue_excerpt : Json.Excerpt Queue.Config.fieldNames omitted.queue config.queue.write queue)
      (catalog : Swarm.Config.CatalogExcerpt config.swarm.agents omitted.unsaid entries)
      (swarm_excerpt : Json.Excerpt Swarm.Config.fieldNames omitted.swarm
        (config.swarm.write.put "agents" (.list entries)) swarm)
      (events_excerpt :
        Json.Excerpt Emitter.Config.fieldNames omitted.events config.events.write events)
      (excerpt : Json.Excerpt fieldNames omitted.sections
        (((config.write.put "queue" queue).put "swarm" swarm).put "events" events) value) :
      Excerpt config omitted value

variable {config : Config} {omitted : Omission} {value : Json}

theorem floats_default_finite : ∀ x ∈ (default : Swarm.Config).floats, x.isFinite = true := by
  decide +kernel

/-- The section of the swarm is the only one that may not be read. -/
theorem read_swarm (reads : Swarm.Config.read value =
      let rest := config.swarm.without omitted.swarm omitted.unsaid
      Json.ifFinite rest.floats rest) :
    (if "swarm" ∈ omitted.sections then some {} else Swarm.Config.read value) =
      let rest := config.without omitted
      Json.ifFinite rest.floats rest.swarm := by
  dsimp only [floats, without]
  by_cases out : "swarm" ∈ omitted.sections
  · rw [if_pos out, if_pos out, Json.ifFinite, if_pos floats_default_finite]
    rfl
  · rw [if_neg out, if_neg out, reads]

/-- Settings are read with the standards of what is left out, if the thresholds are finite. -/
theorem read_excerpt (excerpt : config.Excerpt omitted value) :
    read value =
      let rest := config.without omitted
      Json.ifFinite rest.floats rest := by
  cases excerpt with
  | @of queue swarm events _ entries queue_excerpt catalog swarm_excerpt events_excerpt excerpt =>
    obtain ⟨part, rfl⟩ := excerpt.isObject
    simp only [write, Json.put] at excerpt
    rw [read, Json.fields?_bind]
    rw [excerpt.defaulted "queue" (by decide) (Json.defaulted_of_get?
        (by simp [Json.Members.get?_set]) (Queue.Config.read_excerpt queue_excerpt)),
      excerpt.defaulted_eq "swarm" (by decide),
      Json.defaulted_eq_read swarm (by simp [Json.Members.get?_set]),
      read_swarm (Swarm.Config.read_excerpt catalog swarm_excerpt),
      excerpt.defaulted "events" (by decide) (Json.defaulted_of_get?
        (by simp [Json.Members.get?_set]) (Emitter.Config.read_excerpt events_excerpt))]
    let rest := config.without omitted
    refine Eq.trans ?_ (Json.ifFinite_map (fun swarm => { rest with swarm }) rest.floats rest.swarm)
    dsimp only
    cases Json.ifFinite rest.floats rest.swarm with
    | none => rfl
    | some swarm => rfl

theorem excerpt_write (config : Config) : config.Excerpt {} config.write := by
  have sections : ((config.write.put "queue" config.queue.write).put "swarm"
      config.swarm.write).put "events" config.events.write = config.write := by
    simp [write, Json.put, Json.Members.set]
  refine .of config.queue.excerpt_write (Swarm.Config.catalogExcerpt_write _)
    config.swarm.excerpt_write config.events.excerpt_write ?_
  rw [sections]
  exact .refl (Json.ordered_self _) (by decide)

theorem without_nothing (config : Config) : config.without {} = config := by
  simp only [without, List.not_mem_nil, if_false, Queue.Config.without_nothing,
    Swarm.Config.without_nothing, Emitter.Config.without_nothing]

end Coordinator.Config

/-! ## Settings of a job -/

namespace Job.Config

/-- The settings with the standards of what is left out. The target has none. -/
def without (config : Config) (omitted : List String) : Config :=
  let standard : Config := { targetPath := config.targetPath }
  { targetPath := config.targetPath
    kind := if "kind" ∈ omitted then standard.kind else config.kind
    outputPath := if "output_path" ∈ omitted then standard.outputPath else config.outputPath
    level := if "level" ∈ omitted then standard.level else config.level
    capability := if "capability" ∈ omitted then standard.capability else config.capability
    timeoutSecs := if "timeout_secs" ∈ omitted then standard.timeoutSecs else config.timeoutSecs
    options := if "options" ∈ omitted then standard.options else config.options }

variable {config : Config} {omitted : List String} {written value : Json}

/-- Settings are read with the standards of what is left out, if they tell the target. -/
theorem read_excerpt (writes : config.write = some written)
    (excerpt : Json.Excerpt fieldNames omitted written value) :
    read value = if "target_path" ∈ omitted then none else some (config.without omitted) := by
  obtain ⟨part, rfl⟩ := excerpt.isObject
  obtain ⟨target, output, target_path, output_path, rfl⟩ := write_ok writes
  rw [members] at excerpt
  rw [read, Json.fields?_bind]
  rw [excerpt.defaulted "kind" (by decide)
      (Json.defaulted_of_get? (by simp) config.kind.read_write),
    excerpt.required "target_path" (by decide)
      (Json.required_of_get? (by simp)
        (show Files.Path.read (.text target) = some target from rfl)),
    excerpt.optional "output_path" (by decide) (Files.Path.optional_of_get? output (by simp)),
    excerpt.defaulted "level" (by decide)
      (Json.defaulted_of_get? (by simp) (Json.byte?_whole config.level)),
    excerpt.optional "capability" (by decide) (Json.optional_of_get? config.capability
      (.inl (by simp)) (fun name _ => Json.text?_text name) (fun _ _ => Json.noConfusion)),
    excerpt.optional "timeout_secs" (by decide) (Json.optional_of_get? config.timeoutSecs
      (.inl (by simp)) (fun n _ => Json.word?_word n) (fun _ _ => Json.noConfusion)),
    excerpt.defaulted "options" (by decide) (Json.defaulted_of_ite (by simp)
      (fun empty => List.isEmpty_iff.1 empty) (Json.members?_object config.options)),
    ← target_path, ← output_path]
  by_cases untargeted : "target_path" ∈ omitted
  · rw [if_pos untargeted, if_pos untargeted]
    rfl
  · rw [if_neg untargeted, if_neg untargeted]
    rfl

theorem excerpt_write (writes : config.write = some written) :
    Json.Excerpt fieldNames [] written written := by
  obtain ⟨target, output, -, -, rfl⟩ := write_ok writes
  exact .refl (config.ordered_members _ _) (by decide)

theorem without_nothing (config : Config) : config.without [] = config := by
  simp [without]

end Job.Config

/-! ## Values and texts -/

namespace Json

variable {α : Type} {read : Reads α} {value : Json} {result : Option α}

/-- What is read from a text that was written for a value. A reader that knows the fields parses and
reads at once: it refuses a field that comes twice, and passes over unknown members however deep
they are nested. Texts of values that are not nested too deep give it no occasion for either. -/
def ofText? (read : Reads α) (text : String) : Option α :=
  (parse? text).bind read

/-- Whether so much is read of a value, and of the text that is written for it, if that says it and
is not nested too deep. -/
structure Yields (read : Reads α) (value : Json) (result : Option α) : Prop where
  itself : read value = result
  own_text : value.Legible → value.depth ≤ deepest → ofText? read value.render = result

theorem Yields.of_read (h : read value = result) : Yields read value result where
  itself := h
  own_text legible shallow := by
    rw [ofText?, parse?_render legible, within_of_le shallow, Option.bind_some, h]

end Json

namespace Settings

/-- Settings given in part are the settings with the standards of what is left out: those of a
coordinator if their thresholds are finite, and those of a job if they tell the target. Where
nothing is left out they are read back. The settings of a job are written if their paths are texts.
The text of a value says it if every double in it is one to which a decimal of fifteen digits is
rounded, as the standard thresholds are. -/
theorem decode_excerpt :
    (∀ (config : Coordinator.Config) (omitted : Coordinator.Config.Omission) (value : Json),
      config.Excerpt omitted value →
        let rest := config.without omitted
        Json.Yields Coordinator.Config.read value (Json.ifFinite rest.floats rest)) ∧
    (∀ config : Coordinator.Config,
      config.Excerpt {} config.write ∧ config.without {} = config) ∧
    (∀ (config : Job.Config) (omitted : List String) (written value : Json),
      config.write = some written → Json.Excerpt Job.Config.fieldNames omitted written value →
        Json.Yields Job.Config.read value
          (if "target_path" ∈ omitted then none else some (config.without omitted))) ∧
    (∀ config : Job.Config,
      (config.write.isSome = true ↔ ∀ path ∈ config.paths, path.text?.isSome = true) ∧
        (∀ written, config.write = some written →
          Json.Excerpt Job.Config.fieldNames [] written written) ∧ config.without [] = config) ∧
    (∀ x, Json.Brief x → Json.ReadsBack x ∧ Json.ReadsBack (-x)) ∧
    ∀ x ∈ (default : Coordinator.Config).floats, Json.ReadsBack x :=
  ⟨fun _ _ _ excerpt => .of_read (Coordinator.Config.read_excerpt excerpt),
    fun config => ⟨config.excerpt_write, config.without_nothing⟩,
    fun _ _ _ _ writes excerpt => .of_read (Job.Config.read_excerpt writes excerpt),
    fun config => ⟨config.isSome_write, fun _ => Job.Config.excerpt_write, config.without_nothing⟩,
    fun _ => Json.readsBack_of_brief, by decide +kernel⟩

/-- A catalog is all that is given of the settings of a coordinator, and its second entry does not
say for how many agents it stands. The settings of a job leave out the level. There are members
besides that nobody knows. -/
theorem decode_excerpt_of_catalog :
    let swift : Agent.Definition := ⟨"swift", .fast, "compress", 5⟩
    let deep : Agent.Definition := ⟨"deep", .deep, "verify", 7⟩
    let config : Coordinator.Config :=
      { queue := { concurrency := 2 }, swarm := { agents := [swift, deep], failureThreshold := 9 } }
    let omitted : Coordinator.Config.Omission :=
      { sections := ["queue", "events"]
        swarm := ["failure_threshold", "degraded_cooldown_ms", "fallback_to_degraded",
          "strained_below", "critical_below"]
        unsaid := [1] }
    let bare : Json := .object [("tier", .text "deep"), ("name", .text "deep"),
      ("capability", .text "verify"), ("colour", .null)]
    let value : Json := .object [("note", .whole 1),
      ("swarm", .object [("agents", .list [swift.write, bare])])]
    let work : Job.Config := { targetPath := "a", level := 9, timeoutSecs := some 5 }
    let whole : Json := .object (work.members (.text "a") none)
    let rest : Json := .object [("kind", .text "compress"), ("target_path", .text "a"),
      ("timeout_secs", .whole 5), ("colour", .null)]
    (config.Excerpt omitted value ∧ Coordinator.Config.read value =
      some { swarm := { agents := [swift, { deep with replicas := 1 }] } }) ∧
    (work.write = some whole ∧ Json.Excerpt Job.Config.fieldNames ["level"] whole rest) ∧
      Json.ofText? Job.Config.read rest.render = some { work with level := Job.standardLevel } := by
  intro swift deep config omitted bare value work whole rest
  have second : Json.Excerpt Agent.Definition.fieldNames ["replicas"] deep.write bare := by
    have unknown : ∀ member ∈ [("colour", Json.null)], member.1 ∉ Agent.Definition.fieldNames := by
      simp [Agent.Definition.fieldNames]
    exact .object unknown (by decide) (.swap ..)
  have catalog : Swarm.Config.CatalogExcerpt config.swarm.agents omitted.unsaid
      [swift.write, bare] := .cons swift.excerpt_write (.cons second .nil)
  have swarm : Json.Excerpt Swarm.Config.fieldNames omitted.swarm
      (config.swarm.write.put "agents" (.list [swift.write, bare]))
      (.object [("agents", .list [swift.write, bare])]) := .of_perm (by decide) (.refl _)
  have excerpt : config.Excerpt omitted value := by
    have unknown : ∀ member ∈ [("note", Json.whole 1)],
        member.1 ∉ Coordinator.Config.fieldNames := by
      simp [Coordinator.Config.fieldNames]
    exact .of config.queue.excerpt_write catalog swarm config.events.excerpt_write
      (.object unknown (by decide) (.swap ..))
  have writes : work.write = some whole := Job.Config.write_of_text "a" none rfl rfl
  have excerpt' : Json.Excerpt Job.Config.fieldNames ["level"] whole rest := by
    have unknown : ∀ member ∈ [("colour", Json.null)], member.1 ∉ Job.Config.fieldNames := by
      simp [Job.Config.fieldNames]
    exact .object unknown (by decide) (.refl _)
  have legible : rest.Legible :=
    ⟨by decide, trivial, trivial, Json.legible_whole (by decide), trivial, trivial⟩
  have shallow : rest.depth ≤ Json.deepest := by decide
  obtain ⟨coordinator, -, job, -⟩ := decode_excerpt
  refine ⟨⟨excerpt, ?_⟩, ⟨writes, excerpt'⟩, ?_⟩
  · rw [(coordinator config omitted value excerpt).itself]
    exact if_pos Coordinator.Config.floats_default_finite
  · rw [(job work ["level"] whole rest writes excerpt').own_text legible shallow]
    rfl

/-- Lists in one another. -/
def nested : Nat → Json
  | 0 => .null
  | n + 1 => .list [nested n]

theorem legible_nested (n : Nat) : (nested n).Legible := by
  induction n with
  | zero => trivial
  | succ n ih => exact ⟨ih, trivial⟩

theorem depth_nested (n : Nat) : (nested n).depth = n := by
  induction n with
  | zero => rfl
  | succ n ih => rw [nested, Json.depth, Json.depthItems, Json.depthItems, ih, Nat.max_zero]

/-- The reader refuses settings of an engine that are nested too deep. -/
theorem ofText?_nested {n : Nat} (deep : Json.deepest < n + 2) :
    ∃ written, Job.Config.write { targetPath := "a", options := [("lists", nested n)] } =
        some written ∧ Json.ofText? Job.Config.read written.render = none := by
  let config : Job.Config := { targetPath := "a", options := [("lists", nested n)] }
  have writes : config.write = some (.object (config.members (.text "a") none)) :=
    Job.Config.write_of_text "a" none rfl rfl
  have legible := Job.Config.legible_write writes
    ⟨List.nodup_singleton _, legible_nested n, trivial⟩
  have depth : (Json.object (config.members (.text "a") none)).depth = n + 2 := by
    simp [config, Job.Config.members, Job.Kind.write, Json.memberIf, Json.depth, Json.depthMembers,
      depth_nested]
  refine ⟨_, writes, ?_⟩
  rw [Json.ofText?, Json.parse?_render legible, depth, Json.within_of_lt deep]
  rfl

/-- A share of ten in eleven is read as another double than it was. A threshold that is no number is
not read at all, and neither are settings of an engine in 126 lists. A path that is no text is not
written. -/
theorem decode_excerpt_ne :
    (let config : Coordinator.Config := { swarm := { strainedBelow := 0.9090909090909091 } }
    let omitted : Coordinator.Config.Omission :=
      { sections := ["queue", "events"]
        swarm := ["agents", "failure_threshold", "degraded_cooldown_ms", "fallback_to_degraded",
          "critical_below"] }
    let value : Json :=
      .object [("swarm", .object [("strained_below", .fraction 0.9090909090909091)])]
    config.Excerpt omitted value ∧
      Json.ofText? Coordinator.Config.read value.render ≠ some (config.without omitted) ∧
      ∀ x ∈ config.floats, x.isFinite = true) ∧
    (let config : Coordinator.Config := { swarm := { strainedBelow := 0 / 0 } }
    Coordinator.Config.read config.write = none) ∧
    (∃ written, Job.Config.write { targetPath := "a", options := [("lists", nested 126)] } =
        some written ∧ Json.ofText? Job.Config.read written.render = none) ∧
    Job.Config.write { targetPath := ⟨[0xff]⟩ } = none := by
  refine ⟨?_, ?_, ofText?_nested (by decide), by decide +kernel⟩
  · intro config omitted value
    have number : Json.number 0.9090909090909091 = .fraction 0.9090909090909091 :=
      if_pos (by decide +kernel)
    have swarm : Json.Excerpt Swarm.Config.fieldNames omitted.swarm
        (config.swarm.write.put "agents"
          (.list (config.swarm.agents.map Agent.Definition.write)))
        (.object [("strained_below", .fraction 0.9090909090909091)]) := by
      rw [← number]
      exact .of_perm (by decide) (.refl _)
    have excerpt : config.Excerpt omitted value :=
      .of config.queue.excerpt_write (Swarm.Config.catalogExcerpt_write _) swarm
        config.events.excerpt_write (.of_perm (by decide) (.refl _))
    refine ⟨excerpt, fun same => ?_, by decide +kernel⟩
    -- Only the thresholds are compared: the two settings differ in nothing else.
    have floats := congrArg (Option.map Coordinator.Config.floats) same
    revert floats
    decide +kernel
  · intro config
    rw [Coordinator.Config.read_excerpt config.excerpt_write]
    exact if_neg (by decide +kernel)

end Settings

end JobSwarm
