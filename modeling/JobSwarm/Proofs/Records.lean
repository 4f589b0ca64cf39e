import JobSwarm.Proofs.Json.Fields
import JobSwarm.Job.Basic
import JobSwarm.Proofs.Time.Rfc3339
import JobSwarm.Queue.Stats
import JobSwarm.Swarm.Health
import JobSwarm.Task

/-!
# Records read back

A record is written if the paths in it are texts. It is read as it was written, if its doubles are
numbers and its time stamps not in a leap second. Its JSON is legible if its doubles and the engine
settings in it are.

Results, for every type of records:

* `isSome_write`: a record is written if its paths are texts.
* `read_write`: a record is read as it was written.
* `legible_write`: a record is written legibly.
-/

namespace JobSwarm

open Json (ReadsBack Ordered)
open Time (Instant)

/-! ## Names and stamps -/

theorem Time.Instant.read_write {i : Instant} (plain : i.Plain) : read i.write = some i :=
  ofText?_toText plain

theorem Job.Id.read_write (id : Id) : read id.write = some id := by
  show (parse id.toText).toOption = _
  rw [parse_text]
  rfl

theorem Agent.Id.read_write (id : Id) : read id.write = some id :=
  rfl

theorem Priority.read_write (p : Priority) : read p.write = some p :=
  ofName?_name p

theorem Job.Kind.read_write (kind : Kind) : read kind.write = some kind :=
  ofName?_name kind

theorem Job.Status.read_write (status : Status) : read status.write = some status :=
  ofName?_name status

theorem Agent.Tier.read_write (tier : Tier) : read tier.write = some tier :=
  ofName?_name tier

theorem Agent.Status.read_write (status : Status) : read status.write = some status :=
  ofName?_name status

theorem Swarm.Level.read_write (level : Level) : read level.write = some level :=
  ofName?_name level

/-! ## Progress -/

namespace Job.Progress

/-- The doubles of a record. -/
def floats (p : Progress) : List Float :=
  [p.percent]

/-- The time stamps of a record. -/
def instants (p : Progress) : List Instant :=
  p.estimatedCompletion.toList

variable {p : Progress}

theorem read_write (finite : ∀ x ∈ p.floats, x.isFinite = true)
    (plain : ∀ i ∈ p.instants, i.Plain) : read p.write = some p := by
  have percent : p.percent.isFinite = true := finite _ List.mem_cons_self
  have completion : ∀ i ∈ p.estimatedCompletion, Instant.read i.write = some i :=
    fun i hi => Instant.read_write (plain i (Option.mem_toList.2 hi))
  rw [read, write, Json.fields?_bind]
  rw [Json.required_of_get? (by simp) (Json.number?_number percent),
    Json.required_of_get? (by simp) (Json.word?_word p.bytesProcessed),
    Json.optional_of_get? p.totalBytes (.inl (by simp)) (fun n _ => Json.word?_word n)
      (fun _ _ => nofun),
    Json.optional_of_get? p.estimatedCompletion (.inl (by simp)) completion (fun _ _ => nofun)]
  rfl

theorem legible_write (exact : ∀ x ∈ p.floats, ReadsBack x) : p.write.Legible := by
  refine Json.legible_object fieldNames ?_ (by decide) ?_
  · exact ((Json.ordered_self _).append (Json.ordered_memberIf ..)).append
      (Json.ordered_memberIf ..)
  · have percent := Json.legible_number (exact _ List.mem_cons_self)
    simp [percent, Instant.write, Json.LegibleMembers]

end Job.Progress

/-! ## Configurations -/

theorem Files.Path.optional_of_get? {members : Json.Members} {name : String}
    (text : Option String) (h : members.get? name = text.map .text) :
    Json.optional read members name = some (text.map ofText) := by
  cases text <;> (rw [Json.optional, h]; rfl)

namespace Job.Config

variable {c : Config} {value : Json}

/-- The paths of a record. -/
def paths (c : Config) : List Files.Path :=
  c.targetPath :: c.outputPath.toList

theorem write_of_text (target : String) (output : Option String)
    (target_path : c.targetPath = target)
    (output_path : c.outputPath = output.map Files.Path.ofText) :
    c.write = some (.object (c.members (.text target) (output.map .text))) := by
  rw [write, target_path, output_path, Files.Path.write, Files.Path.text?_ofText]
  cases output with
  | none => rfl
  | some output => simp [Files.Path.write]

/-- What is written names texts as the paths. -/
theorem write_ok (h : c.write = some value) :
    ∃ (target : String) (output : Option String), c.targetPath = target ∧
      c.outputPath = output.map Files.Path.ofText ∧
      value = .object (c.members (.text target) (output.map .text)) := by
  obtain ⟨_, target_write, h⟩ := Option.bind_eq_some_iff.1 h
  obtain ⟨output, output_write, h⟩ := Option.bind_eq_some_iff.1 h
  obtain ⟨target, target_text, rfl⟩ := Option.map_eq_some_iff.1 target_write
  cases h
  refine ⟨target, ?_⟩
  cases path : c.outputPath with
  | none =>
    rw [path] at output_write
    cases output_write
    exact ⟨none, Files.Path.text?_eq_some_iff.1 target_text, rfl, rfl⟩
  | some path' =>
    rw [path] at output_write
    obtain ⟨_, written, some_output⟩ := Option.map_eq_some_iff.1 output_write
    obtain ⟨text, output_text, rfl⟩ := Option.map_eq_some_iff.1 written
    cases some_output
    rw [Files.Path.text?_eq_some_iff.1 output_text]
    exact ⟨some text, Files.Path.text?_eq_some_iff.1 target_text, rfl, rfl⟩

theorem isSome_write (c : Config) :
    c.write.isSome = true ↔ ∀ path ∈ c.paths, path.text?.isSome = true := by
  rw [write, Files.Path.write, paths, List.forall_mem_cons]
  cases target : c.targetPath.text? with
  | none => simp
  | some target =>
    cases path : c.outputPath with
    | none => simp
    | some path' => cases output : path'.text? <;> simp [Files.Path.write, output]

theorem read_write (h : c.write = some value) : read value = some c := by
  obtain ⟨target, output, target_path, output_path, rfl⟩ := write_ok h
  rw [read, members, Json.fields?_bind]
  rw [Json.defaulted_of_get? (by simp) c.kind.read_write,
    Json.required_of_get? (by simp) (show Files.Path.read (.text target) = some target from rfl),
    Files.Path.optional_of_get? output (by simp),
    Json.defaulted_of_get? (by simp) (Json.byte?_whole c.level),
    Json.optional_of_get? c.capability (.inl (by simp)) (fun p _ => Json.text?_text p)
      (fun _ _ => nofun),
    Json.optional_of_get? c.timeoutSecs (.inl (by simp)) (fun n _ => Json.word?_word n)
      (fun _ _ => nofun),
    Json.defaulted_of_ite (by simp) (fun empty => List.isEmpty_iff.1 empty)
      (Json.members?_object c.options), ← target_path, ← output_path]
  rfl

/-- The members are fields in order. -/
theorem ordered_members (c : Config) (target : Json) (output : Option Json) :
    Json.Ordered fieldNames (c.members target output) :=
  (((((Json.ordered_self _).append (Json.ordered_memberIf ..)).append
    (Json.ordered_self _)).append (Json.ordered_memberIf ..)).append
      (Json.ordered_memberIf ..)).append (Json.ordered_unless ..)

theorem legible_write (h : c.write = some value) (options : Json.Legible (.object c.options)) :
    value.Legible := by
  obtain ⟨target, output, -, -, rfl⟩ := write_ok h
  refine Json.legible_object fieldNames (c.ordered_members _ _) (by decide) ?_
  have level : Json.Legible (.whole c.level.toNat) := Json.legible_whole (by
    have := c.level.toNat_lt
    simp only [Json.greatestWord, UInt64.size]
    omega)
  simp [members, level, options, Kind.write, Json.LegibleMembers]

end Job.Config

/-! ## Jobs -/

namespace Job

variable {job : Job} {value : Json}

/-- The doubles of a record. -/
def floats (job : Job) : List Float :=
  job.progress.floats

/-- The time stamps of a record. -/
def instants (job : Job) : List Instant :=
  [job.createdAt, job.updatedAt] ++ job.startedAt.toList ++ job.finishedAt.toList ++
    job.progress.instants

theorem isSome_write (job : Job) :
    job.write.isSome = true ↔ ∀ path ∈ job.config.paths, path.text?.isSome = true := by
  rw [write, Option.isSome_map]
  exact job.config.isSome_write

theorem read_write (finite : ∀ x ∈ job.floats, x.isFinite = true)
    (plain : ∀ i ∈ job.instants, i.Plain) (h : job.write = some value) :
    read value = some job := by
  obtain ⟨config, config_write, rfl⟩ := Option.map_eq_some_iff.1 h
  simp only [instants, List.forall_mem_append, List.forall_mem_cons] at plain
  obtain ⟨⟨⟨⟨created, updated, -⟩, started⟩, finished⟩, progress⟩ := plain
  have stamp {stamp : Option Instant} (h : ∀ i ∈ stamp.toList, i.Plain) :
      ∀ i ∈ stamp, Instant.read i.write = some i :=
    fun i hi => Instant.read_write (h i (Option.mem_toList.2 hi))
  rw [read, members, Json.fields?_bind]
  rw [Json.required_of_get? (by simp) job.id.read_write,
    Json.required_of_get? (by simp) job.priority.read_write,
    Json.required_of_get? (by simp) job.status.read_write,
    Json.required_of_get? (by simp) (Config.read_write config_write),
    Json.required_of_get? (by simp) (Progress.read_write finite progress),
    Json.optional_of_get? job.agentId (.inl (by simp)) (fun id _ => id.read_write)
      (fun _ _ => nofun),
    Json.optional_of_get? job.error (.inl (by simp)) (fun e _ => Json.text?_text e)
      (fun _ _ => nofun),
    Json.required_of_get? (by simp) (Json.word?_word job.sequence),
    Json.required_of_get? (by simp) (Instant.read_write created),
    Json.optional_of_get? job.startedAt (.inl (by simp)) (stamp started) (fun _ _ => nofun),
    Json.optional_of_get? job.finishedAt (.inl (by simp)) (stamp finished) (fun _ _ => nofun),
    Json.required_of_get? (by simp) (Instant.read_write updated)]
  rfl

theorem legible_write (exact : ∀ x ∈ job.floats, ReadsBack x)
    (options : Json.Legible (.object job.config.options)) (h : job.write = some value) :
    value.Legible := by
  obtain ⟨config, config_write, rfl⟩ := Option.map_eq_some_iff.1 h
  refine Json.legible_object fieldNames ?_ (by decide) ?_
  · exact ((((((Json.ordered_self _).append (Json.ordered_memberIf ..)).append
      (Json.ordered_memberIf ..)).append (Json.ordered_self _)).append
        (Json.ordered_memberIf ..)).append (Json.ordered_memberIf ..)).append (Json.ordered_self _)
  · have config_legible := Config.legible_write config_write options
    have progress := Progress.legible_write exact
    simp [members, config_legible, progress, Id.write, Priority.write, Status.write,
      Agent.Id.write, Instant.write, Json.LegibleMembers]

end Job

/-! ## Agents -/

namespace Agent

theorem Metrics.read_write {metrics : Metrics} (plain : metrics.onlineSince.Plain) :
    read metrics.write = some metrics := by
  rw [read, write, Json.fields?_bind]
  rw [Json.required_of_get? (by simp) (Json.word?_word metrics.tasksCompleted),
    Json.required_of_get? (by simp) (Json.word?_word metrics.tasksFailed),
    Json.required_of_get? (by simp) (Json.word?_word metrics.tasksCancelled),
    Json.required_of_get? (by simp) (Json.word?_word metrics.totalDurationMs),
    Json.required_of_get? (by simp) (Instant.read_write plain)]
  rfl

theorem Metrics.legible_write (metrics : Metrics) : metrics.write.Legible := by
  refine Json.legible_object fieldNames ?_ (by decide) ?_
  · exact Json.ordered_self _
  · simp [Instant.write, Json.LegibleMembers]

variable {agent : Agent}

/-- The time stamps of a record. -/
def instants (agent : Agent) : List Instant :=
  agent.metrics.onlineSince :: agent.degradedSince.toList

theorem read_write (plain : ∀ i ∈ agent.instants, i.Plain) : read agent.write = some agent := by
  obtain ⟨online, degraded⟩ := List.forall_mem_cons.1 plain
  rw [read, write, Json.fields?_bind]
  rw [Json.required_of_get? (by simp) agent.id.read_write,
    Json.required_of_get? (by simp) agent.tier.read_write,
    Json.required_of_get? (by simp) (Json.text?_text agent.capability),
    Json.required_of_get? (by simp) agent.status.read_write,
    Json.optional_of_get? agent.currentTask (.inl (by simp)) (fun id _ => id.read_write)
      (fun _ _ => nofun),
    Json.required_of_get? (by simp) (Metrics.read_write online),
    Json.required_of_get? (by simp) (Json.halfWord?_whole agent.failureStreak),
    Json.optional_of_get? agent.degradedSince (.inl (by simp))
      (fun i hi => Instant.read_write (degraded i (Option.mem_toList.2 hi))) (fun _ _ => nofun),
    Json.required_of_get? (by simp) (Json.word?_word agent.ordinal)]
  rfl

theorem legible_write (agent : Agent) : agent.write.Legible := by
  refine Json.legible_object fieldNames ?_ (by decide) ?_
  · exact ((((Json.ordered_self _).append (Json.ordered_memberIf ..)).append
      (Json.ordered_self _)).append (Json.ordered_memberIf ..)).append (Json.ordered_self _)
  · have streak : Json.Legible (.whole agent.failureStreak.toNat) := Json.legible_whole (by
      have := agent.failureStreak.toNat_lt
      simp only [Json.greatestWord, UInt64.size]
      omega)
    simp [streak, agent.metrics.legible_write, Id.write, Tier.write, Status.write, Job.Id.write,
      Instant.write, Json.LegibleMembers]

end Agent

/-! ## Tasks -/

namespace Task

variable {task : Task}

theorem read_write (plain : task.deadline.Plain) : read task.write = some task := by
  rw [read, write, Json.fields?_bind]
  rw [Json.required_of_get? (by simp) task.jobId.read_write,
    Json.required_of_get? (by simp) (Json.text?_text task.capability),
    Json.required_of_get? (by simp) (Instant.read_write plain)]
  rfl

theorem legible_write (task : Task) : task.write.Legible := by
  refine Json.legible_object fieldNames ?_ (by decide) ?_
  · exact Json.ordered_self _
  · simp [Job.Id.write, Instant.write, Json.LegibleMembers]

theorem Outcome.read_write (outcome : Outcome) : read outcome.write = some outcome := by
  cases outcome with
  | succeeded duration =>
    rw [write, read, Json.required_of_get? (by simp) (Json.text?_text "succeeded"),
      Json.required_of_get? (by simp) (Json.word?_word duration)]
    rfl
  | failed duration =>
    rw [write, read, Json.required_of_get? (by simp) (Json.text?_text "failed"),
      Json.required_of_get? (by simp) (Json.word?_word duration)]
    rfl
  | cancelled => rfl

theorem Outcome.legible_write (outcome : Outcome) : outcome.write.Legible := by
  cases outcome <;> simp [write, Json.Legible, Json.LegibleMembers]

end Task

/-! ## Summaries -/

namespace Queue.Stats

variable {stats : Stats}

/-- The doubles of a record. -/
def floats (stats : Stats) : List Float :=
  stats.avgDurationMs.toList

theorem read_write (finite : ∀ x ∈ stats.floats, x.isFinite = true) :
    read stats.write = some stats := by
  have mean : ∀ x ∈ stats.avgDurationMs, x.isFinite = true :=
    fun x hx => finite x (Option.mem_toList.2 hx)
  rw [read, write, Json.fields?_bind]
  rw [Json.defaulted_of_get? (by simp) (Json.word?_word stats.queued),
    Json.defaulted_of_get? (by simp) (Json.word?_word stats.running),
    Json.defaulted_of_get? (by simp) (Json.word?_word stats.paused),
    Json.defaulted_of_get? (by simp) (Json.word?_word stats.completed),
    Json.defaulted_of_get? (by simp) (Json.word?_word stats.failed),
    Json.defaulted_of_get? (by simp) (Json.word?_word stats.cancelled),
    Json.optional_of_get? stats.avgDurationMs (.inr (by simp))
      (fun x hx => Json.number?_number (mean x hx)) (fun x hx => Json.number_ne_null (mean x hx))]
  rfl

theorem legible_write (exact : ∀ x ∈ stats.floats, ReadsBack x) : stats.write.Legible := by
  refine Json.legible_object fieldNames ?_ (by decide) ?_
  · exact Json.ordered_self _
  · have mean : Json.Legible (Json.orNull (stats.avgDurationMs.map Json.number)) :=
      Json.legible_orNull_number fun x hx => exact x (Option.mem_toList.2 hx)
    simp [mean, Json.LegibleMembers]

end Queue.Stats

namespace Swarm.Health

variable {health : Health}

/-- The doubles of a record. -/
def floats (health : Health) : List Float :=
  [health.idleFraction, health.busyFraction, health.degradedFraction, health.offlineFraction] ++
    health.avgTaskDurationMs.toList

theorem read_write (finite : ∀ x ∈ health.floats, x.isFinite = true) :
    read health.write = some health := by
  simp only [floats, List.forall_mem_append, List.forall_mem_cons] at finite
  obtain ⟨⟨idle, busy, degraded, offline, -⟩, mean⟩ := finite
  replace mean : ∀ x ∈ health.avgTaskDurationMs, x.isFinite = true :=
    fun x hx => mean x (Option.mem_toList.2 hx)
  rw [read, write, Json.fields?_bind]
  rw [Json.required_of_get? (by simp) (Json.word?_word health.total),
    Json.required_of_get? (by simp) (Json.word?_word health.idle),
    Json.required_of_get? (by simp) (Json.word?_word health.busy),
    Json.required_of_get? (by simp) (Json.word?_word health.degraded),
    Json.required_of_get? (by simp) (Json.word?_word health.offline),
    Json.required_of_get? (by simp) (Json.number?_number idle),
    Json.required_of_get? (by simp) (Json.number?_number busy),
    Json.required_of_get? (by simp) (Json.number?_number degraded),
    Json.required_of_get? (by simp) (Json.number?_number offline),
    Json.optional_of_get? health.avgTaskDurationMs (.inr (by simp))
      (fun x hx => Json.number?_number (mean x hx)) (fun x hx => Json.number_ne_null (mean x hx)),
    Json.required_of_get? (by simp) health.level.read_write]
  rfl

theorem legible_write (exact : ∀ x ∈ health.floats, ReadsBack x) : health.write.Legible := by
  simp only [floats, List.forall_mem_append, List.forall_mem_cons] at exact
  obtain ⟨⟨idle, busy, degraded, offline, -⟩, mean⟩ := exact
  refine Json.legible_object fieldNames ?_ (by decide) ?_
  · exact Json.ordered_self _
  · have mean : Json.Legible (Json.orNull (health.avgTaskDurationMs.map Json.number)) :=
      Json.legible_orNull_number fun x hx => mean x (Option.mem_toList.2 hx)
    simp [mean, Json.legible_number, idle, busy, degraded, offline, Level.write,
      Json.LegibleMembers]

end Swarm.Health

end JobSwarm
