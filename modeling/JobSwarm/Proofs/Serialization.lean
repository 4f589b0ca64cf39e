import JobSwarm.Event.Json
import JobSwarm.Proofs.Json.Fraction
import JobSwarm.Proofs.Records

/-!
# Serialization

A record can be written if the paths in it are texts. What is written of it is read as that record,
for all types of records. JSON as a value loses nothing. Its text does: the reader rounds long
numerals more than once, so that some doubles are read as their neighbours, and it refuses what is
nested deeper than its limit. Doubles of fifteen digits survive.

Results:

* `Record.isSome_write`: a record is written if its paths are texts.
* `Record.read_write`: a record is read from the value that is written for it.
* `Record.decode_encode`: what is read from the text of a record is that record, if its doubles are
  found in their numerals and it is not nested too deep.
* `Record.decode_encode_ne`: a percentage that is not found in its numeral, and a path that is not
  written.
-/

namespace JobSwarm

open Json (Brief ReadsBack)
open Time (Instant)

/-! ## Events -/

namespace Event

namespace Notice

variable {notice : Notice} {written : Json.Members}

/-- The doubles of a record. -/
def floats : Notice → List Float
  | .jobQueued job => job.floats
  | .progressUpdated _ progress => progress.floats
  | .swarmHealthChanged health => health.floats
  | _ => []

/-- The time stamps of a record. -/
def instants : Notice → List Instant
  | .jobQueued job => job.instants
  | .progressUpdated _ progress => progress.instants
  | _ => []

/-- The engine settings in a record. -/
def options : Notice → Json.Members
  | .jobQueued job => job.config.options
  | _ => []

/-- The paths in a record. -/
def paths : Notice → List Files.Path
  | .jobQueued job => job.config.paths
  | _ => []

theorem isSome_fields (notice : Notice) :
    notice.fields.isSome = true ↔ ∀ path ∈ notice.paths, path.text?.isSome = true := by
  cases notice with
  | jobQueued job =>
    rw [fields, Option.isSome_map]
    exact job.isSome_write
  | _ => exact iff_of_true rfl nofun

/-- The fields of a notice are found beside those of its event. -/
theorem readFields_fields (finite : ∀ x ∈ notice.floats, x.isFinite = true)
    (plain : ∀ i ∈ notice.instants, i.Plain) (h : notice.fields = some written)
    (sequence timestamp topic : Json) :
    readFields notice.topic
        (("sequence", sequence) :: ("timestamp", timestamp) :: ("event", topic) :: written) =
      some notice := by
  cases notice with
  | jobQueued job =>
    obtain ⟨value, job_write, rfl⟩ := Option.map_eq_some_iff.1 h
    show Json.required Job.read _ "job" >>= _ = _
    rw [Json.required_of_get? (by simp) (Job.read_write finite plain job_write)]
    rfl
  | jobStarted jobId agentId =>
    cases h
    show Json.required Job.Id.read _ "job_id" >>= _ = _
    rw [Json.required_of_get? (by simp) jobId.read_write,
      Json.required_of_get? (by simp) agentId.read_write]
    rfl
  | progressUpdated jobId progress =>
    cases h
    show Json.required Job.Id.read _ "job_id" >>= _ = _
    rw [Json.required_of_get? (by simp) jobId.read_write,
      Json.required_of_get? (by simp) (Job.Progress.read_write finite plain)]
    rfl
  | jobPaused jobId | jobResumed jobId | jobCancelled jobId =>
    cases h
    show Json.required Job.Id.read _ "job_id" >>= _ = _
    rw [Json.required_of_get? (by simp) jobId.read_write]
    rfl
  | jobCompleted jobId duration bytes =>
    cases h
    show Json.required Job.Id.read _ "job_id" >>= _ = _
    rw [Json.required_of_get? (by simp) jobId.read_write,
      Json.required_of_get? (by simp) (Json.word?_word duration),
      Json.required_of_get? (by simp) (Json.word?_word bytes)]
    rfl
  | jobFailed jobId error =>
    cases h
    show Json.required Job.Id.read _ "job_id" >>= _ = _
    rw [Json.required_of_get? (by simp) jobId.read_write,
      Json.required_of_get? (by simp) (Json.text?_text error)]
    rfl
  | agentStatusChanged agentId old new =>
    cases h
    show Json.required Agent.Id.read _ "agent_id" >>= _ = _
    rw [Json.required_of_get? (by simp) agentId.read_write,
      Json.required_of_get? (by simp) old.read_write,
      Json.required_of_get? (by simp) new.read_write]
    rfl
  | swarmHealthChanged health =>
    cases h
    show Json.required Swarm.Health.read _ "health" >>= _ = _
    rw [Json.required_of_get? (by simp) (Swarm.Health.read_write finite)]
    rfl

theorem legible_fields (exact : ∀ x ∈ notice.floats, ReadsBack x)
    (options : Json.Legible (.object notice.options)) (h : notice.fields = some written) :
    Json.LegibleMembers written := by
  cases notice with
  | jobQueued job =>
    obtain ⟨value, job_write, rfl⟩ := Option.map_eq_some_iff.1 h
    exact ⟨Job.legible_write exact options job_write, trivial⟩
  | progressUpdated jobId progress =>
    cases h
    exact ⟨trivial, Job.Progress.legible_write exact, trivial⟩
  | swarmHealthChanged health =>
    cases h
    exact ⟨Swarm.Health.legible_write exact, trivial⟩
  | _ =>
    cases h
    simp [Job.Id.write, Agent.Id.write, Agent.Status.write, Json.LegibleMembers]

/-- A notice is written with the fields of its topic. -/
theorem names_fields (h : notice.fields = some written) :
    written.map Prod.fst = fieldNames notice.topic := by
  cases notice with
  | jobQueued job =>
    obtain ⟨value, -, rfl⟩ := Option.map_eq_some_iff.1 h
    rfl
  | _ =>
    cases h
    rfl

/-- No field of a notice is called like one of its event. -/
theorem names_nodup (topic : Topic) :
    ("sequence" :: "timestamp" :: "event" :: fieldNames topic).Nodup := by
  cases topic <;> decide

end Notice

variable {event : Event} {value : Json}

/-- The time stamps of a record. -/
def instants (event : Event) : List Instant :=
  event.timestamp :: event.notice.instants

theorem Topic.readTopic_write (topic : Topic) : readTopic topic.write = some topic :=
  ofName?_name topic

theorem isSome_write (event : Event) :
    event.write.isSome = true ↔ ∀ path ∈ event.notice.paths, path.text?.isSome = true := by
  rw [write, Option.isSome_map]
  exact event.notice.isSome_fields

theorem read_write (finite : ∀ x ∈ event.notice.floats, x.isFinite = true)
    (plain : ∀ i ∈ event.instants, i.Plain) (h : event.write = some value) :
    read value = some event := by
  obtain ⟨stamp, parts⟩ := List.forall_mem_cons.1 plain
  obtain ⟨written, fields, rfl⟩ := Option.map_eq_some_iff.1 h
  rw [read, Json.required_of_get? (by simp) (Json.word?_word event.sequence),
    Json.required_of_get? (by simp) (Instant.read_write stamp),
    Json.required_of_get? (by simp) event.notice.topic.readTopic_write]
  show Notice.readFields event.notice.topic _ >>= _ = _
  rw [Notice.readFields_fields finite parts fields]
  rfl

theorem legible_write (exact : ∀ x ∈ event.notice.floats, ReadsBack x)
    (options : Json.Legible (.object event.notice.options)) (h : event.write = some value) :
    value.Legible := by
  obtain ⟨written, fields, rfl⟩ := Option.map_eq_some_iff.1 h
  refine ⟨?_, Json.legible_word _, Json.legible_text _, Json.legible_text _,
    Notice.legible_fields exact options fields⟩
  rw [List.map_cons, List.map_cons, List.map_cons, Notice.names_fields fields]
  exact Notice.names_nodup event.notice.topic

end Event

/-! ## All records -/

/-- A record of one of the types that are serialized. -/
inductive Record where
  | event (event : Event)
  | job (job : Job)
  | config (config : Job.Config)
  | progress (progress : Job.Progress)
  | health (health : Swarm.Health)
  | agent (agent : Agent)
  | task (task : Task)
  | outcome (outcome : Task.Outcome)
  | stats (stats : Queue.Stats)

namespace Record

/-- The types of records. -/
inductive Kind where
  | event
  | job
  | config
  | progress
  | health
  | agent
  | task
  | outcome
  | stats
  deriving DecidableEq, Repr

def kind : Record → Kind
  | .event _ => .event
  | .job _ => .job
  | .config _ => .config
  | .progress _ => .progress
  | .health _ => .health
  | .agent _ => .agent
  | .task _ => .task
  | .outcome _ => .outcome
  | .stats _ => .stats

/-- The doubles of a record. -/
def floats : Record → List Float
  | .event e => e.notice.floats
  | .job j => j.floats
  | .progress p => p.floats
  | .health h => h.floats
  | .stats s => s.floats
  | .config _ | .agent _ | .task _ | .outcome _ => []

/-- The time stamps of a record. -/
def instants : Record → List Instant
  | .event e => e.instants
  | .job j => j.instants
  | .progress p => p.instants
  | .agent a => a.instants
  | .task t => [t.deadline]
  | .config _ | .health _ | .outcome _ | .stats _ => []

/-- The engine settings in a record. -/
def options : Record → Json.Members
  | .event e => e.notice.options
  | .job j => j.config.options
  | .config c => c.options
  | .progress _ | .health _ | .agent _ | .task _ | .outcome _ | .stats _ => []

/-- The paths in a record. -/
def paths : Record → List Files.Path
  | .event e => e.notice.paths
  | .job j => j.config.paths
  | .config c => c.paths
  | .progress _ | .health _ | .agent _ | .task _ | .outcome _ | .stats _ => []

/-- Writes a record, if that is possible. -/
def write : Record → Option Json
  | .event e => e.write
  | .job j => j.write
  | .config c => c.write
  | .progress p => some p.write
  | .health h => some h.write
  | .agent a => some a.write
  | .task t => some t.write
  | .outcome o => some o.write
  | .stats s => some s.write

/-- Reads a record of a type. -/
def Kind.read (kind : Kind) (value : Json) : Option Record :=
  match kind with
  | .event => (Event.read value).map Record.event
  | .job => (Job.read value).map Record.job
  | .config => (Job.Config.read value).map Record.config
  | .progress => (Job.Progress.read value).map Record.progress
  | .health => (Swarm.Health.read value).map Record.health
  | .agent => (Agent.read value).map Record.agent
  | .task => (Task.read value).map Record.task
  | .outcome => (Task.Outcome.read value).map Record.outcome
  | .stats => (Queue.Stats.read value).map Record.stats

/-- The text of a record. -/
def encode (r : Record) : Option String :=
  r.write.map Json.render

/-- The record of a type in a text. -/
def Kind.decode (kind : Kind) (text : String) : Option Record :=
  (Json.parse? text).bind kind.read

/-- Whether JSON has values for all that is in a record: its doubles are numbers, and its time
stamps are not in a leap second. -/
structure Plain (r : Record) : Prop where
  finite : ∀ x ∈ r.floats, x.isFinite = true
  instants : ∀ i ∈ r.instants, i.Plain

/-- Whether the reader takes every part of a record's text for what it says: it finds every double
in its numeral. -/
structure Legible (r : Record) : Prop where
  floats : ∀ x ∈ r.floats, ReadsBack x
  options : Json.Legible (.object r.options)

variable {r : Record} {value : Json}

/-- A record is written if its paths are texts. -/
theorem isSome_write (r : Record) :
    r.write.isSome = true ↔ ∀ path ∈ r.paths, path.text?.isSome = true := by
  cases r with
  | event e => exact e.isSome_write
  | job j => exact j.isSome_write
  | config c => exact c.isSome_write
  | _ => exact iff_of_true rfl nofun

/-- A record is read as it was written. -/
theorem read_write (plain : r.Plain) (h : r.write = some value) : r.kind.read value = some r := by
  obtain ⟨finite, stamps⟩ := plain
  cases r <;> rw [kind, Kind.read]
  case event e => rw [Event.read_write finite stamps h, Option.map_some]
  case job j => rw [Job.read_write finite stamps h, Option.map_some]
  case config c => rw [Job.Config.read_write h, Option.map_some]
  all_goals cases h
  case progress p => rw [Job.Progress.read_write finite stamps, Option.map_some]
  case health h => rw [Swarm.Health.read_write finite, Option.map_some]
  case agent a => rw [Agent.read_write stamps, Option.map_some]
  case task t => rw [Task.read_write (stamps _ List.mem_cons_self), Option.map_some]
  case outcome o => rw [o.read_write, Option.map_some]
  case stats s => rw [Queue.Stats.read_write finite, Option.map_some]

theorem legible_write (legible : r.Legible) (h : r.write = some value) : value.Legible := by
  obtain ⟨floats, options⟩ := legible
  cases r
  case event e => exact Event.legible_write floats options h
  case job j => exact Job.legible_write floats options h
  case config c => exact Job.Config.legible_write h options
  all_goals cases h
  case progress p => exact Job.Progress.legible_write floats
  case health h => exact Swarm.Health.legible_write floats
  case agent a => exact a.legible_write
  case task t => exact t.legible_write
  case outcome o => exact o.legible_write
  case stats s => exact Queue.Stats.legible_write floats

/-- A record is encoded if its paths are texts, and decodes to itself: from JSON always, and from
its text if that is legible and not nested too deep. A double to which a decimal of fifteen digits
is rounded is legible, whatever its sign. -/
theorem decode_encode (r : Record) (plain : r.Plain) :
    (r.write.isSome = true ↔ ∀ path ∈ r.paths, path.text?.isSome = true) ∧
      (∀ value, r.write = some value →
        r.kind.read value = some r ∧ r.encode = some value.render ∧
          (r.Legible → r.kind.decode value.render =
            if value.depth ≤ Json.deepest then some r else none)) ∧
      ∀ x, Brief x → ReadsBack x ∧ ReadsBack (-x) := by
  refine ⟨r.isSome_write, ?_, fun x => Json.readsBack_of_brief⟩
  intro value h
  refine ⟨read_write plain h, by rw [encode, h, Option.map_some], fun legible => ?_⟩
  rw [Kind.decode, Json.parse?_render (legible_write legible h), Json.within]
  split
  · rw [Option.bind_some, read_write plain h]
  · rfl

theorem decode_encode_submitted :
    let config : Job.Config :=
      { targetPath := "data.bin", options := [("threads", .whole 4), ("ratio", .fraction 0.5)] }
    let r : Record := .event ⟨1, .epoch, .jobQueued (.submitted ⟨0⟩ config .normal 1 .epoch)⟩
    r.Plain ∧ r.Legible ∧ ∃ value, r.write = some value ∧ r.kind.read value = some r ∧
      r.kind.decode value.render = some r := by
  intro config r
  have plain : r.Plain := ⟨by decide +kernel, by decide +kernel⟩
  have shallow : ∀ value ∈ r.write, value.depth ≤ Json.deepest := by decide +kernel
  obtain ⟨written, decodes, few⟩ := decode_encode r plain
  obtain ⟨value, h⟩ := Option.isSome_iff_exists.1 (written.2 (by decide +kernel))
  obtain ⟨reads, -, text⟩ := decodes value h
  have half : ReadsBack 0.5 := (few 0.5 Json.brief_half).1
  have zero : ReadsBack 0 := (few 0 .zero).1
  have legible : r.Legible := by
    refine ⟨fun x member => ?_, by decide, ⟨by decide, by decide⟩, half, trivial⟩
    rw [List.mem_singleton.1 member]
    exact zero
  refine ⟨plain, legible, value, h, reads, ?_⟩
  rw [text legible, if_pos (shallow value h)]

/-- The percentage of 2 in 13 has 17 digits, and the double that is read for them is another. A path
that is no text is not written. -/
theorem decode_encode_ne :
    (let r : Record := .progress
      { percent := 15.384615384615385, bytesProcessed := 2, totalBytes := some 13 }
    r.Plain ∧ ∃ text, r.encode = some text ∧ r.kind.decode text ≠ some r) ∧
      let r : Record := .config { targetPath := ⟨[0xff]⟩ }
      r.Plain ∧ r.encode = none := by
  refine ⟨?_, ⟨by decide, by decide⟩, by decide +kernel⟩
  intro r
  have encodes : r.encode = some (Job.Progress.write _).render := rfl
  refine ⟨⟨by decide +kernel, by decide +kernel⟩, _, encodes, fun same => ?_⟩
  have floats := congrArg (Option.map Record.floats) same
  revert floats
  decide +kernel

end Record

end JobSwarm
