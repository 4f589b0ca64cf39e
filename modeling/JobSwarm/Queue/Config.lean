import JobSwarm.Json.Record

/-!
# Settings of a queue
-/

namespace JobSwarm.Queue

/-- The settings of a queue (`QueueConfig`). -/
structure Config where
  /-- How many jobs may hold an agent at once, running or paused. -/
  concurrency : UInt32 := 4
  /-- How often the queue looks for jobs to start and jobs to give up, in milliseconds. -/
  scheduleIntervalMs : UInt64 := 250
  /-- How often the run of a job is polled, in milliseconds. -/
  pollIntervalMs : UInt64 := 100
  /-- The least time between two announcements of progress of a job, in milliseconds. -/
  progressIntervalMs : UInt64 := 500
  /-- How long a job may run that does not say so itself, in seconds. -/
  defaultTimeoutSecs : UInt64 := 3600
  deriving DecidableEq, Repr

namespace Config

instance : Inhabited Config := ⟨{}⟩

def fieldNames : List String :=
  ["concurrency", "schedule_interval_ms", "poll_interval_ms", "progress_interval_ms",
    "default_timeout_secs"]

def read : Json.Reads Config := fun value => do
  let fields ← Json.fields? fieldNames value
  let standard : Config := {}
  return {
    concurrency := ← Json.defaulted Json.halfWord? standard.concurrency fields "concurrency"
    scheduleIntervalMs := ←
      Json.defaulted Json.word? standard.scheduleIntervalMs fields "schedule_interval_ms"
    pollIntervalMs := ←
      Json.defaulted Json.word? standard.pollIntervalMs fields "poll_interval_ms"
    progressIntervalMs := ←
      Json.defaulted Json.word? standard.progressIntervalMs fields "progress_interval_ms"
    defaultTimeoutSecs := ←
      Json.defaulted Json.word? standard.defaultTimeoutSecs fields "default_timeout_secs" }

def write (config : Config) : Json :=
  .object [("concurrency", .whole config.concurrency.toNat),
    ("schedule_interval_ms", .word config.scheduleIntervalMs),
    ("poll_interval_ms", .word config.pollIntervalMs),
    ("progress_interval_ms", .word config.progressIntervalMs),
    ("default_timeout_secs", .word config.defaultTimeoutSecs)]

end Config

end JobSwarm.Queue
