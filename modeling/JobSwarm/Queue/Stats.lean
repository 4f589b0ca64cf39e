import JobSwarm.Checked
import JobSwarm.Json.Record

/-!
# Statistics of a queue
-/

namespace JobSwarm.Queue

/-- How many jobs stand in each status, and how long the completed ones took (`QueueStats`). -/
structure Stats where
  queued : UInt64 := 0
  running : UInt64 := 0
  paused : UInt64 := 0
  completed : UInt64 := 0
  failed : UInt64 := 0
  cancelled : UInt64 := 0
  avgDurationMs : Option Float := none

namespace Stats

/-- The jobs that hold an agent (`active`). -/
def active (stats : Stats) : Except Overflow UInt64 :=
  addWord stats.running stats.paused

/-- The jobs that have ended (`finished`). -/
def finished (stats : Stats) : Except Overflow UInt64 := do
  addWord (← addWord stats.completed stats.failed) stats.cancelled

/-- The completed jobs in percent of those that completed or failed (`success_rate`). -/
def successRate (stats : Stats) : Except Overflow (Option Float) := do
  let total ← addWord stats.completed stats.failed
  return if total = 0 then none else some (stats.completed.toFloat / total.toFloat * 100)

def fieldNames : List String :=
  ["queued", "running", "paused", "completed", "failed", "cancelled", "avg_duration_ms"]

def read : Json.Reads Stats := fun value => do
  let fields ← Json.fields? fieldNames value
  return {
    queued := ← Json.defaulted Json.word? 0 fields "queued"
    running := ← Json.defaulted Json.word? 0 fields "running"
    paused := ← Json.defaulted Json.word? 0 fields "paused"
    completed := ← Json.defaulted Json.word? 0 fields "completed"
    failed := ← Json.defaulted Json.word? 0 fields "failed"
    cancelled := ← Json.defaulted Json.word? 0 fields "cancelled"
    avgDurationMs := ← Json.optional Json.number? fields "avg_duration_ms" }

def write (stats : Stats) : Json :=
  .object [("queued", .word stats.queued), ("running", .word stats.running),
    ("paused", .word stats.paused), ("completed", .word stats.completed),
    ("failed", .word stats.failed), ("cancelled", .word stats.cancelled),
    ("avg_duration_ms", Json.orNull (stats.avgDurationMs.map Json.number))]

end Stats

end JobSwarm.Queue
