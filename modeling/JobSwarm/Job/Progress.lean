import JobSwarm.Json.Record
import JobSwarm.Time.Rfc3339

/-!
# Progress

How far a job has come, and when it may be done.
-/

namespace JobSwarm

/-- Reads a time stamp. -/
def Time.Instant.read : Json.Reads Time.Instant
  | .text text => ofText? text
  | _ => none

def Time.Instant.write (instant : Time.Instant) : Json :=
  .text instant.toText

namespace Job

open Time (Instant)

/-- How far along a job is (`JobProgress`). -/
structure Progress where
  /-- From 0 to 100. -/
  percent : Float := 0
  bytesProcessed : UInt64 := 0
  totalBytes : Option UInt64 := none
  estimatedCompletion : Option Instant := none

namespace Progress

/-- The progress of a job that is done, with all its bytes (`complete`). -/
def complete (bytes : UInt64) : Progress :=
  { percent := 100, bytesProcessed := bytes, totalBytes := some bytes }

/-- When a job will be done if it goes on as it has gone so far: the time spent, scaled by what is
left over what is done (`estimate_completion`). Nothing is foretold for a job that has not begun or
that is through, nor beyond the range of instants. -/
def estimate (started now : Instant) (percent : Float) : Option Instant :=
  if 0 < percent ∧ percent < 100 then
    let elapsed := Float.ofInt (Instant.wholeMillis (now.since started))
    let remaining := elapsed * (100 - percent) / percent
    if remaining.isFinite ∧ remaining < 9223372036854775808.0 then
      let millis := if remaining < 0 then 0 else remaining.toUInt64.toNat
      now.add? (millis * 1000000)
    else none
  else none

/-! ## JSON -/

def fieldNames : List String :=
  ["percent", "bytes_processed", "total_bytes", "estimated_completion"]

def read : Json.Reads Progress := fun value => do
  let fields ← Json.fields? fieldNames value
  return {
    percent := ← Json.required Json.number? fields "percent"
    bytesProcessed := ← Json.required Json.word? fields "bytes_processed"
    totalBytes := ← Json.optional Json.word? fields "total_bytes"
    estimatedCompletion := ← Json.optional Instant.read fields "estimated_completion" }

def write (progress : Progress) : Json :=
  .object <|
    [("percent", .number progress.percent), ("bytes_processed", .word progress.bytesProcessed)] ++
    Json.memberIf "total_bytes" (progress.totalBytes.map Json.word) ++
    Json.memberIf "estimated_completion" (progress.estimatedCompletion.map Instant.write)

end Progress

end Job

end JobSwarm
