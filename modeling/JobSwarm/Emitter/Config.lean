import JobSwarm.Json.Record

/-!
# Settings of an emitter
-/

namespace JobSwarm.Emitter

/-- The settings of an emitter (`EventConfig`). -/
structure Config where
  /-- How many events are kept for those who come late. -/
  historyCapacity : UInt64 := 256
  deriving DecidableEq, Repr

namespace Config

instance : Inhabited Config := ⟨{}⟩

def fieldNames : List String :=
  ["history_capacity"]

def read : Json.Reads Config := fun value => do
  let fields ← Json.fields? fieldNames value
  return { historyCapacity := ← Json.defaulted Json.word? 256 fields "history_capacity" }

def write (config : Config) : Json :=
  .object [("history_capacity", .word config.historyCapacity)]

end Config

end JobSwarm.Emitter
