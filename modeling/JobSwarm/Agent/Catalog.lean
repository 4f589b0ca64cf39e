import JobSwarm.Agent.Id
import JobSwarm.Agent.Status

/-!
# The catalog of agents

Each entry stands for a number of like agents: one name, one tier, one capability.
-/

namespace JobSwarm.Agent

/-- An entry of the catalog (`AgentDefinition`). -/
structure Definition where
  name : String
  tier : Tier
  capability : String
  /-- How many agents the entry stands for. -/
  replicas : UInt32 := 1
  deriving DecidableEq, Repr

namespace Definition

/-- The identifiers of the agents of an entry, numbered from one. -/
def ids (definition : Definition) : List Id :=
  (List.range definition.replicas.toNat).map fun n => .replica definition.name (n + 1)

def fieldNames : List String :=
  ["name", "tier", "capability", "replicas"]

def read : Json.Reads Definition := fun value => do
  let fields ← Json.fields? fieldNames value
  return {
    name := ← Json.required Json.text? fields "name"
    tier := ← Json.required Tier.read fields "tier"
    capability := ← Json.required Json.text? fields "capability"
    replicas := ← Json.defaulted Json.halfWord? 1 fields "replicas" }

def write (definition : Definition) : Json :=
  .object [("name", .text definition.name), ("tier", definition.tier.write),
    ("capability", .text definition.capability), ("replicas", .whole definition.replicas.toNat)]

end Definition

/-- The catalog that is used when no other is given (`default_catalog`). -/
def standardCatalog : List Definition :=
  [ { name := "lz-swift", tier := .fast, capability := "fast-compress", replicas := 2 },
    { name := "lz-swift-full", tier := .fast, capability := "compress" },
    { name := "zstd", tier := .balanced, capability := "compress", replicas := 2 },
    { name := "xz-archive", tier := .deep, capability := "compress" },
    { name := "inflate", tier := .fast, capability := "decompress", replicas := 2 },
    { name := "checksum", tier := .fast, capability := "verify" },
    { name := "deep-verify", tier := .deep, capability := "verify" } ]

end JobSwarm.Agent
