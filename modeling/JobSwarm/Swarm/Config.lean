import JobSwarm.Agent.Catalog

/-!
# Settings of a swarm
-/

namespace JobSwarm.Swarm

/-- How healthy a swarm is (`HealthLevel`). -/
inductive Level where
  | healthy
  | strained
  | critical
  deriving DecidableEq, Repr

namespace Level

instance : Inhabited Level := ⟨.healthy⟩

def name : Level → String
  | .healthy => "healthy"
  | .strained => "strained"
  | .critical => "critical"

def ofName? : String → Option Level
  | "healthy" => some .healthy
  | "strained" => some .strained
  | "critical" => some .critical
  | _ => none

def read : Json.Reads Level :=
  Json.choice ofName?

def write (level : Level) : Json :=
  .text level.name

theorem ofName?_name (level : Level) : ofName? level.name = some level := by
  cases level <;> rfl

end Level

/-- The settings of a swarm (`SwarmConfig`). -/
structure Config where
  agents : List Agent.Definition := Agent.standardCatalog
  /-- How many failures in a row degrade an agent. -/
  failureThreshold : UInt32 := 3
  /-- How long a degraded agent rests. -/
  degradedCooldownMs : UInt64 := 60000
  /-- Whether a degraded agent is taken when no idle one will do. -/
  fallbackToDegraded : Bool := true
  /-- The swarm is strained when less than this share of its agents works. -/
  strainedBelow : Float := 0.75
  /-- The swarm is critical when less than this share of its agents works. -/
  criticalBelow : Float := 0.5

namespace Config

instance : Inhabited Config := ⟨{}⟩

/-- The rest of a degraded agent in nanoseconds (`degraded_cooldown`). -/
def cooldown (config : Config) : Nat :=
  config.degradedCooldownMs.toNat * 1000000

/-- The health of a swarm of which the share `operational` is idle or busy (`health_level`). -/
def level (config : Config) (operational : Float) : Level :=
  if operational < config.criticalBelow then .critical
  else if operational < config.strainedBelow then .strained
  else .healthy

def fieldNames : List String :=
  ["agents", "failure_threshold", "degraded_cooldown_ms", "fallback_to_degraded",
    "strained_below", "critical_below"]

def read : Json.Reads Config := fun value => do
  let fields ← Json.fields? fieldNames value
  let standard : Config := {}
  return {
    agents := ← Json.defaulted (Json.listOf Agent.Definition.read) standard.agents fields "agents"
    failureThreshold := ←
      Json.defaulted Json.halfWord? standard.failureThreshold fields "failure_threshold"
    degradedCooldownMs := ←
      Json.defaulted Json.word? standard.degradedCooldownMs fields "degraded_cooldown_ms"
    fallbackToDegraded := ←
      Json.defaulted Json.flag? standard.fallbackToDegraded fields "fallback_to_degraded"
    strainedBelow := ← Json.defaulted Json.number? standard.strainedBelow fields "strained_below"
    criticalBelow := ←
      Json.defaulted Json.number? standard.criticalBelow fields "critical_below" }

def write (config : Config) : Json :=
  .object [("agents", .list (config.agents.map Agent.Definition.write)),
    ("failure_threshold", .whole config.failureThreshold.toNat),
    ("degraded_cooldown_ms", .word config.degradedCooldownMs),
    ("fallback_to_degraded", .bool config.fallbackToDegraded),
    ("strained_below", .number config.strainedBelow),
    ("critical_below", .number config.criticalBelow)]

end Config

end JobSwarm.Swarm
