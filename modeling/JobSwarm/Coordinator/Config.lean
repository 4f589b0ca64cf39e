import JobSwarm.Decimal.Layout
import JobSwarm.Emitter.Config
import JobSwarm.Queue.Config
import JobSwarm.Swarm.Config
import JobSwarm.Text.Blank

/-!
# Settings of a coordinator

The settings of the first queue, of the swarm and of the emitter, and what is demanded of them
before a coordinator starts.
-/

namespace JobSwarm.Coordinator

/-- The settings of a coordinator (`CoordinatorConfig`). -/
structure Config where
  queue : Queue.Config := {}
  swarm : Swarm.Config := {}
  events : Emitter.Config := {}

namespace Config

instance : Inhabited Config := ⟨{}⟩

/-- Why settings are refused (`ConfigError`). -/
inductive Fault where
  | zero (name : String)
  | outOfRange (name : String) (value : Float)
  | thresholdOrder (critical strained : Float)
  | emptyCatalog
  | duplicateAgent (name : String)
  | emptyCapability (name : String)

/-- The name by which programs know the fault. -/
def Fault.code : Fault → String
  | .zero _ => "Zero"
  | .outOfRange .. => "OutOfRange"
  | .thresholdOrder .. => "ThresholdOrder"
  | .emptyCatalog => "EmptyCatalog"
  | .duplicateAgent _ => "DuplicateAgent"
  | .emptyCapability _ => "EmptyCapability"

def Fault.message : Fault → String
  | .zero name => name ++ " must be greater than zero"
  | .outOfRange name value => name ++ " must be within 0.0..=1.0, got " ++ Decimal.plain value
  | .thresholdOrder critical strained =>
    "critical_below (" ++ Decimal.plain critical ++ ") must not exceed strained_below (" ++
      Decimal.plain strained ++ ")"
  | .emptyCatalog => "agent catalog is empty"
  | .duplicateAgent name => "agent '" ++ name ++ "' is defined more than once"
  | .emptyCapability name => "agent '" ++ name ++ "' has an empty capability"

/-- Demands a condition. -/
def demand (condition : Prop) [Decidable condition] (fault : Fault) : Except Fault Unit :=
  if condition then .ok () else .error fault

/-- Each entry has a name of its own, a capability that can be seen, and at least one agent. The
names in `seen` came before. -/
def validateCatalog (seen : List String) : List Agent.Definition → Except Fault Unit
  | [] => .ok ()
  | definition :: rest => do
    demand (definition.name ∉ seen) (.duplicateAgent definition.name)
    demand (Text.allBlank definition.capability = false) (.emptyCapability definition.name)
    demand (definition.replicas ≠ 0) (.zero "agent replicas")
    validateCatalog (definition.name :: seen) rest

/-- The first fault, in the order of the settings (`validate`). -/
def validate (config : Config) : Except Fault Unit := do
  demand (config.queue.concurrency ≠ 0) (.zero "queue.concurrency")
  demand (config.queue.scheduleIntervalMs ≠ 0) (.zero "queue.schedule_interval_ms")
  demand (config.queue.pollIntervalMs ≠ 0) (.zero "queue.poll_interval_ms")
  demand (config.queue.defaultTimeoutSecs ≠ 0) (.zero "queue.default_timeout_secs")
  demand (config.events.historyCapacity ≠ 0) (.zero "events.history_capacity")
  demand (config.swarm.failureThreshold ≠ 0) (.zero "swarm.failure_threshold")
  let strained := config.swarm.strainedBelow
  let critical := config.swarm.criticalBelow
  demand (0 ≤ strained ∧ strained ≤ 1) (.outOfRange "swarm.strained_below" strained)
  demand (0 ≤ critical ∧ critical ≤ 1) (.outOfRange "swarm.critical_below" critical)
  demand (¬strained < critical) (.thresholdOrder critical strained)
  demand (config.swarm.agents ≠ []) .emptyCatalog
  validateCatalog [] config.swarm.agents

def fieldNames : List String :=
  ["queue", "swarm", "events"]

def read : Json.Reads Config := fun value => do
  let fields ← Json.fields? fieldNames value
  return {
    queue := ← Json.defaulted Queue.Config.read {} fields "queue"
    swarm := ← Json.defaulted Swarm.Config.read {} fields "swarm"
    events := ← Json.defaulted Emitter.Config.read {} fields "events" }

def write (config : Config) : Json :=
  .object [("queue", config.queue.write), ("swarm", config.swarm.write),
    ("events", config.events.write)]

end Config

end JobSwarm.Coordinator
