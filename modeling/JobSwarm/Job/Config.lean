import JobSwarm.Files.Path

/-!
# What a job is to do

The kind of work, what it works on, and how. Everything but the target has a standard.
-/

namespace JobSwarm.Job

/-- What a job does with its target (`JobKind`). -/
inductive Kind where
  | compress
  | decompress
  | verify
  deriving DecidableEq, Repr

namespace Kind

instance : Inhabited Kind := ⟨.compress⟩

def name : Kind → String
  | .compress => "compress"
  | .decompress => "decompress"
  | .verify => "verify"

def ofName? : String → Option Kind
  | "compress" => some .compress
  | "decompress" => some .decompress
  | "verify" => some .verify
  | _ => none

/-- What an agent must be able to do to run a job of this kind: the capability of the same name
(`default_capability`). -/
def capability (kind : Kind) : String :=
  kind.name

def read : Json.Reads Kind :=
  Json.choice ofName?

def write (kind : Kind) : Json :=
  .text kind.name

theorem ofName?_name (kind : Kind) : ofName? kind.name = some kind := by
  cases kind <;> rfl

end Kind

/-- The compression levels: the least, the greatest, and the one taken when none is named. -/
def minLevel : UInt8 := 1
def maxLevel : UInt8 := 9
def standardLevel : UInt8 := 6

/-- The work that a caller asks for (`JobConfig`). -/
structure Config where
  kind : Kind := .compress
  /-- The file or directory to work on. -/
  targetPath : Files.Path
  /-- Where the result goes, when not beside the target. -/
  outputPath : Option Files.Path := none
  level : UInt8 := standardLevel
  /-- Asks for another capability than that of the kind. -/
  capability : Option String := none
  /-- Replaces the timeout of the queue. -/
  timeoutSecs : Option UInt64 := none
  /-- Settings of the engine. -/
  options : Json.Members := []

namespace Config

/-- What an agent must be able to do to run the job (`required_capability`). -/
def requiredCapability (config : Config) : String :=
  config.capability.getD config.kind.capability

/-- Writes one engine setting (`with_option`). -/
def withOption (config : Config) (key : String) (value : Json) : Config :=
  { config with options := config.options.set key value }

/-- Why a configuration is refused (`ValidationError`). -/
inductive Fault where
  | missingPath
  | invalidLevel (level : UInt8)
  | zeroTimeout
  | unsupportedCapability (capability : String)
  deriving DecidableEq, Repr

/-- The name by which programs know the fault. -/
def Fault.code : Fault → String
  | .missingPath => "MissingPath"
  | .invalidLevel _ => "InvalidLevel"
  | .zeroTimeout => "ZeroTimeout"
  | .unsupportedCapability _ => "UnsupportedCapability"

def Fault.message : Fault → String
  | .missingPath => "target path is missing"
  | .invalidLevel level =>
    "compression level " ++ toString level.toNat ++ " is outside " ++ toString minLevel.toNat ++
      "..=" ++ toString maxLevel.toNat
  | .zeroTimeout => "timeout must be greater than zero"
  | .unsupportedCapability capability =>
    "no agent in the catalog provides capability '" ++ capability ++ "'"

/-- The first fault that can be seen without knowing the agents (`validate`). -/
def validate (config : Config) : Except Fault Unit :=
  if config.targetPath.isEmpty then .error .missingPath
  else if config.level < minLevel ∨ maxLevel < config.level then .error (.invalidLevel config.level)
  else if config.timeoutSecs = some 0 then .error .zeroTimeout
  else .ok ()

/-! ## JSON -/

/-- The fields, in order. -/
def fieldNames : List String :=
  ["kind", "target_path", "output_path", "level", "capability", "timeout_secs", "options"]

def read : Json.Reads Config := fun value => do
  let fields ← Json.fields? fieldNames value
  return {
    kind := ← Json.defaulted Kind.read .compress fields "kind"
    targetPath := ← Json.required Files.Path.read fields "target_path"
    outputPath := ← Json.optional Files.Path.read fields "output_path"
    level := ← Json.defaulted Json.byte? standardLevel fields "level"
    capability := ← Json.optional Json.text? fields "capability"
    timeoutSecs := ← Json.optional Json.word? fields "timeout_secs"
    options := ← Json.defaulted Json.members? [] fields "options" }

/-- The members, with what is written for the paths. A member without a value, and options without
a member, are left out. -/
def members (config : Config) (target : Json) (output : Option Json) : Json.Members :=
  [("kind", config.kind.write), ("target_path", target)] ++
    Json.memberIf "output_path" output ++
    [("level", .whole config.level.toNat)] ++
    Json.memberIf "capability" (config.capability.map .text) ++
    Json.memberIf "timeout_secs" (config.timeoutSecs.map Json.word) ++
    if config.options.isEmpty then [] else [("options", .object config.options)]

/-- Writes the configuration, if its paths are texts. -/
def write (config : Config) : Option Json := do
  let target ← config.targetPath.write
  let output ← config.outputPath.mapM Files.Path.write
  return .object (config.members target output)

end Config

end JobSwarm.Job
