import JobSwarm.Coordinator.Calls
import JobSwarm.Coordinator.Config
import JobSwarm.Emitter.Shared

/-!
# Starting a coordinator

A coordinator starts on an emitter of its own or on the shared one. Its settings are checked first;
then the swarm is filled and the first queue is made.

Results:

* `startOn_invalid`: settings with a fault start nothing.
-/

namespace JobSwarm.Coordinator

open Time (Clock)

variable {σ : Type}

/-- Why a coordinator does not start. -/
inductive StartError where
  | config (fault : Config.Fault)
  | swarm (error : Swarm.Error)
  | overflow (cause : Overflow)

def StartError.message : StartError → String
  | .config fault => "invalid configuration: " ++ fault.message
  | .swarm error => error.message
  | .overflow cause => cause.message

/-- Puts a coordinator together, whatever its settings (`start_coordinator_with` after its
check). -/
def assemble (engine : Engine σ) (engineState : σ) (config : Config) (emitter : Emitter)
    (clock : Clock) : Except StartError (Coordinator σ) :=
  match Swarm.Session.populate config.swarm.agents clock.wall { swarm := .empty config.swarm } with
  | .error cause _ => .error (.overflow cause)
  | .ok (.error error) _ => .error (.swarm error)
  | .ok (.ok ()) session =>
    let bare : Coordinator σ := {
      engine := engine
      engineState := engineState
      clock := clock
      emitter := emitter
      swarm := session.swarm }
    .ok (bare.spawnQueue config.queue).2

/-- Starts a coordinator on an emitter (`start_coordinator_with`). -/
def startOn (engine : Engine σ) (engineState : σ) (config : Config) (emitter : Emitter)
    (clock : Clock) : Except StartError (Coordinator σ) :=
  match config.validate with
  | .error fault => .error (.config fault)
  | .ok () => assemble engine engineState config emitter clock

/-- Starts a coordinator on the shared emitter (`start_coordinator`). When there is none yet, one is
made from the settings and shared, before they are checked. The coordinator works on the shared
emitter itself: what it has done to it so far has been done to that. -/
def startShared (engine : Engine σ) (engineState : σ) (config : Config) (shared : Emitter.Shared)
    (clock : Clock) : Except StartError (Coordinator σ) × Emitter.Shared :=
  let (place, shared) := shared.getOrInstall (.ofConfig config.events)
  let emitter := shared.emitters[place]?.getD (.ofConfig config.events)
  match startOn engine engineState config emitter clock with
  | .error e => (.error e, shared)
  | .ok coordinator => (.ok coordinator, shared.update place fun _ => coordinator.emitter)

theorem startOn_invalid (engine : Engine σ) (engineState : σ) (config : Config) (emitter : Emitter)
    (clock : Clock) (fault : Config.Fault) (h : config.validate = .error fault) :
    startOn engine engineState config emitter clock = .error (.config fault) := by
  simp [startOn, h]

end JobSwarm.Coordinator
