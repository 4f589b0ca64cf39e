import JobSwarm.Coordinator.Settle

/-!
# Calls on a coordinator

Each call does one thing and then lets the coordinator settle.
-/

namespace JobSwarm.Coordinator

variable {σ α : Type}

/-! ## Whom to ask -/

/-- Why a queue cannot be asked. -/
inductive Absence where
  /-- It was never made, or was shut down. -/
  | unknown
  /-- Its owner has it still, but it has ended. -/
  | ended
  deriving DecidableEq, Repr

/-- The queue of a place, if it can be asked. -/
def live? (c : Coordinator σ) (place : Nat) : Except Absence Station :=
  match c.stations[place]? with
  | none => .error .unknown
  | some station =>
    match station.standing with
    | .live => .ok station
    | .closed => .error .unknown
    | .stopped | .broken => .error .ended

/-! ## Queues come and go -/

/-- Makes another queue on the same swarm, engine and emitter; gives its place (`pre_start`). Its
first pass is due at once. -/
def spawnQueue (c : Coordinator σ) (config : Queue.Config) : Nat × Coordinator σ :=
  let (subscription, emitter) := c.emitter.subscribe (.onTopics [.agentStatusChanged])
    (.callback "queue" .succeeds)
  let station : Station := {
    queue := { config := config }
    subscription := subscription
    passDue := if config.scheduleIntervalMs = 0 then none else some c.clock.steady }
  (c.stations.length, { c with emitter := emitter, stations := c.stations ++ [station] }.settle)

/-- Ends a live queue: it hears of nothing any more, and cancels its unfinished jobs (`post_stop`).
Tells whether it came to that. -/
def endQueue (c : Coordinator σ) (place : Nat) (standing : Standing) : Bool × Coordinator σ :=
  match c.stations[place]? with
  | none => (false, c)
  | some station =>
    if station.standing ≠ .live then (false, c)
    else
      let deaf := { c with emitter := (c.emitter.unsubscribe station.subscription).2 }
      match deaf.run place (Queue.drain c.engine c.clock) with
      | (none, c) => (false, c.settle)
      | (some (), c) =>
        (true, (c.modifyStation place fun station => { station with standing := standing }).settle)

/-- Shuts down a queue (`shutdown`). Nobody has it afterwards. -/
def shutdown (c : Coordinator σ) (place : Nat) : Bool × Coordinator σ :=
  c.endQueue place .closed

/-- Stops a queue. Its owner still has it, in vain. -/
def stop (c : Coordinator σ) (place : Nat) : Coordinator σ :=
  (c.endQueue place .stopped).2

/-! ## Messages -/

/-- Asks a queue and gives its answer, if there is one (`request`). -/
def ask (c : Coordinator σ) (place : Nat) (message : Queue.Message) :
    Option Queue.Reply × Coordinator σ :=
  let (reply, c) := c.handle place message
  (reply, c.settle)

/-- Tells a queue something. -/
def send (c : Coordinator σ) (place : Nat) (message : Queue.Message) : Coordinator σ :=
  (c.deliver place [message]).settle

/-! ## The swarm and the clock -/

/-- A call on the swarm, past the queues. -/
def onSwarm (c : Coordinator σ) (call : Step Swarm.Session α) :
    Except Overflow α × Coordinator σ :=
  let settled (session : Swarm.Session) : Coordinator σ :=
    ({ c with swarm := session.swarm }.publish session.announced).settle
  match call { swarm := c.swarm } with
  | .ok value session => (.ok value, settled session)
  | .error overflow session => (.error overflow, settled session)

/-- Lets some milliseconds pass at once. -/
def advance (c : Coordinator σ) (millis : Int) : Coordinator σ :=
  { c with clock := c.clock.forward millis }.settle

end JobSwarm.Coordinator
