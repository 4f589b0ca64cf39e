import JobSwarm.Emitter.Basic
import JobSwarm.Queue.Message

/-!
# The coordinator

A coordinator holds an emitter, a swarm, an engine, and queues that share them. Each queue has a
mailbox. The runs of active jobs are polled, and each poll becomes a message.
-/

namespace JobSwarm

open Time (Clock)

namespace Coordinator

/-- How a queue stands. -/
inductive Standing where
  | live
  /-- It was shut down, and nobody has it any more. -/
  | closed
  /-- It was stopped, but its owner still has it. -/
  | stopped
  /-- It was ended by an overflow. -/
  | broken
  deriving DecidableEq, Repr

/-- A queue with its mail. -/
structure Station where
  queue : Queue
  standing : Standing := .live
  /-- By this subscription the queue hears of idle agents. -/
  subscription : Emitter.SubscriptionId
  /-- The messages to handle, first to last. -/
  mailbox : List Queue.Message := []
  /-- When the next regular pass is due, on the steady clock. Without an interval there is none. -/
  passDue : Option Nat

/-- Who polls the run of a job. -/
structure Poller where
  /-- The place of the queue. -/
  place : Nat
  jobId : Job.Id
  handle : Engine.Handle
  /-- When the next poll is due, on the steady clock. -/
  due : Nat
  ended : Bool := false

end Coordinator

open Coordinator in
/-- Queues that share an emitter, a swarm and an engine. -/
structure Coordinator (σ : Type) where
  engine : Engine σ
  engineState : σ
  clock : Clock
  emitter : Emitter
  swarm : Swarm
  /-- The queues, in the order in which they were made. -/
  stations : List Station := []
  /-- The pollers, in the order in which they started. -/
  pollers : List Poller := []
  /-- The places of the queues with mail, in the order in which it came. -/
  ready : List Nat := []
  /-- How many agents have become idle of which the queues have not heard. -/
  unheard : Nat := 0

namespace Coordinator

variable {σ α : Type}

/-! ## Parts -/

/-- Changes the queue of a place. -/
def modifyStation (c : Coordinator σ) (place : Nat) (change : Station → Station) : Coordinator σ :=
  { c with stations := c.stations.modify place change }

/-- The places of the queues that are live. -/
def livePlaces (c : Coordinator σ) : List Nat :=
  (List.range c.stations.length).filter fun place =>
    c.stations[place]?.any (·.standing == .live)

/-- Puts messages into the mailbox of a live queue. -/
def deliver (c : Coordinator σ) (place : Nat) (messages : List Queue.Message) : Coordinator σ :=
  match c.stations[place]? with
  | none => c
  | some station =>
    if station.standing ≠ .live ∨ messages.isEmpty then c
    else
      { c.modifyStation place fun station =>
          { station with mailbox := station.mailbox ++ messages } with
        ready := if c.ready.contains place then c.ready else c.ready ++ [place] }

/-- Whether a notice says that an agent has become idle. -/
def tellsIdle : Event.Notice → Bool
  | .agentStatusChanged _ _ .idle => true
  | _ => false

/-- Publishes notices. -/
def publish (c : Coordinator σ) (notices : List Event.Notice) : Coordinator σ :=
  { c with
    emitter := c.emitter.publishAll notices c.clock.wall
    unheard := c.unheard + notices.countP tellsIdle }

/-! ## Work of a queue -/

/-- What a queue sees and may change. -/
def scene (c : Coordinator σ) (station : Station) : Queue.Scene σ where
  swarm := c.swarm
  queue := station.queue
  engineState := c.engineState

/-- The coordinator after a queue has worked. -/
def absorb (c : Coordinator σ) (place : Nat) (scene : Queue.Scene σ) (standing : Standing) :
    Coordinator σ :=
  { c.modifyStation place fun station =>
      { station with queue := scene.queue, standing := standing } with
    swarm := scene.swarm
    engineState := scene.engineState }.publish scene.announced

/-- Lets a live queue work. An overflow ends the queue. -/
def run (c : Coordinator σ) (place : Nat) (step : Step (Queue.Scene σ) α) :
    Option α × Coordinator σ :=
  match c.stations[place]? with
  | none => (none, c)
  | some station =>
    if station.standing ≠ .live then (none, c)
    else
      match step (c.scene station) with
      | .ok value scene => (some value, c.absorb place scene .live)
      | .error _ scene => (none, c.absorb place scene .broken)

/-- Lets a live queue handle a message. An answer that was given stands, even if the pass that
follows it ends the queue. -/
def handle (c : Coordinator σ) (place : Nat) (message : Queue.Message) :
    Option Queue.Reply × Coordinator σ :=
  match c.run place (Queue.react c.engine c.clock message) with
  | (none, c) => (none, c)
  | (some reply, c) =>
    if Queue.passFollows message reply then
      (some reply, (c.run place (Queue.pass c.engine c.clock)).2)
    else (some reply, c)

end Coordinator

end JobSwarm
