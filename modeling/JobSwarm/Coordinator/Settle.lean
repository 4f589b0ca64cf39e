import JobSwarm.Coordinator.Basic

/-!
# Settling

A coordinator has settled when nothing more can happen without time passing. Queues with mail take
turns, in the order in which their mail came. After a turn the queues hear of the agents that have
become idle, the runs that were started get their pollers, and what is due is done: regular passes
are called for, and runs are polled. Of two things that are due the earlier is done first.
-/

namespace JobSwarm.Coordinator

variable {σ : Type}

/-! ## Hearing of idle agents -/

/-- Calls for a pass of every live queue, once for each agent that has become idle. -/
def hearIdle (c : Coordinator σ) : Coordinator σ :=
  c.livePlaces.foldl (fun c' place => c'.deliver place (List.replicate c.unheard .schedule))
    { c with unheard := 0 }

/-! ## Pollers -/

/-- How long a queue waits between two polls, on the steady clock. -/
def pollInterval (station : Station) : Nat :=
  station.queue.config.pollIntervalMs.toNat * Time.perMilli

/-- A poller of a new run, due at once (`spawn_poller`). Without an interval it never polls. -/
def newPoller (now place : Nat) (station : Station) (active : Queue.Active) : Poller where
  place := place
  jobId := active.jobId
  handle := active.handle
  due := now
  ended := pollInterval station = 0

/-- The pollers that the active jobs of a queue still lack. -/
def missingPollers (c : Coordinator σ) (place : Nat) (station : Station) : List Poller :=
  (station.queue.active.filter fun active =>
      !c.pollers.any fun poller => poller.place == place && poller.jobId == active.jobId).map
    (newPoller c.clock.steady place station)

/-- Gives every active job its poller. -/
def hirePollers (c : Coordinator σ) : Coordinator σ :=
  { c with pollers := c.pollers ++
      c.stations.zipIdx.flatMap fun (station, place) => c.missingPollers place station }

/-- Whether a poller is still at work: it ends with its run and with its job. -/
def isRunning (c : Coordinator σ) (poller : Poller) : Bool :=
  !poller.ended &&
    c.stations[poller.place]?.any fun station => (station.queue.active? poller.jobId).isSome

/-- How late a poll may be, at most, without moving the later ones. -/
def tolerance : Nat := 5 * Time.perMilli

/-- When the poll after this one is due: the rhythm is kept, unless this one is too late. -/
def nextPoll (now due interval : Nat) : Nat :=
  if now - due ≤ tolerance ∧ now < due + interval then due + interval else now + interval

/-- Polls a run and tells the queue. -/
def poll (c : Coordinator σ) (index : Nat) (poller : Poller) : Coordinator σ :=
  match c.stations[poller.place]? with
  | none => c
  | some station =>
    let (polled, engineState) := c.engine.poll poller.handle c.engineState
    let message := Queue.Message.ofPolled c.engine.name poller.jobId polled
    let after : Poller := { poller with
      due := nextPoll c.clock.steady poller.due (pollInterval station)
      ended := message.isFinal || station.standing ≠ .live }
    { c with engineState := engineState, pollers := c.pollers.set index after }.deliver
      poller.place [message]

/-! ## Regular passes -/

/-- How many regular passes have become due, the first of them at `due`. -/
def passesDue (now due interval : Nat) : Nat :=
  if now < due then 0 else (now - due) / interval + 1

/-- Calls for the regular passes of a queue that have become due. -/
def callPasses (c : Coordinator σ) (place : Nat) (station : Station) (due : Nat) : Coordinator σ :=
  let interval := station.queue.config.scheduleIntervalMs.toNat * Time.perMilli
  let count := passesDue c.clock.steady due interval
  (c.modifyStation place fun station =>
    { station with passDue := some (due + count * interval) }).deliver place
    (List.replicate count .schedule)

/-! ## What is due -/

/-- Something that is due at some time. -/
inductive Alarm where
  | pass (place : Nat) (station : Station)
  | poll (index : Nat) (poller : Poller)

/-- When the regular pass of a live queue was due, if it is due by now. -/
def passDueBy (now : Nat) (station : Station) : Option Nat :=
  station.passDue.filter fun due => station.standing == .live && decide (due ≤ now)

/-- The regular passes that are due, with their times. -/
def passAlarms (c : Coordinator σ) : List (Nat × Alarm) :=
  c.stations.zipIdx.filterMap fun (station, place) =>
    (passDueBy c.clock.steady station).map fun due => (due, .pass place station)

/-- The polls that are due, with their times. -/
def pollAlarms (c : Coordinator σ) : List (Nat × Alarm) :=
  (c.pollers.zipIdx.filter fun (poller, _) =>
      c.isRunning poller && decide (poller.due ≤ c.clock.steady)).map
    fun (poller, index) => (poller.due, .poll index poller)

/-- Does what is due at some time. -/
def ring (c : Coordinator σ) : Nat × Alarm → Coordinator σ
  | (due, .pass place station) => c.callPasses place station due
  | (_, .poll index poller) => c.poll index poller

/-- Does all that is due, the earliest first. -/
def ringAll (c : Coordinator σ) : Coordinator σ :=
  ((c.passAlarms ++ c.pollAlarms).mergeSort fun a b => a.1 ≤ b.1).foldl ring c

/-! ## Turns -/

/-- Everything that happens between two turns. -/
def rouse (c : Coordinator σ) : Coordinator σ :=
  c.hearIdle.hirePollers.ringAll

/-- Lets a queue handle all its mail. -/
def turn (c : Coordinator σ) (place : Nat) : Coordinator σ :=
  match c.stations[place]? with
  | none => c
  | some station =>
    station.mailbox.foldl (fun c message => (c.handle place message).2)
      (c.modifyStation place fun station => { station with mailbox := [] })

/-- Lets queues with mail take some turns, at most. -/
def settleFor : Nat → Coordinator σ → Coordinator σ
  | 0, c => c
  | n + 1, c =>
    match c.ready with
    | [] => c
    | place :: rest => settleFor n (({ c with ready := rest }.turn place).rouse)

/-- The sum of a measure over the queues. -/
def total (c : Coordinator σ) (measure : Station → Nat) : Nat :=
  c.stations.foldl (fun sum station => sum + measure station) 0

/-- How many turns are needed, at most. Each takes a message. Besides those that are there, a
message comes of the first poll of each job that is started, and for each queue of each agent that
becomes idle: once with the end of a job, and once by recovering from that or from before. -/
def turnsNeeded (c : Coordinator σ) : Nat :=
  let mail := c.total (·.mailbox.length)
  let unfinished := c.total (·.queue.unfinished.length)
  mail + unfinished + c.stations.length * (2 * unfinished + c.swarm.agents.length) + 1

/-- Lets everything happen that can happen without time passing. -/
def settle (c : Coordinator σ) : Coordinator σ :=
  let c := c.rouse
  settleFor c.turnsNeeded c

end JobSwarm.Coordinator
