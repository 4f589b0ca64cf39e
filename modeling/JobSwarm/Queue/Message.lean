import JobSwarm.Queue.Pass
import JobSwarm.Queue.Request

/-!
# Messages to a queue

A queue handles one message at a time. It reacts to the message, then answers it, and after some
messages a scheduling pass follows.
-/

namespace JobSwarm.Queue

open Time (Clock)

variable {σ : Type}

/-- What a queue is told (`QueueMessage`). The sender of a job mints its identifier. -/
inductive Message where
  | submit (id : Job.Id) (config : Job.Config) (priority : Priority)
  | cancel (id : Job.Id)
  | pause (id : Job.Id)
  | resume (id : Job.Id)
  | progress (id : Job.Id) (snapshot : Engine.Snapshot)
  | finished (id : Job.Id) (outcome : Engine.Outcome)
  | schedule

/-- What is told of a poll: the progress of a run that goes on, or the end of one that does not
(`spawn_poller`). A poll that fails ends the job. -/
def Message.ofPolled (engine : String) (id : Job.Id) : Engine.Polled → Message
  | .running snapshot => .progress id snapshot
  | .finished outcome => .finished id outcome
  | .refused error => .finished id (.failed error.message)
  | .panicked => .finished id (.failed ("engine " ++ engine ++ " panicked"))

/-- Whether a message tells of the end of a run. -/
def Message.isFinal : Message → Bool
  | .finished .. => true
  | _ => false

/-- What a queue answers. -/
abbrev Reply := Except Error Unit

/-- What a queue does before it answers. -/
def react (engine : Engine σ) (clock : Clock) : Message → Step (Scene σ) Reply
  | .submit id config priority => submit id config priority clock
  | .cancel id => cancel engine id clock
  | .pause id => pause engine id clock
  | .resume id => resume engine id clock
  | .progress id snapshot => do
    takeProgress id snapshot clock
    return .ok ()
  | .finished id outcome => do
    takeOutcome id outcome clock
    return .ok ()
  | .schedule => pure (.ok ())

/-- Whether a scheduling pass follows the answer: after work has come or may have gone. -/
def passFollows : Message → Reply → Bool
  | .submit .., .ok () | .cancel _, .ok () | .finished .., _ | .schedule, _ => true
  | _, _ => false

/-- Handles a message (`handle`). -/
def handle (engine : Engine σ) (clock : Clock) (message : Message) : Step (Scene σ) Reply := do
  let reply ← react engine clock message
  if passFollows message reply then pass engine clock
  return reply

end JobSwarm.Queue
