import JobSwarm.Engine.Basic
import JobSwarm.Queue.Basic
import JobSwarm.Queue.Error
import JobSwarm.Swarm.Basic
import JobSwarm.Time.Clock

/-!
# A queue at work

While a queue handles a message it changes its own records, the agents of the swarm and the state of
the engine, and it announces what happens. Here stand the small steps of which that work is made.

Results:

* `announce_eq_ok`, `modifyQueue_eq_ok`, `onSwarm_eq_ok`, `callEngine_eq_ok`, `release_eq_ok`: each
  small step that ends has changed one part.
-/

namespace JobSwarm.Queue

/-- A queue, the swarm and the engine during a call, with what has been announced, oldest first. -/
structure Scene (σ : Type) extends Swarm.Session where
  queue : Queue
  engineState : σ
  /-- What went wrong, oldest first. -/
  mishaps : List Mishap := []

namespace Scene

variable {σ α : Type}

/-- Announces a notice. -/
def announce (notice : Event.Notice) : Step (Scene σ) Unit :=
  modify fun s => { s with announced := s.announced ++ [notice] }

/-- Writes a mishap to the log. -/
def report (mishap : Mishap) : Step (Scene σ) Unit :=
  modify fun s => { s with mishaps := s.mishaps ++ [mishap] }

/-- Changes the queue. -/
def modifyQueue (change : Queue → Queue) : Step (Scene σ) Unit :=
  modify fun s => { s with queue := change s.queue }

/-- A call on the swarm. -/
def onSwarm (step : Step Swarm.Session α) : Step (Scene σ) α :=
  Step.onPart (·.toSession) (fun session s => { s with toSession := session }) step

/-- A call on the engine. -/
def callEngine (call : σ → α × σ) : Step (Scene σ) α :=
  modifyGet fun s => ((call s.engineState).1, { s with engineState := (call s.engineState).2 })

/-- Gives an agent back (`release_agent`). The swarm may refuse it; then it is not the queue's to
give. -/
def release (id : Agent.Id) (outcome : Task.Outcome) (now : Time.Instant) :
    Step (Scene σ) Unit :=
  discard (onSwarm (Swarm.Session.release id outcome now))

section Ended

variable {a : α} {u : Unit} {s t : Scene σ}

theorem announce_eq_ok {notice : Event.Notice} :
    announce notice s = .ok u t ↔ { s with announced := s.announced ++ [notice] } = t :=
  Step.modify_eq_ok

theorem modifyQueue_eq_ok {change : Queue → Queue} :
    modifyQueue change s = .ok u t ↔ { s with queue := change s.queue } = t :=
  Step.modify_eq_ok

theorem onSwarm_eq_ok {step : Step Swarm.Session α} :
    onSwarm step s = .ok a t ↔
      ∃ session, step s.toSession = .ok a session ∧ { s with toSession := session } = t :=
  Step.onPart_eq_ok

theorem callEngine_eq_ok {call : σ → α × σ} :
    callEngine call s = .ok a t ↔
      ∃ state, call s.engineState = (a, state) ∧ { s with engineState := state } = t := by
  rw [callEngine, Step.modifyGet_eq_ok, Prod.ext_iff]
  constructor
  · rintro ⟨rfl, rfl⟩
    exact ⟨_, rfl, rfl⟩
  · rintro ⟨_, hcall, rfl⟩
    rw [hcall]
    exact ⟨rfl, rfl⟩

theorem release_eq_ok {id : Agent.Id} {outcome : Task.Outcome} {now : Time.Instant} :
    release id outcome now s = .ok u t ↔
      ∃ session, (∃ answer, Swarm.Session.release id outcome now s.toSession =
        .ok answer session) ∧ { s with toSession := session } = t := by
  simp only [release, Step.discard_eq_ok, onSwarm_eq_ok]
  constructor
  · rintro ⟨answer, session, hrelease, rfl⟩
    exact ⟨session, ⟨answer, hrelease⟩, rfl⟩
  · rintro ⟨session, ⟨answer, hrelease⟩, rfl⟩
    exact ⟨answer, session, hrelease, rfl⟩

end Ended

end Scene

end JobSwarm.Queue
