import JobSwarm.Job.Config

/-!
# Engines

An engine does the work of jobs. A job is started as a run; the run is polled until it says that it
has ended. In between it can be suspended, resumed, or cancelled. An engine is its five calls on a
state of its own.
-/

namespace JobSwarm

namespace Engine

/-- The number of a run (`EngineHandle`). -/
structure Handle where
  number : UInt64
  deriving DecidableEq, Repr

def Handle.text (handle : Handle) : String :=
  "run-" ++ toString handle.number.toNat

/-- How many bytes a run has processed, and of how many (`ProgressSnapshot`). -/
structure Snapshot where
  bytesProcessed : UInt64 := 0
  totalBytes : Option UInt64 := none
  deriving DecidableEq, Repr

/-- How far along a run is, in percent: nothing while the total is not known, and at most 100
(`percent`). A run over no bytes is through. -/
def Snapshot.percent (snapshot : Snapshot) : Option Float :=
  snapshot.totalBytes.map fun total =>
    if total = 0 then 100
    else
      let percent := snapshot.bytesProcessed.toFloat / total.toFloat * 100
      if percent ≤ 100 then percent else 100

/-- How a run ended (`EngineOutcome`). -/
inductive Outcome where
  | completed (bytesProcessed : UInt64)
  | failed (error : String)
  deriving DecidableEq, Repr

/-- Why an engine refuses a call (`EngineError`). -/
inductive Error where
  | unknownHandle (handle : Handle)
  | start (reason : String)
  | backend (reason : String)
  deriving DecidableEq, Repr

/-- The name by which programs know the error. -/
def Error.code : Error → String
  | .unknownHandle _ => "UnknownHandle"
  | .start _ => "Start"
  | .backend _ => "Backend"

def Error.message : Error → String
  | .unknownHandle handle => "unknown engine run " ++ handle.text
  | .start reason => "engine refused to start: " ++ reason
  | .backend reason => "engine failure: " ++ reason

/-- What comes of polling a run (`EnginePoll`). -/
inductive Polled where
  | running (snapshot : Snapshot)
  | finished (outcome : Outcome)
  | refused (error : Error)
  | panicked
  deriving DecidableEq, Repr

end Engine

open Engine in
/-- An engine with a state of type `σ` (`EngineAdapter`). Cancelling a run that is gone is no error.
-/
structure Engine (σ : Type) where
  name : String
  start : Job.Config → σ → Except Error Handle × σ
  poll : Handle → σ → Polled × σ
  cancel : Handle → σ → Except Error Unit × σ
  suspend : Handle → σ → Except Error Unit × σ
  resume : Handle → σ → Except Error Unit × σ

end JobSwarm
