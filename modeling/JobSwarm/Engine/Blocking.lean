import JobSwarm.Codec.Basic

/-!
# The blocking engine

This engine lets a codec work on each run, beside everything else. A poll reads what the codec has
told so far. Suspending a run holds its codec at the next checkpoint; cancelling it makes the engine
forget the run and interrupts the codec there.

The calls only set the flags of a run and notify its codec. A codec that waits wakes by itself some
time after that, and looks at the flags as they are by then. What it makes of an interruption is its
own affair.
-/

namespace JobSwarm.Engine.Blocking

open Codec (Action Ending Reply)

/-- How the codec of a run stands. -/
inductive Phase where
  | working
  /-- It waits at a checkpoint. -/
  | blocked
  | ended (ending : Ending)
  deriving DecidableEq, Repr

/-- A run and its codec (`RunShared`). -/
structure Run where
  /-- The bytes that the codec has told, modulo 2^64. -/
  processed : UInt64 := 0
  total : Option UInt64 := none
  cancelled : Bool := false
  suspended : Bool := false
  /-- Whether the codec has been notified since it last looked at a checkpoint whether it may go
  on. -/
  notified : Bool := false
  phase : Phase := .working
  /-- Whether the engine still answers for the run. -/
  known : Bool := true
  deriving DecidableEq, Repr

/-- A run that has just been started (`new`). -/
def Run.fresh : Run :=
  {}

/-- The runs so far, first to last; handles count from one (`BlockingEngine`). -/
structure State where
  runs : List Run := []
  deriving DecidableEq, Repr

/-- The run of a handle. -/
def State.run? (state : State) (handle : Handle) : Option Run :=
  if handle.number = 0 then none else state.runs[handle.number.toNat - 1]?

/-- The run of a handle for which the engine still answers (`shared`). -/
def State.known? (state : State) (handle : Handle) : Option Run :=
  (state.run? handle).filter (·.known)

/-- Changes a run. -/
def State.modifyRun (state : State) (handle : Handle) (change : Run → Run) : State :=
  ⟨state.runs.modify (handle.number.toNat - 1) change⟩

/-! ## The calls of the engine (`start`, `poll`, `cancel`, `suspend`, `resume`) -/

def start (_ : Job.Config) (state : State) : Except Error Handle × State :=
  (.ok ⟨.ofNat (state.runs.length + 1)⟩, ⟨state.runs ++ [.fresh]⟩)

def poll (codec : String) (handle : Handle) (state : State) : Polled × State :=
  match state.known? handle with
  | none => (.refused (.unknownHandle handle), state)
  | some run =>
    match run.phase with
    | .ended ending =>
      (.finished (ending.outcome codec),
        state.modifyRun handle fun run => { run with known := false })
    | .working | .blocked => (.running ⟨run.processed, run.total⟩, state)

/-- A run after it has been cancelled (`cancel` of the state it shares with its codec). -/
def Run.stopped (run : Run) : Run :=
  { run with cancelled := true, notified := true, known := false }

def cancel (handle : Handle) (state : State) : Except Error Unit × State :=
  match state.known? handle with
  | none => (.ok (), state)
  | some _ => (.ok (), state.modifyRun handle Run.stopped)

/-- A run after it has been suspended or resumed (`set_suspended`). Its codec is notified either
way. -/
def Run.held (suspended : Bool) (run : Run) : Run :=
  { run with suspended := suspended, notified := true }

def suspend (handle : Handle) (state : State) : Except Error Unit × State :=
  match state.known? handle with
  | none => (.error (.unknownHandle handle), state)
  | some _ => (.ok (), state.modifyRun handle (Run.held true))

def resume (handle : Handle) (state : State) : Except Error Unit × State :=
  match state.known? handle with
  | none => (.error (.unknownHandle handle), state)
  | some _ => (.ok (), state.modifyRun handle (Run.held false))

/-- The blocking engine over a codec of some name. -/
def engine (codec : String) : Engine State where
  name := codec
  start := start
  poll := poll codec
  cancel := cancel
  suspend := suspend
  resume := resume

/-! ## What codecs do -/

/-- The total that stands for one that is not known. -/
def unknownTotal : UInt64 := 18446744073709551615

/-- A codec looks at a checkpoint whether it may go on (the loop of `checkpoint`). One
that is interrupted is told so, and goes on as it likes. -/
def Run.look (run : Run) : Reply × Run :=
  if run.cancelled then (.interrupted, { run with phase := .working })
  else if run.suspended then (.blocked, { run with phase := .blocked, notified := false })
  else (.passed, { run with phase := .working })

/-- A run after its codec has done something, and what the codec is told. -/
def Run.act (run : Run) : Action → Reply × Run
  | .setTotal bytes =>
    (.noted, { run with total := if bytes = unknownTotal then none else some bytes })
  | .advance bytes => (.noted, { run with processed := run.processed + bytes })
  | .askCancelled => (.cancelled run.cancelled, run)
  | .checkpoint => run.look
  | .finish ending => (.noted, { run with phase := .ended ending })

/-- What the codec of a run does (`CodecControl`). A codec that waits or has ended does nothing. -/
def act (handle : Handle) (action : Action) (state : State) : Option (Reply × State) := do
  let run ← (state.run? handle).filter (·.phase = .working)
  let (reply, after) := run.act action
  return (reply, state.modifyRun handle fun _ => after)

/-- The codec of a run that waits at a checkpoint and has been notified wakes, and looks again
(`checkpoint`). -/
def wake (handle : Handle) (state : State) : Option (Reply × State) := do
  let run ← (state.run? handle).filter fun run => run.phase = .blocked ∧ run.notified
  let (reply, after) := run.look
  return (reply, state.modifyRun handle fun _ => after)

end JobSwarm.Engine.Blocking
