import JobSwarm.Engine.Basic
import JobSwarm.Files.Path

/-!
# The stub engine

This engine does nothing, in a fixed number of polls. Each poll moves a run that is not suspended
by one step; the last step ends it. Runs over certain targets fail there.

Results:

* `bytesAt_le`: a run never reports more bytes than it has.
-/

namespace JobSwarm.Engine.Stub

/-- A simulated run (`StubRun`). -/
structure Run where
  total : UInt64
  step : Nat := 0
  fails : Bool
  suspended : Bool := false
  deriving DecidableEq, Repr

/-- A stub engine and its runs (`StubEngine`). -/
structure State where
  /-- How many polls a run takes, at least one. -/
  steps : Nat
  /-- The size of a run over a job that does not tell its own. -/
  size : UInt64
  /-- The targets whose runs fail. -/
  failing : List Files.Path := []
  next : UInt64 := 1
  runs : List (Handle × Run) := []
  deriving DecidableEq, Repr

/-- The size of a run when nobody says otherwise. -/
def standardSize : UInt64 := 1048576

/-- A stub engine whose runs take some polls (`new`). -/
def withSteps (steps : UInt32) : State :=
  { steps := max steps.toNat 1, size := standardSize }

/-- The stub engine that is made when no steps are given. -/
def standard : State :=
  withSteps 10

/-- Reads the settings of a stub engine, each of which may be missing. -/
def State.read : Json.Reads State := fun value => do
  let members ← Json.members? value
  let state := (← Json.optional Json.halfWord? members "steps").elim standard withSteps
  return { state with
    size := (← Json.optional Json.word? members "size").getD state.size
    failing := (← Json.optional (Json.listOf Files.Path.read) members "failing").getD [] }

/-- The option that tells the size of a job. -/
def sizeOption : String := "size_bytes"

/-- The size of a run: that of the option, which has to be a count, or that of the engine. -/
def sizeOf (state : State) (config : Job.Config) : Except Error UInt64 :=
  match config.options.get? sizeOption with
  | none => .ok state.size
  | some value =>
    match Json.word? value with
    | some size => .ok size
    | none => .error (.start (sizeOption ++ " must be an integer"))

/-- The run of a handle. -/
def State.run? (state : State) (handle : Handle) : Option Run :=
  state.runs.lookup handle

/-- Changes a run. -/
def State.modifyRun (state : State) (handle : Handle) (change : Run → Run) : State :=
  { state with runs := state.runs.map fun entry =>
      if entry.1 = handle then (handle, change entry.2) else entry }

/-- Forgets a run. -/
def State.forget (state : State) (handle : Handle) : State :=
  { state with runs := state.runs.filter fun entry => entry.1 != handle }

/-- How many runs have neither ended nor been cancelled (`active_runs`). -/
def State.activeRuns (state : State) : Nat :=
  state.runs.length

/-- Starts a run under the next handle (`start`). Handles come round after `2 ^ 64` runs; one that
does stands for its new run alone. -/
def start (config : Job.Config) (state : State) : Except Error Handle × State :=
  match sizeOf state config with
  | .error e => (.error e, state)
  | .ok total =>
    let fails := state.failing.any fun path => Files.samePath path config.targetPath
    let handle : Handle := ⟨state.next⟩
    (.ok handle, { state with
      next := state.next + 1
      runs := (state.forget handle).runs ++ [(handle, { total := total, fails := fails })] })

/-- The bytes of a run after some of all steps, rounded down. -/
def bytesAt (total : UInt64) (step steps : Nat) : UInt64 :=
  .ofNat (total.toNat * step / steps)

/-- A run after one more poll. -/
def Run.advanced (run : Run) (steps : Nat) : Run :=
  if !run.suspended && run.step < steps then { run with step := run.step + 1 } else run

/-- How a run ends. -/
def Run.outcome (run : Run) (steps : Nat) : Outcome :=
  if run.fails then
    .failed ("simulated failure after " ++
      toString (bytesAt run.total run.step steps).toNat ++ " bytes")
  else .completed run.total

/-- Lets a run do its next step, unless it is suspended, and tells how far it is (`poll`). A run
that has done all its steps ends, and is forgotten. -/
def poll (handle : Handle) (state : State) : Polled × State :=
  match state.run? handle with
  | none => (.refused (.unknownHandle handle), state)
  | some run =>
    let run := run.advanced state.steps
    if run.step < state.steps then
      (.running ⟨bytesAt run.total run.step state.steps, some run.total⟩,
        state.modifyRun handle fun _ => run)
    else (.finished (run.outcome state.steps), state.forget handle)

/-- Forgets a run, if there is one (`cancel`). -/
def cancel (handle : Handle) (state : State) : Except Error Unit × State :=
  (.ok (), state.forget handle)

/-- Suspends or resumes a run (`suspend`, `resume`). -/
def setSuspended (suspended : Bool) (handle : Handle) (state : State) :
    Except Error Unit × State :=
  match state.run? handle with
  | none => (.error (.unknownHandle handle), state)
  | some _ => (.ok (), state.modifyRun handle fun run => { run with suspended := suspended })

/-- The stub engine. -/
def engine : Engine State where
  name := "stub"
  start := start
  poll := poll
  cancel := cancel
  suspend := setSuspended true
  resume := setSuspended false

theorem bytesAt_le (total : UInt64) (step steps : Nat) (h : step ≤ steps) :
    (bytesAt total step steps).toNat ≤ total.toNat := by
  have h1 : total.toNat * step / steps ≤ total.toNat := by
    rcases Nat.eq_zero_or_pos steps with h0 | h0
    · simp [h0]
    · exact Nat.div_le_of_le_mul (by rw [Nat.mul_comm]; exact Nat.mul_le_mul_right _ h)
  have h2 := total.toNat_lt
  simp only [bytesAt, UInt64.toNat_ofNat']
  rw [Nat.mod_eq_of_lt (by omega)]
  exact h1

end JobSwarm.Engine.Stub
