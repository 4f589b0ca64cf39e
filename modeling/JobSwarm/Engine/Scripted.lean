import JobSwarm.Engine.Basic

/-!
# The scripted engine

This engine does what the options of each job tell it. `start_error`, `suspend_error`,
`resume_error` and `cancel_error` make those calls fail with a text; `polls` lists the results of
successive polls, of which the last repeats. A run is never forgotten.
-/

namespace JobSwarm.Engine.Scripted

/-- A run that follows a script. -/
structure Run where
  options : Json.Members
  /-- The results of the polls to come; the last is never used up. -/
  polls : List Json

/-- The runs so far, first to last. -/
structure State where
  runs : List Run := []

/-- What a poll gives when the script does not say. -/
def idlePoll : Json :=
  .object [("running", .list [.whole 0, .null])]

/-- The script of the polls of a job. -/
def pollsOf (options : Json.Members) : List Json :=
  match options.get? "polls" with
  | some (.list (first :: rest)) => first :: rest
  | _ => [idlePoll]

/-- An error text of a script. -/
def errorText? (options : Json.Members) (name : String) : Option String :=
  (options.get? name).bind Json.text?

/-- The result that an entry of the script stands for. -/
def polled (handle : Handle) (entry : Json) : Polled :=
  match entry with
  | .text "panic" => .panicked
  | .object [("running", .list items)] =>
    .running ⟨(items[0]?.bind Json.word?).getD 0, items[1]?.bind Json.word?⟩
  | .object [("done", bytes)] => .finished (.completed ((Json.word? bytes).getD 0))
  | .object [("fail", reason)] => .finished (.failed ((Json.text? reason).getD ""))
  | .object [("backend", reason)] => .refused (.backend ((Json.text? reason).getD ""))
  | _ => .refused (.unknownHandle handle)

/-- The run of a handle; handles count from one. -/
def State.run? (state : State) (handle : Handle) : Option Run :=
  if handle.number = 0 then none else state.runs[handle.number.toNat - 1]?

def start (config : Job.Config) (state : State) : Except Error Handle × State :=
  match errorText? config.options "start_error" with
  | some reason => (.error (.start reason), state)
  | none =>
    (.ok ⟨.ofNat (state.runs.length + 1)⟩,
      ⟨state.runs ++ [⟨config.options, pollsOf config.options⟩]⟩)

/-- Takes the first result off a script, unless it is the last. -/
def Run.advanced (run : Run) : Run :=
  match run.polls with
  | _ :: next :: rest => { run with polls := next :: rest }
  | _ => run

def poll (handle : Handle) (state : State) : Polled × State :=
  match state.run? handle with
  | none => (.refused (.unknownHandle handle), state)
  | some run =>
    (polled handle (run.polls.headD idlePoll),
      ⟨state.runs.modify (handle.number.toNat - 1) Run.advanced⟩)

/-- A call that fails when the script has an error text for it. -/
def scripted (name : String) (handle : Handle) (state : State) : Except Error Unit × State :=
  match state.run? handle with
  | none => (.error (.unknownHandle handle), state)
  | some run =>
    match errorText? run.options name with
    | some reason => (.error (.backend reason), state)
    | none => (.ok (), state)

/-- The scripted engine. -/
def engine : Engine State where
  name := "script"
  start := start
  poll := poll
  cancel := scripted "cancel_error"
  suspend := scripted "suspend_error"
  resume := scripted "resume_error"

end JobSwarm.Engine.Scripted
