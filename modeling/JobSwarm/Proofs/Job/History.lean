import JobSwarm.Job.Basic
import JobSwarm.Proofs.Time.Instant
import Mathlib.Data.List.Chain
import Mathlib.Data.List.Induction

/-!
# The history of a job

A job is asked to move, again and again, to any status and at any time of day. What its record tells
can be read off the calls that were accepted: they are a path through the life cycle, the first that
made the job run and the one that ended it are stamped, and all other calls leave no trace.

Results:

* `Status.canBecome_iff_edge`: the life cycle has eight edges.
* `after_induction`: calls that are refused leave no trace.
* `Stamped.moved`: what one accepted call changes in the record.
* `toNat_durationMs`: a duration is never too long for its word.
* `submitted_after`: the record of a new job after any calls.
-/

namespace JobSwarm

open Time (Instant)

/-! ## Spans of time -/

namespace Time.Instant

variable {a b : Instant}

/-- Between instants that are not in a leap second no leap second counts. -/
theorem since_of_plain (ha : a.Plain) (hb : b.Plain) : a.since b = a.toNanos - b.toNanos := by
  rw [since, if_neg fun leap => Nat.not_le_of_lt hb leap.2,
    if_neg fun leap => Nat.not_le_of_lt ha leap.2]

/-- Of a span that runs backwards no millisecond is counted, not even a broken one. -/
theorem toNat_wholeMillis (n : Int) : (wholeMillis n).toNat = (n / 1000000).toNat := by
  rw [wholeMillis]
  rcases Int.le_total 0 n with forwards | backwards
  · rw [Int.tdiv_eq_ediv_of_nonneg forwards]
  · have forwards : 0 ≤ (-n).tdiv 1000000 := Int.tdiv_nonneg (by omega) (by decide)
    rw [Int.neg_tdiv] at forwards
    rw [Int.toNat_of_nonpos (by omega), Int.toNat_of_nonpos (by omega)]

/-- At most one leap second comes on top of what lies between two instants. -/
theorem since_le (a b : Instant) : a.since b ≤ a.toNanos - b.toNanos + perSecond := by
  simp only [since, perSecond]
  split_ifs <;> omega

/-- All the milliseconds between two instants fit a word. -/
theorem millis_since_lt (a b : Instant) : (a.since b / 1000000).toNat < UInt64.size := by
  have first : firstSecond = -8334601228800 := by decide
  have last : lastSecond = 8210266876799 := by decide
  have span := since_le a b
  have late := a.seconds_le
  have short := a.nanos_lt
  have early := b.seconds_ge
  simp only [toNanos, perSecond, UInt64.size] at span short ⊢
  omega

end Time.Instant

namespace Job

/-! ## The life cycle -/

/-- The edges of the life cycle. -/
inductive Status.Edge : Status → Status → Prop
  | start : Edge .queued .running
  | withdraw : Edge .queued .cancelled
  | complete : Edge .running .completed
  | fail : Edge .running .failed
  | cancel : Edge .running .cancelled
  | pause : Edge .running .paused
  | resume : Edge .paused .running
  | abandon : Edge .paused .cancelled

theorem Status.canBecome_iff_edge {a b : Status} : a.canBecome b = true ↔ Edge a b := by
  constructor
  · intro allowed
    cases a <;> cases b <;> first | constructor | cases allowed
  · rintro (_ | _) <;> rfl

/-- No edge leads on from an end. -/
theorem Status.Edge.not_isTerminal {a b : Status} (edge : Edge a b) : a.isTerminal = false := by
  cases edge <;> rfl

/-! ## Calls -/

/-- A call that asks for a job to be moved. -/
structure Call where
  target : Status
  now : Instant

/-- What a call is answered, and the record after it. -/
def answered (job : Job) (call : Call) : Except BadTransition Unit × Job :=
  match job.transition call.target call.now with
  | .ok moved => (.ok (), moved)
  | .error fault => (.error fault, job)

/-- The record after calls. -/
def after (job : Job) (calls : List Call) : Job :=
  calls.foldl (fun job call => (job.answered call).2) job

/-- Those of the calls that are accepted. -/
def accepted (job : Job) : List Call → List Call
  | [] => []
  | call :: rest =>
    match job.answered call with
    | (.ok (), moved) => call :: moved.accepted rest
    | (.error _, same) => same.accepted rest

variable {job new : Job} {calls more path : List Call} {call : Call}

theorem answered_of_edge (edge : job.status.Edge call.target) :
    job.answered call = (.ok (), job.moved call.target call.now) := by
  rw [answered, transition, if_pos (Status.canBecome_iff_edge.2 edge)]

theorem answered_of_not_edge (off : ¬job.status.Edge call.target) :
    job.answered call = (.error ⟨job.status, call.target⟩, job) := by
  rw [answered, transition, if_neg (mt Status.canBecome_iff_edge.1 off)]

theorem after_cons : job.after (call :: calls) = (job.answered call).2.after calls :=
  rfl

theorem after_append : job.after (calls ++ more) = (job.after calls).after more :=
  List.foldl_append

theorem accepted_append :
    job.accepted (calls ++ more) = job.accepted calls ++ (job.after calls).accepted more := by
  induction calls generalizing job with
  | nil => rfl
  | cons call rest ih =>
    by_cases edge : job.status.Edge call.target
    · rw [List.cons_append, accepted, accepted, after_cons, answered_of_edge edge]
      exact congrArg _ ih
    · rw [List.cons_append, accepted, accepted, after_cons, answered_of_not_edge edge]
      exact ih

/-- What holds of a new job, and is kept by the calls that are accepted, holds after any calls. -/
theorem after_induction {motive : List Call → Job → Prop} (begins : motive [] new)
    (moves : ∀ path job call, motive path job → job.status.Edge call.target →
      motive (path ++ [call]) (job.moved call.target call.now)) (calls : List Call) :
    motive (new.accepted calls) (new.after calls) := by
  induction calls using List.reverseRecOn with
  | nil => exact begins
  | append_singleton calls call ih =>
    rw [accepted_append, after_append, after_cons, accepted]
    by_cases edge : (new.after calls).status.Edge call.target
    · rw [answered_of_edge edge]
      exact moves _ _ _ ih edge
    · rw [answered_of_not_edge edge]
      show motive (new.accepted calls ++ []) (new.after calls)
      rw [List.append_nil]
      exact ih

/-- Nothing moves a job that has ended. -/
theorem after_of_isTerminal (ended : job.status.isTerminal = true) (calls : List Call) :
    job.after calls = job := by
  induction calls with
  | nil => rfl
  | cons call rest ih =>
    have off : ¬job.status.Edge call.target := fun edge => by
      rw [edge.not_isTerminal] at ended
      cases ended
    rw [after_cons, answered_of_not_edge off, ih]

/-! ## Stamps -/

/-- What the record of a job tells when the calls in `path` were accepted, one after the other. -/
structure Stamped (new : Job) (path : List Call) (job : Job) : Prop where
  /-- The calls lead from the queue to the status. -/
  edges : List.IsChain Status.Edge (.queued :: path.map Call.target)
  status : (.queued :: path.map Call.target).getLast? = some job.status
  /-- The start is the time of the first call that made the job run. -/
  started : job.startedAt = (path.find? fun call => call.target = .running).map Call.now
  /-- The end is the time of the last call, if that ended the job. -/
  finished : job.finishedAt =
    if job.status.isTerminal then path.getLast?.map Call.now else none
  updated : job.updatedAt = (path.getLast?.map Call.now).getD new.createdAt
  /-- What is no stamp and no status stays. -/
  kept : job = { new with
    status := job.status
    startedAt := job.startedAt
    finishedAt := job.finishedAt
    updatedAt := job.updatedAt }

namespace Stamped

theorem submitted (id : Id) (config : Config) (priority : Priority) (sequence : UInt64)
    (now : Instant) : Stamped (.submitted id config priority sequence now) []
      (.submitted id config priority sequence now) where
  edges := .singleton _
  status := rfl
  started := rfl
  finished := rfl
  updated := rfl
  kept := rfl

/-- A call that is accepted is the last of its path. -/
theorem moved (stamped : Stamped new path job) (edge : job.status.Edge call.target) :
    Stamped new (path ++ [call]) (job.moved call.target call.now) where
  edges := by
    rw [List.map_append, ← List.cons_append, List.isChain_append, stamped.status]
    refine ⟨stamped.edges, .singleton _, ?_⟩
    rintro _ ⟨⟩ _ ⟨⟩
    exact edge
  status := by
    rw [List.map_append, ← List.cons_append]
    exact List.getLast?_concat
  started := by
    rw [List.find?_append, Option.map_or, ← stamped.started]
    by_cases runs : call.target = .running
    · simp [Job.moved, runs]
    · simp [Job.moved, runs]
  finished := by
    have unfinished : job.finishedAt = none := by
      rw [stamped.finished, edge.not_isTerminal]
      rfl
    rw [List.getLast?_concat]
    simp [Job.moved, unfinished]
  updated := by
    rw [List.getLast?_concat]
    rfl
  kept := by
    rw [stamped.kept]
    rfl

/-- A path leads no further than an end. -/
theorem ends (stamped : Stamped new path job) {front back : List Call}
    (split : path = front ++ call :: back) (ended : call.target.isTerminal = true) :
    back = [] := by
  cases back with
  | nil => rfl
  | cons next rest =>
    have edges := stamped.edges
    rw [split, List.map_append, ← List.cons_append, List.isChain_append] at edges
    have edge : call.target.Edge next.target := (List.isChain_cons_cons.1 edges.2.1).1
    rw [edge.not_isTerminal] at ended
    cases ended

theorem isSome_startedAt (stamped : Stamped new path job) :
    job.startedAt.isSome = true ↔ ∃ call ∈ path, call.target = .running := by
  rw [stamped.started, Option.isSome_map, List.find?_isSome]
  simp only [decide_eq_true_eq]

theorem isSome_finishedAt (stamped : Stamped new path job) :
    job.finishedAt.isSome = job.status.isTerminal := by
  have status := stamped.status
  rw [stamped.finished]
  cases last : path.getLast? with
  | none =>
    -- a job that was never moved is queued
    rw [List.getLast?_eq_none_iff.1 last] at status
    rw [← Option.some.inj status]
    rfl
  | some call => cases job.status.isTerminal <;> rfl

theorem isSome_durationMs (stamped : Stamped new path job) :
    job.durationMs.isSome = true ↔
      (∃ call ∈ path, call.target = .running) ∧ job.status.isTerminal = true := by
  rw [← stamped.isSome_startedAt, ← stamped.isSome_finishedAt, durationMs]
  cases job.startedAt <;> cases job.finishedAt <;> simp

end Stamped

/-- A duration is what lies between the stamps, in whole milliseconds. -/
theorem toNat_durationMs {started finished : Instant} (start : job.startedAt = some started)
    (finish : job.finishedAt = some finished) : ∃ duration, job.durationMs = some duration ∧
      duration.toNat = (finished.since started / 1000000).toNat := by
  refine ⟨_, by rw [durationMs, start, finish]; rfl, ?_⟩
  rw [Instant.toNat_wholeMillis]
  exact UInt64.toNat_ofNat_of_lt (Instant.millis_since_lt finished started)

/-! ## New jobs -/

/-- What the record of a job tells of its life, when the calls in `path` were accepted. -/
structure Lifecycle (new : Job) (path : List Call) (job : Job) : Prop
    extends Stamped new path job where
  /-- A call is accepted if it follows an edge; -/
  accepts : ∀ call, job.status.Edge call.target → (job.answered call).1 = .ok ()
  /-- otherwise it is refused with the status and the target, and changes nothing. -/
  refuses : ∀ call, ¬job.status.Edge call.target →
    job.answered call = (.error ⟨job.status, call.target⟩, job)
  ends : ∀ front call back, path = front ++ call :: back → call.target.isTerminal = true → back = []
  isSome_startedAt : job.startedAt.isSome = true ↔ ∃ call ∈ path, call.target = .running
  isSome_finishedAt : job.finishedAt.isSome = job.status.isTerminal
  isSome_durationMs : job.durationMs.isSome = true ↔
    (∃ call ∈ path, call.target = .running) ∧ job.status.isTerminal = true
  /-- The duration is the time from start to end in whole milliseconds, none if that is negative. -/
  duration : ∀ start finish, job.startedAt = some start → job.finishedAt = some finish →
    ∃ duration, job.durationMs = some duration ∧
      duration.toNat = (finish.since start / 1000000).toNat ∧
      (start.Plain → finish.Plain →
        duration.toNat = ((finish.toNanos - start.toNanos) / 1000000).toNat)

theorem Stamped.tells (stamped : Stamped new path job) : Lifecycle new path job where
  toStamped := stamped
  accepts call edge := by rw [answered_of_edge edge]
  refuses call := answered_of_not_edge
  ends front call back := stamped.ends
  isSome_startedAt := stamped.isSome_startedAt
  isSome_finishedAt := stamped.isSome_finishedAt
  isSome_durationMs := stamped.isSome_durationMs
  duration start finish hstart hfinish := by
    obtain ⟨duration, known, exact⟩ := toNat_durationMs hstart hfinish
    refine ⟨duration, known, exact, fun plain plain' => ?_⟩
    rw [exact, Instant.since_of_plain plain' plain]

/-- The record of a new job after any calls at any times tells its life cycle. Once a job has been
started it stays so, whatever calls follow, and once it has ended nothing changes any more. -/
theorem submitted_after (id : Id) (config : Config) (priority : Priority) (sequence : UInt64)
    (created : Instant) (calls : List Call) :
    let new := submitted id config priority sequence created
    let job := new.after calls
    Lifecycle new (new.accepted calls) job ∧
      ∀ more, (∀ start, job.startedAt = some start → (job.after more).startedAt = some start) ∧
        (job.status.isTerminal = true → job.after more = job) := by
  intro new job
  have stamped (calls : List Call) : Stamped new (new.accepted calls) (new.after calls) :=
    after_induction (.submitted id config priority sequence created)
      (fun _ _ _ stamped edge => stamped.moved edge) calls
  refine ⟨(stamped calls).tells, fun more => ⟨fun start h => ?_, fun ended => ?_⟩⟩
  · have later := (stamped (calls ++ more)).started
    rw [after_append, accepted_append, List.find?_append, Option.map_or,
      ← (stamped calls).started, h] at later
    exact later
  · exact after_of_isTerminal ended more

/-- A job that the clock saw end before it began took no time. -/
example :
    let new := submitted ⟨0⟩ { targetPath := "a" } .normal 1 .epoch
    let calls : List Call := [⟨.paused, .epoch⟩, ⟨.running, .last⟩, ⟨.completed, .first⟩]
    (new.after calls).durationMs = some 0 := by
  decide

end Job

end JobSwarm
