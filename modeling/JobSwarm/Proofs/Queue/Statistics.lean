import JobSwarm.Proofs.Queue.Intake
import JobSwarm.Proofs.Queue.Log

/-!
# Statistics are exact

The statistics of a queue count its records afresh, but the mean duration of the completed jobs
comes from two counters that are kept as jobs complete. Both agree with the records, the records
with the jobs that were taken in, and the counts with the waiting entries and the active jobs.

Results:

* `number_add_up`: the numbers of the jobs in different statuses add up.
* `Sound.number_queued`, `Sound.number_active`: what waits and what is active, counted.
* `Move.tallied`: the counters of the completed jobs keep up with the records.
* `Run.measured`: a completed job has a duration.
* `Intake.statistics_exact`: the statistics and the listings after each message.
-/

namespace JobSwarm.Queue

open Time (Clock)

variable {σ : Type} {engine : Engine σ} {clock : Clock} {scope : Scope} {s t : Scene σ}
  {queue : Queue} {job old : Job} {status : Job.Status}

/-! ## Counts -/

theorem length_filter_or {α : Type} {p q : α → Bool} (apart : ∀ a, p a = true → q a = false)
    (items : List α) :
    (items.filter fun a => p a || q a).length =
      (items.filter p).length + (items.filter q).length := by
  induction items with
  | nil => rfl
  | cons a rest ih =>
    cases hp : p a with
    | true =>
      simp only [List.filter_cons, hp, apart a hp, Bool.or_false, ite_true, Bool.false_eq_true,
        ite_false, List.length_cons, ih]
      omega
    | false => cases hq : q a <;> simp [hp, hq, ih, Nat.add_assoc]

/-- The jobs in some statuses, counted status by status. -/
theorem number_add_up (queue : Queue) {statuses : List Job.Status} (once : statuses.Nodup) :
    (statuses.map queue.number).sum =
      (queue.jobs.filter fun job => decide (job.status ∈ statuses)).length := by
  induction statuses with
  | nil => simp
  | cons status rest ih =>
    obtain ⟨new, once⟩ := List.nodup_cons.1 once
    have splits := length_filter_or (p := fun job : Job => decide (job.status = status))
      (q := fun job => decide (job.status ∈ rest))
      (fun job own => by simpa [of_decide_eq_true own] using new) queue.jobs
    rw [List.map_cons, List.sum_cons, ih once, number, ← splits]
    refine congrArg List.length (List.filter_congr fun job _ => ?_)
    simp only [List.mem_cons, Bool.decide_or]

/-- Each job stands in one of six statuses. -/
theorem number_total (queue : Queue) :
    queue.number .queued + queue.number .running + queue.number .paused +
      queue.number .completed + queue.number .failed + queue.number .cancelled =
      queue.jobs.length := by
  have six : ([.queued, .running, .paused, .completed, .failed, .cancelled] :
      List Job.Status).Nodup := by decide
  have sum := queue.number_add_up six
  rw [List.filter_eq_self.2 fun job _ => by cases job.status <;> decide] at sum
  simp only [List.map_cons, List.map_nil, List.sum_cons, List.sum_nil] at sum
  omega

namespace Sound

/-- No count is too large for a word. -/
theorem count_toNat (sound : queue.Sound) (status : Job.Status) :
    (queue.count status).toNat = queue.number status := by
  have most : queue.number status ≤ queue.jobs.length := List.length_filter_le ..
  have bound := queue.sequence.toNat_lt
  rw [sound.counted] at bound
  exact UInt64.toNat_ofNat_of_lt' (most.trans_lt bound)

theorem nodup_ids (sound : queue.Sound) (p : Job → Bool) :
    ((queue.jobs.filter p).map (·.id)).Nodup :=
  sound.jobs_unique.sublist (List.filter_sublist.map _)

/-- One entry waits for each queued job. -/
theorem number_queued (sound : queue.Sound) : queue.number .queued = queue.pending.length := by
  have same : ((queue.jobs.filter fun job => decide (job.status = .queued)).map (·.id)).Perm
      (queue.pending.map (·.id)) := by
    refine (List.perm_ext_iff_of_nodup (sound.nodup_ids _) sound.pending_unique).2 fun id => ?_
    simp only [List.mem_map, List.mem_filter, decide_eq_true_eq, sound.toConsistent.pending_iff]
    constructor
    · rintro ⟨job, ⟨hmem, status⟩, rfl⟩
      exact ⟨_, ⟨job, hmem, status, rfl⟩, rfl⟩
    · rintro ⟨_, ⟨job, hmem, status, rfl⟩, rfl⟩
      exact ⟨job, ⟨hmem, status⟩, rfl⟩
  simpa [number] using same.length_eq

/-- The running and the paused jobs are the active ones. -/
theorem number_active (sound : queue.Sound) :
    queue.number .running + queue.number .paused = queue.active.length := by
  have two : ([.running, .paused] : List Job.Status).Nodup := by decide
  have sum := queue.number_add_up two
  have same : ((queue.jobs.filter fun job => decide (job.status ∈ [.running, .paused])).map
      (·.id)).Perm (queue.active.map (·.jobId)) := by
    refine (List.perm_ext_iff_of_nodup (sound.nodup_ids _) sound.active_unique).2 fun id => ?_
    rw [sound.toConsistent.active_iff]
    simp [and_assoc, and_comm]
  have lengths := same.length_eq
  rw [List.length_map, List.length_map, ← sum] at lengths
  simpa using lengths

end Sound

/-! ## Completed jobs -/

/-- What the completed jobs weigh together. -/
def completed (queue : Queue) (weight : Job → Nat) : Nat :=
  ((queue.jobs.filter fun job => decide (job.status = .completed)).map weight).sum

theorem completed_one (queue : Queue) :
    (queue.completed fun _ => 1) = queue.number .completed := by
  rw [completed, number, List.map_const', List.sum_replicate_nat, Nat.mul_one]

theorem completed_eq (queue : Queue) (weight : Job → Nat) :
    queue.completed weight =
      (queue.jobs.map fun job => if job.status = .completed then weight job else 0).sum := by
  rw [completed]
  induction queue.jobs with
  | nil => rfl
  | cons job jobs ih =>
    by_cases ended : job.status = .completed <;> simp [ended, ih]

theorem completed_add {weight : Job → Nat} (open_ : job.status ≠ .completed) :
    (queue.add job).completed weight = queue.completed weight := by
  rw [completed_eq, completed_eq, add, List.map_append, List.sum_append, List.map_singleton,
    List.sum_singleton, if_neg open_, Nat.add_zero]

theorem completed_putJob {weight : Job → Nat} (sound : queue.Sound)
    (found : queue.job? job.id = some old) (open_ : old.status ≠ .completed) :
    (queue.putJob job).completed weight =
      queue.completed weight + if job.status = .completed then weight job else 0 := by
  have moved := Keyed.sum_modify (fun job => if job.status = .completed then weight job else 0)
    (fun _ => job) sound.jobs_unique found
  rw [if_neg open_] at moved
  rw [completed_eq, completed_eq]
  exact moved

/-- A job that has not completed weighs nothing. -/
theorem completed_still {weight : Job → Nat} (sound : queue.Sound)
    (found : queue.job? job.id = some old) (open_ : old.status ≠ .completed)
    (still : job.status ≠ .completed) :
    (queue.putJob job).completed weight = queue.completed weight := by
  rw [completed_putJob sound found open_, if_neg still, Nat.add_zero]

/-- How long a completed job took. -/
def duration (job : Job) : Nat :=
  (job.durationMs.getD 0).toNat

/-- The two counters go with the records. -/
structure Tallied (queue : Queue) : Prop where
  total : queue.completedMs.toNat = queue.completed duration
  count : queue.completedCount.toNat = queue.completed fun _ => 1

theorem Tallied.of_eq {before after : Queue} (tallied : before.Tallied)
    (total : after.completedMs = before.completedMs)
    (count : after.completedCount = before.completedCount)
    (same : ∀ weight, after.completed weight = before.completed weight) : after.Tallied where
  total := by rw [total, tallied.total, same]
  count := by rw [count, tallied.count, same]

/-- The counters keep up with the records. -/
theorem Move.tallied (move : Move engine clock scope s t) (sound : s.queue.Sound)
    (tallied : s.queue.Tallied) : t.queue.Tallied := by
  -- All moves but one leave the counters alone, and change no record from or to a completed one.
  have still (next : Job) {old : Job} {after : Queue} (found : s.queue.job? next.id = some old)
      (was : old.status ≠ .completed) (remains : next.status ≠ .completed)
      (total : after.completedMs = s.queue.completedMs)
      (count : after.completedCount = s.queue.completedCount)
      (jobs : after.jobs = (s.queue.putJob next).jobs) : after.Tallied := by
    refine tallied.of_eq total count fun weight => ?_
    rw [completed, jobs]
    exact completed_still sound found was remains
  have open_ {job : Job} {status : Job.Status} (h : job.status = status)
      (going : status.isTerminal = false) : job.status ≠ .completed := by
    rintro ended
    rw [← h, ended] at going
    cases going
  cases move with
  | submit job new =>
    have queued : job.status = .queued := by rw [new]; rfl
    exact tallied.of_eq rfl rfl fun _ => completed_add (open_ queued rfl)
  | recover | want | hold | keepOn | keepStill => exact tallied.of_eq rfl rfl fun _ => rfl
  | @start job agent _ _ _ _ _ found status =>
    exact still (job.started agent clock.wall) found (open_ status rfl) nofun rfl rfl rfl
  | @refuse job agent _ _ refusal _ _ _ _ found status =>
    exact still ((job.started agent clock.wall).failed refusal.message clock.wall) found
      (open_ status rfl) nofun rfl rfl rfl
  | @advance job _ snapshot found _ status | @announce job _ snapshot found _ status =>
    exact still (advanced job snapshot clock.wall) found (open_ status rfl) (open_ status rfl)
      rfl rfl rfl
  | @complete job done active bytes total count _ _ found _ status ended sum next =>
    have more (weight : Job → Nat) : (s.queue.putJob done).completed weight =
        s.queue.completed weight + weight done := by
      subst ended
      exact completed_putJob sound found (open_ status rfl)
    refine ⟨?_, ?_⟩
    · rw [(addWord_eq_ok_iff ..).1 sum, tallied.total]
      exact (more duration).symm
    · rw [(addWord_eq_ok_iff ..).1 next, tallied.count]
      exact (more fun _ => 1).symm
  | @fail job _ _ reason _ _ _ found _ status ended =>
    subst ended
    exact still (job.failed reason clock.wall) found (open_ status rfl) nofun rfl rfl rfl
  | @withdraw job found status =>
    exact still (job.moved .cancelled clock.wall) found (open_ status rfl) nofun rfl rfl rfl
  | @abandon job _ _ _ found _ status =>
    have was : job.status ≠ .completed := status.elim (open_ · rfl) (open_ · rfl)
    exact still (job.moved .cancelled clock.wall) found was nofun rfl rfl rfl
  | @pause job _ _ found _ status =>
    exact still (job.moved .paused clock.wall) found (open_ status rfl) nofun rfl rfl rfl
  | @resume job _ _ found _ status =>
    exact still (job.moved .running clock.wall) found (open_ status rfl) nofun rfl rfl rfl

theorem Run.tallied (run : Run engine s t) (sound : s.queue.Sound)
    (tallied : s.queue.Tallied) : t.queue.Tallied :=
  run.keeps_moves sound Move.tallied (fun _ _ tallied => tallied) tallied

/-! ## Durations -/

section Durations

variable {clock : Clock} {grounds : Slice.Grounds} {a b : Slice} {news : List Event.Notice}

/-- A job that completes has started before, so it has a duration. -/
theorem Slice.Turn.measured (turn : Slice.Turn clock grounds a news b)
    (started : ∀ job, a.job = some job → job.status = .running → job.startedAt.isSome)
    (measured : ∀ job, a.job = some job → job.status = .completed → job.durationMs.isSome)
    (job : Job) (found : b.job = some job) (ended : job.status = .completed) :
    job.durationMs.isSome := by
  cases turn with
  | still | hold => exact measured job found ended
  | complete status done =>
    cases found
    subst done
    obtain ⟨since, hsince⟩ := Option.isSome_iff_exists.1 (started _ rfl status)
    simp [Job.durationMs, Job.completed, Job.moved, hsince, Job.Status.isTerminal]
  | submit new =>
    cases found
    rw [new] at ended
    cases ended
  | advance _ status | announce _ status =>
    cases found
    rw [advanced_status, status] at ended
    cases ended
  | start | refuse | fail | withdraw | abandon | pause | resume =>
    cases found
    cases ended

/-- A completed job has a duration. -/
theorem Run.measured {config : Config} {swarm : Swarm} {state : σ}
    (run : Run engine (.initial config swarm state) s) {id : Job.Id} {job : Job}
    (found : s.queue.job? id = some job) (ended : job.status = .completed) :
    job.durationMs.isSome := by
  have kept := run.keeps (fun slice log => Log.Recorded slice.job log ∧
      ∀ job, slice.job = some job → job.status = .completed → job.durationMs.isSome) id
    (sound_initial config) (fun turn before => ?_)
    ⟨.unknown, fun _ (unknown : none = some _) => by cases unknown⟩
  · exact kept.2 job found ended
  obtain ⟨recorded, measured⟩ := before
  -- That a running job has started is known from its log.
  refine ⟨turn.recorded recorded, turn.measured (fun job found status => ?_) measured⟩
  rw [found] at recorded
  cases recorded with
  | known _ _ started => exact started (.inl status)

end Durations

/-! ## Statistics and listings -/

/-- What the statistics say of a status. -/
def Stats.inStatus (stats : Stats) : Job.Status → UInt64
  | .queued => stats.queued
  | .running => stats.running
  | .paused => stats.paused
  | .completed => stats.completed
  | .failed => stats.failed
  | .cancelled => stats.cancelled

/-- The statistics and the listings of a queue that has taken in certain jobs. -/
structure Exact (ids : List Job.Id) (queue : Queue) : Prop where
  /-- All jobs are listed, in the order of submission, and numbered. -/
  listed : (queue.list none).map (·.id) = ids
  once : ids.Nodup
  numbered : (queue.list none).map (·.sequence.toNat) = List.range' 1 ids.length
  /-- The jobs in one status are listed in the same order. -/
  selected : ∀ status, queue.list (some status) =
    (queue.list none).filter fun job => decide (job.status = status)
  counted : ∀ status, (queue.stats.inStatus status).toNat = (queue.list (some status)).length
  total : queue.stats.queued.toNat + queue.stats.running.toNat + queue.stats.paused.toNat +
    queue.stats.completed.toNat + queue.stats.failed.toNat + queue.stats.cancelled.toNat =
    ids.length
  waiting : queue.stats.queued.toNat = queue.pending.length
  active : queue.stats.running.toNat + queue.stats.paused.toNat = queue.active.length
  /-- Only where no job has completed there is no mean duration. -/
  mean_eq_none : queue.stats.avgDurationMs = none ↔
    ∀ job ∈ queue.list none, job.status ≠ .completed
  /-- The mean duration is the sum of the durations, divided by how many they are. -/
  mean_eq_some : ∀ mean, queue.stats.avgDurationMs = some mean →
    ∃ (durations : List UInt64) (sum number : UInt64),
      (queue.list (some .completed)).map (·.durationMs) = durations.map some ∧
      sum.toNat = (durations.map (·.toNat)).sum ∧ number.toNat = durations.length ∧
      mean = sum.toFloat / number.toFloat

section Statistics

variable {config : Config} {swarm : Swarm} {state : σ} {ids : List Job.Id}

theorem tallied_initial (config : Config) : Tallied { config := config } :=
  ⟨rfl, rfl⟩

/-- There is a mean duration if and only if there are completed jobs. -/
theorem Tallied.count_eq_zero (tallied : queue.Tallied) :
    queue.completedCount = 0 ↔ ∀ job ∈ queue.jobs, job.status ≠ .completed := by
  rw [← UInt64.toNat_inj, tallied.count, completed_one, number]
  simp

/-- After each message the statistics and the listings are exact. -/
theorem Intake.statistics_exact (intake : Intake engine (.initial config swarm state) ids s) :
    s.queue.Exact ids := by
  have run := intake.run
  have sound := (run.sound (sound_initial config)).1
  have tallied := run.tallied (sound_initial config) (tallied_initial config)
  have records : s.queue.jobs.map (·.id) = ids := intake.records
  have length : s.queue.jobs.length = ids.length := by rw [← records, List.length_map]
  refine {
    listed := by rw [sound.list_none, records]
    once := records ▸ sound.jobs_unique
    numbered := by rw [sound.list_none, sound.numbered, length]
    selected := fun status => by rw [sound.list_none, sound.list_some]
    counted := fun status => by
      rw [sound.list_some]
      cases status <;> exact sound.count_toNat _
    total := ?_
    waiting := (sound.count_toNat _).trans sound.number_queued
    active := ?_
    mean_eq_none := ?_
    mean_eq_some := fun mean h => ?_ }
  · simp only [stats, sound.count_toNat]
    rw [s.queue.number_total, length]
  · simp only [stats, sound.count_toNat]
    exact sound.number_active
  · rw [sound.list_none, ← tallied.count_eq_zero, stats]
    split
    · next zero => simp [zero]
    · next some => simp [some]
  · simp only [stats] at h
    split at h
    · cases h
    cases h
    rw [sound.list_some]
    refine ⟨(s.queue.jobs.filter fun job => decide (job.status = .completed)).map
        (·.durationMs.getD 0), s.queue.completedMs, s.queue.completedCount, ?_, ?_, ?_, rfl⟩
    · rw [List.map_map]
      refine List.map_congr_left fun job listed => ?_
      rw [List.mem_filter] at listed
      obtain ⟨duration, measured⟩ := Option.isSome_iff_exists.1
        (run.measured (sound.job?_of_mem listed.1) (of_decide_eq_true listed.2))
      rw [Function.comp_apply, measured, Option.getD_some]
    · rw [tallied.total, List.map_map]
      rfl
    · rw [tallied.count, completed_one, List.length_map, number]

/-- A first job completes while it is paused, and then a second one starts. A third one is not taken
in, a fourth one waits. -/
theorem Intake.statistics_exact_of_held :
    ∃ s, Intake Engine.Stub.engine (.initial {} loneSwarm Engine.Stub.standard)
        [⟨1⟩, ⟨2⟩, ⟨4⟩] s ∧
      s.queue.jobs.map (·.status) = [.completed, .running, .queued] ∧
      s.queue.Exact [⟨1⟩, ⟨2⟩, ⟨4⟩] := by
  have played : (play Engine.Stub.engine
      [.told (.epoch 0) (.submit ⟨1⟩ { targetPath := "notes" } .normal),
        .told (.epoch 1) (.submit ⟨2⟩ { targetPath := "drafts" } .normal),
        .told (.epoch 2) (.pause ⟨1⟩),
        .told (.epoch 3) (.finished ⟨1⟩ (.completed 8)),
        .told (.epoch 4) (.submit ⟨3⟩ { targetPath := "" } .normal),
        .told (.epoch 5) (.resume ⟨1⟩),
        .told (.epoch 6) (.submit ⟨4⟩ { targetPath := "letters" } .normal)]
      (.initial {} loneSwarm Engine.Stub.standard)).any (fun s =>
        s.queue.jobs.map (·.id) = [⟨1⟩, ⟨2⟩, ⟨4⟩] ∧
        s.queue.jobs.map (·.status) = [.completed, .running, .queued]) = true := by
    decide +kernel
  obtain ⟨s, hs, facts⟩ := (Option.any_eq_true _ _).1 played
  obtain ⟨records, statuses⟩ := of_decide_eq_true facts
  obtain ⟨ids, intake⟩ := (run_of_play hs).intake
  obtain rfl : ids = [⟨1⟩, ⟨2⟩, ⟨4⟩] := Eq.trans (Eq.symm intake.records) records
  exact ⟨s, intake, statuses, intake.statistics_exact⟩

end Statistics

end JobSwarm.Queue
