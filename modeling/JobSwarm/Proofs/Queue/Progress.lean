import JobSwarm.Proofs.Double.Amount
import JobSwarm.Proofs.Queue.Log
import JobSwarm.Proofs.Swarm.Load

/-!
# Progress never goes back

Whatever an engine tells of a run, late, early or twice, and with whatever total, the percentage and
the bytes of a job do not fall. They change while the job runs and at no other time. A completed job
has all its bytes: as many as the engine says in the end, or as were known before if those are more.

Results:

* `percent_amount`: the percentage of a snapshot stands for a number from 0 to 100.
* `Slice.Turn.reaches`, `Slice.Turn.progress_eq`: what a turn does to progress.
* `Run.progress`: progress all through a run, in the record, in what is announced, and at the end.
-/

namespace JobSwarm

open Double (Amount IsZero Moderate Near Normal amount_hundred amount_zero isZero_toFloat
  normal_hundred toFloat_rounds unit)
open Event (Notice)
open Time (Instant Clock)

/-! ## Percentages -/

namespace Job.Progress

/-- Whether the percentage stands for a number from 0 to 100. -/
def InScale (progress : Progress) : Prop :=
  ∃ x, Amount progress.percent x ∧ x ≤ 100

/-- Whether progress has come as far as other progress. -/
structure Reaches (progress earlier : Progress) : Prop where
  percent : earlier.percent ≤ progress.percent
  bytes : earlier.bytesProcessed ≤ progress.bytesProcessed

variable {p q r : Progress} {bytes : UInt64}

theorem InScale.bounds (h : p.InScale) : 0 ≤ p.percent ∧ p.percent ≤ 100 := by
  obtain ⟨x, amount, most⟩ := h
  exact ⟨(amount_zero.le_iff amount).2 amount.nonneg, (amount.le_iff amount_hundred).2 most⟩

theorem InScale.reaches (h : p.InScale) : p.Reaches p := by
  obtain ⟨x, amount, -⟩ := h
  exact ⟨(amount.le_iff amount).2 le_rfl, UInt64.le_refl _⟩

theorem Reaches.trans (hr : r.Reaches q) (hq : q.Reaches p) (first : p.InScale) (second : q.InScale)
    (third : r.InScale) : r.Reaches p := by
  obtain ⟨x, hx, -⟩ := first
  obtain ⟨y, hy, -⟩ := second
  obtain ⟨z, hz, -⟩ := third
  refine ⟨(hx.le_iff hz).2 ?_, UInt64.le_trans hq.bytes hr.bytes⟩
  exact ((hx.le_iff hy).1 hq.percent).trans ((hy.le_iff hz).1 hr.percent)

theorem inScale_complete : (complete bytes).InScale :=
  ⟨100, amount_hundred, le_rfl⟩

theorem InScale.complete_reaches (h : p.InScale) (le : p.bytesProcessed ≤ bytes) :
    (complete bytes).Reaches p :=
  ⟨h.bounds.2, le⟩

end Job.Progress

/-- The larger count is as large as either. -/
theorem Job.Progress.bytes_le_max (told known : UInt64) : known ≤ max told known := by
  show known ≤ if told ≤ known then known else told
  split
  · exact UInt64.le_refl _
  · next less => exact UInt64.le_of_lt (UInt64.not_le.1 less)

namespace Queue

open Job.Progress (bytes_le_max)

/-- The percentage of a snapshot stands for a number from 0 to 100. -/
theorem percent_amount {snapshot : Engine.Snapshot} {percent : Float}
    (h : snapshot.percent = some percent) : ∃ x, Amount percent x ∧ x ≤ 100 := by
  obtain ⟨total, -, rfl⟩ := Option.map_eq_some_iff.1 h
  split
  · exact ⟨100, amount_hundred, le_rfl⟩
  next more =>
  have some : 0 < total.toNat :=
    Nat.pos_of_ne_zero fun zero => more (UInt64.toNat_inj.1 zero)
  have amount : ∃ x, Amount (snapshot.bytesProcessed.toFloat / total.toFloat * 100) x := by
    rcases Nat.eq_zero_or_pos snapshot.bytesProcessed.toNat with zero | positive
    · obtain ⟨y, normal, -⟩ := toFloat_rounds some
      rw [show snapshot.bytesProcessed = 0 from UInt64.toNat_inj.1 zero]
      exact ⟨0, .inl ⟨(isZero_toFloat.div normal).mul normal_hundred, rfl⟩⟩
    · obtain ⟨x, normal, near⟩ := Swarm.Health.share_near positive some
      obtain ⟨low, high⟩ := Swarm.Health.fraction_bounds positive some
      rw [Swarm.Health.share_eq some] at normal
      have moderate : Moderate (x * 100) := by
        have half : 5 * unit ≤ 1 / 2 := by rw [unit]; norm_num
        obtain ⟨least, most⟩ := near.mono half (le_trans (by positivity) low)
        have least' : (2 : ℚ) ^ (-80 : Int) ≤ 1 / 2 ^ 64 / 2 * 100 := by norm_num
        have most' : (2 : ℚ) ^ 64 * 2 * 100 ≤ 2 ^ (80 : Int) := by norm_num
        exact ⟨least'.trans (by linarith), le_trans (by linarith) most'⟩
      obtain ⟨z, product, -⟩ := normal.mul normal_hundred moderate
      exact ⟨z, .inr product⟩
  obtain ⟨x, amount⟩ := amount
  dsimp only
  split
  · next most => exact ⟨x, amount, (amount.le_iff amount_hundred).1 most⟩
  · exact ⟨100, amount_hundred, le_rfl⟩

/-- Progress that is taken in is in scale, and comes as far as the progress before. -/
theorem advanced_reaches {job : Job} {snapshot : Engine.Snapshot} {now : Instant}
    (scaled : job.progress.InScale)
    (news : ¬snapshot.bytesProcessed < job.progress.bytesProcessed) :
    (advanced job snapshot now).progress.InScale ∧
      (advanced job snapshot now).progress.Reaches job.progress := by
  have told : ∃ y, Amount (snapshot.percent.getD job.progress.percent) y ∧ y ≤ 100 := by
    cases h : snapshot.percent with
    | none => exact scaled
    | some percent => exact percent_amount h
  obtain ⟨x, hx, most⟩ := scaled
  obtain ⟨y, hy, most'⟩ := told
  have percent : (advanced job snapshot now).progress.percent =
      if snapshot.percent.getD job.progress.percent < job.progress.percent then
        job.progress.percent else snapshot.percent.getD job.progress.percent := rfl
  have bytes : job.progress.bytesProcessed ≤ snapshot.bytesProcessed := UInt64.not_lt.1 news
  split at percent
  · exact ⟨⟨x, percent ▸ hx, most⟩, percent ▸ (hx.le_iff hx).2 le_rfl, bytes⟩
  · next above =>
    rw [hy.lt_iff hx, not_lt] at above
    exact ⟨⟨y, percent ▸ hy, most'⟩, percent ▸ (hx.le_iff hy).2 above, bytes⟩

/-! ## Turns -/

/-- The progress that a notice tells. -/
def Log.progress? : Notice → Option Job.Progress
  | .progressUpdated _ progress => some progress
  | _ => none

/-- Whether a job is not said to start or to go on. -/
def Log.Idle (news : List Notice) : Prop :=
  ∀ notice ∈ news, notice.topic ≠ .jobStarted ∧ notice.topic ≠ .jobResumed

open Log

namespace Slice.Turn

variable {clock : Clock} {grounds : Grounds} {a b : Slice} {job : Job} {news : List Notice}

/-- No turn takes progress back. -/
theorem reaches (turn : Turn clock grounds a news b) (h : a.job = some job)
    (scaled : job.progress.InScale) :
    ∃ job', b.job = some job' ∧ job'.progress.InScale ∧ job'.progress.Reaches job.progress := by
  cases turn with
  | still => exact ⟨job, h, scaled, scaled.reaches⟩
  | submit => cases h
  | start | refuse | hold | fail | withdraw | abandon | pause | resume =>
    cases h
    exact ⟨_, rfl, scaled, scaled.reaches⟩
  | advance _ _ news | announce _ _ news =>
    cases h
    exact ⟨_, rfl, advanced_reaches scaled news⟩
  | complete _ ended =>
    cases h
    subst ended
    exact ⟨_, rfl, Job.Progress.inScale_complete, scaled.complete_reaches (bytes_le_max _ _)⟩

/-- A turn that brings a job brings it at zero percent. -/
theorem inScale (turn : Turn clock grounds a news b) (unknown : a.job = none)
    (h : b.job = some job) : job.progress.InScale := by
  cases turn with
  | still => rw [unknown] at h; cases h
  | submit new =>
    cases h
    rw [new]
    exact ⟨0, amount_zero, by norm_num⟩
  | start | refuse | advance | announce | hold | complete | fail | withdraw | abandon | pause
  | resume => cases unknown

/-- A turn tells at most the progress that it comes to. -/
theorem told (turn : Turn clock grounds a news b) :
    news.filterMap progress? = [] ∨
      ∃ job, b.job = some job ∧ news.filterMap progress? = [job.progress] := by
  cases turn with
  | announce => exact .inr ⟨_, rfl, rfl⟩
  | still | submit | start | refuse | advance | hold | complete | fail | withdraw | abandon | pause
  | resume => exact .inl rfl

/-- Progress is that of running jobs. A job that does not run keeps it, and does not run until it
starts or goes on. -/
theorem progress_eq (turn : Turn clock grounds a news b) (h : a.job = some job)
    (resting : job.status ≠ .running) (idle : Idle news) :
    ∃ job', b.job = some job' ∧ job'.status ≠ .running ∧ job'.progress = job.progress := by
  cases turn with
  | still => exact ⟨job, h, resting, rfl⟩
  | submit => cases h
  | start | refuse =>
    exact absurd rfl (idle _ List.mem_cons_self).1
  | resume => exact absurd rfl (idle _ List.mem_cons_self).2
  | advance _ status | announce _ status | complete status | fail _ status | pause status =>
    cases h
    exact absurd status resting
  | hold =>
    cases h
    exact ⟨_, rfl, resting, rfl⟩
  | withdraw | abandon =>
    cases h
    exact ⟨_, rfl, nofun, rfl⟩

end Slice.Turn

/-- Progress in the record and in the log: in scale, and never behind what was told before. -/
structure Slice.Climbs (slice : Slice) (log : List Notice) : Prop where
  scaled : ∀ job, slice.job = some job → job.progress.InScale
  told : ∀ progress ∈ log.filterMap progress?, progress.InScale ∧
    ∃ job, slice.job = some job ∧ job.progress.Reaches progress
  ordered : (log.filterMap progress?).Pairwise fun earlier later => later.Reaches earlier

theorem Slice.Turn.climbs {clock : Clock} {grounds : Slice.Grounds} {a b : Slice}
    {news log : List Notice} (turn : Slice.Turn clock grounds a news b) (climbs : a.Climbs log) :
    b.Climbs (log ++ news) := by
  have scaled : ∀ job, b.job = some job → job.progress.InScale := by
    intro job h
    cases before : a.job with
    | none => exact turn.inScale before h
    | some old =>
      obtain ⟨_, h', scaled, -⟩ := turn.reaches before (climbs.scaled old before)
      rw [h] at h'
      cases h'
      exact scaled
  have behind : ∀ progress ∈ log.filterMap progress?, progress.InScale ∧
      ∃ job, b.job = some job ∧ job.progress.Reaches progress := by
    intro progress hmem
    obtain ⟨first, old, before, reaches⟩ := climbs.told progress hmem
    obtain ⟨job, after, third, reaches'⟩ := turn.reaches before (climbs.scaled old before)
    exact ⟨first, job, after, reaches'.trans reaches first (climbs.scaled old before) third⟩
  rcases turn.told with silent | ⟨job, after, one⟩
  · refine ⟨scaled, ?_, ?_⟩ <;> rw [List.filterMap_append, silent, List.append_nil]
    · exact behind
    · exact climbs.ordered
  · refine ⟨scaled, fun progress hmem => ?_, ?_⟩
    · rw [List.filterMap_append, one, List.mem_append, List.mem_singleton] at hmem
      rcases hmem with hmem | rfl
      · exact behind progress hmem
      · exact ⟨scaled job after, job, after, (scaled job after).reaches⟩
    · rw [List.filterMap_append, one]
      refine List.pairwise_append.2 ⟨climbs.ordered, List.pairwise_singleton _ _, ?_⟩
      intro progress hmem last hlast
      obtain ⟨-, job', after', reaches⟩ := behind progress hmem
      rw [after] at after'
      cases after'
      rw [List.mem_singleton.1 hlast]
      exact reaches

/-! ## Completion -/

section Completion

variable {σ : Type} {engine : Engine σ} {clock : Clock} {s t : Scene σ} {id : Job.Id}
  {job done : Job}

/-- Whether a message brings the outcome of a job: it is told, or it was told during a pause that
the message ends. -/
def Message.Brings (message : Message) (queue : Queue) (id : Job.Id) (outcome : Engine.Outcome) :
    Prop :=
  message = .finished id outcome ∨
    message = .resume id ∧ ∃ active, queue.active? id = some active ∧ active.held = some outcome

theorem Message.isHeard_of_brings (message : Message) (queue : Queue) :
    message.IsHeard (message.Brings queue) queue := by
  cases message with
  | finished => exact .inl rfl
  | resume => exact fun active outcome holds held => .inr ⟨rfl, active, holds, held⟩
  | submit | cancel | pause | progress | schedule => trivial

theorem Message.Brings.not_progress {message : Message} {queue : Queue} {outcome : Engine.Outcome}
    (brings : message.Brings queue id outcome) : message.isProgress = false := by
  rcases brings with rfl | ⟨rfl, -⟩ <;> rfl

/-- A job is complete, with as many bytes as its run has said, or as were known before. -/
def CompletedBy (message : Message) (queue : Queue) (job done : Job) (log : List Notice) : Prop :=
  ∃ bytes, message.Brings queue job.id (.completed bytes) ∧
    done.progress = .complete (max bytes job.progress.bytesProcessed) ∧
    ∃ duration, log.getLast? =
      some (.jobCompleted job.id duration (max bytes job.progress.bytesProcessed))

/-- A job that a message completes has what progress it had, or what its run says. -/
theorem completedBy_of_handle {message : Message} {reply : Reply} (sound : s.queue.Sound)
    (found : s.queue.job? id = some job) (open_ : job.status ≠ .completed)
    (fresh : message.IsFresh s.queue) (call : handle engine clock message s = .ok reply t)
    (found' : t.queue.job? id = some done) (completed : done.status = .completed) :
    CompletedBy message s.queue job done (t.story id) := by
  obtain rfl := job?_id found
  let scope : Scope :=
    { starting := true, heard := message.Brings s.queue, advancing := message.isProgress }
  have path : Path engine clock scope s t :=
    handle_within sound rfl (fun h => h) fresh (message.isHeard_of_brings s.queue) call
  -- Until it is complete, the job has the progress that it had: outcomes come without progress.
  have kept := path.keeps_within (fun slice log => ∃ last, slice.job = some last ∧
      last.id = job.id ∧
      (last.status ≠ .completed ∧ (message.isProgress = false → last.progress = job.progress) ∨
        last.status = .completed ∧ CompletedBy message s.queue job last log)) job.id sound
    (fun {grounds a b news log} turn within _ before => ?_)
    ⟨job, found, rfl, .inl ⟨open_, fun _ => rfl⟩⟩
  · obtain ⟨last, h, -, state⟩ := kept
    obtain rfl : done = last := Option.some_inj.1 (found'.symm.trans h)
    exact (state.resolve_left fun state => state.1 completed).2
  obtain ⟨last, h, same, state⟩ := before
  rcases state with ⟨going, progress⟩ | finished
  · cases turn with
    | still =>
      rw [List.append_nil]
      exact ⟨last, h, same, .inl ⟨going, progress⟩⟩
    | submit => cases h
    | start | refuse | fail | withdraw | abandon | pause | resume =>
      cases h
      exact ⟨_, rfl, same, .inl ⟨nofun, progress⟩⟩
    | hold =>
      cases h
      exact ⟨_, rfl, same, .inl ⟨going, progress⟩⟩
    | advance _ _ _ _ may | announce _ _ _ _ may =>
      cases h
      rw [within.advancing] at may
      refine ⟨_, rfl, same, .inl ⟨going, fun other => ?_⟩⟩
      exact absurd (may.symm.trans other) Bool.noConfusion
    | @complete last done active bytes status ended heard =>
      cases h
      rw [within.heard] at heard
      have brings : message.Brings s.queue job.id (.completed bytes) := heard
      subst ended
      have before : last.progress = job.progress := progress brings.not_progress
      refine ⟨_, rfl, same, .inr ⟨rfl, bytes, brings, before ▸ rfl,
        (last.completed bytes clock.wall).durationMs.getD 0, ?_⟩⟩
      rw [← before, ← same]
      exact List.getLast?_concat
  · obtain ⟨rfl, rfl⟩ := turn.of_ended h (by rw [finished.1]; rfl)
    rw [List.append_nil]
    exact ⟨last, h, same, .inr finished⟩

/-- No job is completed while the queue is drained. -/
theorem completed_of_drain {r : Unit} (sound : s.queue.Sound) (found : s.queue.job? id = some job)
    (call : drain engine clock s = .ok r t) (found' : t.queue.job? id = some done)
    (completed : done.status = .completed) : job.status = .completed := by
  by_contra open_
  let scope : Scope := { starting := false, heard := fun _ _ => False }
  have path : Path engine clock scope s t := drain_path sound call
  have kept := path.keeps_within (fun slice _ => ∃ last, slice.job = some last ∧
      last.status ≠ .completed) id sound
    (fun turn within _ before => ?_) ⟨job, found, open_⟩
  · obtain ⟨last, h, going⟩ := kept
    obtain rfl : done = last := Option.some_inj.1 (found'.symm.trans h)
    exact going completed
  obtain ⟨last, h, going⟩ := before
  cases turn with
  | still => exact ⟨last, h, going⟩
  | submit => cases h
  | start | refuse | fail | withdraw | abandon | pause | resume => exact ⟨_, rfl, nofun⟩
  | hold | advance | announce =>
    cases h
    exact ⟨_, rfl, going⟩
  | complete _ _ heard =>
    rw [within.heard] at heard
    exact heard.elim

end Completion

/-! ## Runs -/

section Runs

variable {σ : Type} {engine : Engine σ} {config : Config} {swarm : Swarm} {state : σ}
  {s t : Scene σ} {id : Job.Id} {job : Job}

theorem Run.climbs (run : Run engine (.initial config swarm state) s) :
    (s.queue.slice id).Climbs (s.story id) := by
  refine run.keeps Slice.Climbs id (sound_initial config) (fun turn climbs => turn.climbs climbs) ?_
  exact ⟨fun _ h => (nomatch h), fun _ hmem => absurd hmem List.not_mem_nil, .nil⟩

/-- Progress does not go back from one point of a run to another. -/
theorem Run.reaches (run : Run engine s t) (sound : s.queue.Sound)
    (found : s.queue.job? id = some job) (scaled : job.progress.InScale) :
    ∃ job', t.queue.job? id = some job' ∧ job'.progress.Reaches job.progress := by
  have kept := run.keeps (fun slice _ => ∃ job', slice.job = some job' ∧ job'.progress.InScale ∧
      job'.progress.Reaches job.progress) id sound (fun turn before => ?_)
    ⟨job, found, scaled, scaled.reaches⟩
  · obtain ⟨job', found', -, reaches⟩ := kept
    exact ⟨job', found', reaches⟩
  obtain ⟨last, h, second, reaches⟩ := before
  obtain ⟨next, h', third, reaches'⟩ := turn.reaches h second
  exact ⟨next, h', third, reaches'.trans reaches scaled second third⟩

/-- A job that does not run keeps its progress until it is said to start or to go on. -/
theorem Run.progress_eq {job' : Job} {news : List Notice} (run : Run engine s t)
    (sound : s.queue.Sound) (found : s.queue.job? id = some job) (resting : job.status ≠ .running)
    (said : t.story id = s.story id ++ news) (idle : Idle news)
    (found' : t.queue.job? id = some job') : job'.progress = job.progress := by
  have kept := run.keeps (fun slice log => ∃ news, log = s.story id ++ news ∧ (Idle news →
      ∃ last, slice.job = some last ∧ last.status ≠ .running ∧ last.progress = job.progress)) id
    sound (fun {_ _ _ _ more _} turn before => ?_)
    ⟨[], (List.append_nil _).symm, fun _ => ⟨job, found, resting, rfl⟩⟩
  · obtain ⟨news', said', kept⟩ := kept
    obtain rfl : news = news' := List.append_cancel_left (said.symm.trans said')
    obtain ⟨last, h, -, same⟩ := kept idle
    obtain rfl : job' = last := Option.some_inj.1 (found'.symm.trans h)
    exact same
  obtain ⟨news, rfl, before⟩ := before
  refine ⟨news ++ more, List.append_assoc _ _ _, fun idle => ?_⟩
  obtain ⟨last, h, resting, same⟩ := before fun notice hmem =>
    idle notice (List.mem_append_left _ hmem)
  obtain ⟨next, h', resting', same'⟩ := turn.progress_eq h resting fun notice hmem =>
    idle notice (List.mem_append_right _ hmem)
  exact ⟨next, h', resting', same'.trans same⟩

/-- What is announced of the progress of a job does not go back. The record of a job has a
percentage from 0 to 100, and neither that nor the bytes fall. Progress stays as it is while a job
does not run. A job becomes complete by a message that brings the outcome, and then has as many
bytes as that says, or as it had before if those are more. -/
theorem Run.progress (run : Run engine (.initial config swarm state) s) (later : Run engine s t)
    (id : Job.Id) :
    ((s.story id).filterMap progress?).Pairwise (fun earlier later => later.Reaches earlier) ∧
    ∀ job, s.queue.job? id = some job →
      (0 ≤ job.progress.percent ∧ job.progress.percent ≤ 100) ∧
      (∃ job', t.queue.job? id = some job' ∧ job'.progress.Reaches job.progress ∧
        (job.status ≠ .running → ∀ news, t.story id = s.story id ++ news → Idle news →
          job'.progress = job.progress)) ∧
      (∀ clock message reply u done, message.IsFresh s.queue →
        handle engine clock message s = .ok reply u → u.queue.job? id = some done →
        job.status ≠ .completed → done.status = .completed →
        CompletedBy message s.queue job done (u.story id)) ∧
      (∀ clock u done, drain engine clock s = .ok () u → u.queue.job? id = some done →
        done.status = .completed → job.status = .completed) := by
  have sound := (run.sound (sound_initial config)).1
  have climbs : (s.queue.slice id).Climbs (s.story id) := run.climbs
  refine ⟨climbs.ordered, fun job found => ?_⟩
  have scaled := climbs.scaled job found
  obtain ⟨job', found', reaches⟩ := later.reaches sound found scaled
  refine ⟨scaled.bounds, ⟨job', found', reaches, ?_⟩, ?_, ?_⟩
  · intro resting news said idle
    exact later.progress_eq sound found resting said idle found'
  · intro clock message reply u done fresh call ended open_ completed
    exact completedBy_of_handle sound found open_ fresh call ended completed
  · intro clock u done call ended completed
    exact completed_of_drain sound found call ended completed

/-- A snapshot with a larger total does not lower the percentage; a job that is told of more bytes
than its run has in the end keeps them. -/
theorem Run.progress_of_shrinking :
    ∃ s t, Run Engine.Stub.engine (.initial {} loneSwarm Engine.Stub.standard) s ∧
      Run Engine.Stub.engine s t ∧
      ((s.queue.job? ⟨1⟩).map fun job => (job.status, job.progress.bytesProcessed)) =
        some (.paused, 40) ∧
      (∃ job', t.queue.job? ⟨1⟩ = some job' ∧ job'.status = .completed ∧
        job'.progress.bytesProcessed = 40) ∧
      ((s.story ⟨1⟩).filterMap progress?).Pairwise (fun earlier later => later.Reaches earlier) ∧
      ∀ job, s.queue.job? ⟨1⟩ = some job →
        (0 ≤ job.progress.percent ∧ job.progress.percent ≤ 100) ∧
        ∃ job', t.queue.job? ⟨1⟩ = some job' ∧ job'.progress.Reaches job.progress := by
  have played : (play Engine.Stub.engine
      [.told (.epoch 0) (.submit ⟨1⟩ { targetPath := "notes" } .normal),
        .told (.epoch 1) (.progress ⟨1⟩ ⟨30, some 60⟩),
        .told (.epoch 2) (.progress ⟨1⟩ ⟨40, some 160⟩), .told (.epoch 3) (.pause ⟨1⟩)]
      (.initial {} loneSwarm Engine.Stub.standard)).any (fun s =>
        ((s.queue.job? ⟨1⟩).map fun job => (job.status, job.progress.bytesProcessed)) =
          some (.paused, 40) ∧
        (play Engine.Stub.engine [.told (.epoch 4) (.finished ⟨1⟩ (.completed 8)),
          .told (.epoch 5) (.resume ⟨1⟩)] s).any (fun t => (t.queue.job? ⟨1⟩).any (fun job =>
            job.status = .completed ∧ job.progress.bytesProcessed = 40) = true) = true) = true := by
    decide +kernel
  obtain ⟨s, hs, facts⟩ := (Option.any_eq_true _ _).1 played
  obtain ⟨paused, played⟩ := of_decide_eq_true facts
  obtain ⟨t, ht, facts⟩ := (Option.any_eq_true _ _).1 played
  obtain ⟨done, found, facts⟩ := (Option.any_eq_true _ _).1 (of_decide_eq_true facts)
  obtain ⟨completed, bytes⟩ := of_decide_eq_true facts
  obtain ⟨ordered, known⟩ := Run.progress (run_of_play hs) (run_of_play ht) ⟨1⟩
  refine ⟨s, t, run_of_play hs, run_of_play ht, paused, ⟨done, found, completed, bytes⟩, ordered,
    fun job found => ?_⟩
  obtain ⟨bounds, ⟨job', found', reaches, -⟩, -⟩ := known job found
  exact ⟨bounds, job', found', reaches⟩

end Runs

end Queue

end JobSwarm
