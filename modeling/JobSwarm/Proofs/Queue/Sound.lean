import JobSwarm.Proofs.Queue.Slice
import Mathlib.Data.List.Range

/-!
# Sound queues

In a sound queue the three parts of each slice go together, no table repeats a key, the jobs are
numbered in the order of submission, the waiting entries stand in order of precedence, and no more
jobs are active than there is room for.

Results:

* `Slice.Fits.of_queued`, `of_running`, `of_paused`, `of_ended`, `of_unknown`: a slice that fits is
  known from its job.
* `Regular.add`, `putJob`, `withdraw`, `activate`, `retire`, `modifyActive`: what each change keeps
  of the tables.
* `Sound.mem_pending_iff`: the waiting entries are those of the queued jobs.
* `Sound.pending_unique`: no job waits twice.
* `Sound.list_eq`: a sorted listing has the jobs in the order in which they are recorded.
* `Sound.holds_of_running`, `holds_of_paused`, `job_of_active`: the jobs that hold an agent are
  those that run or have paused.
-/

namespace JobSwarm.Queue

/-! ## Slices -/

/-- How a record, what an active job holds, and the waiting entries go together. -/
inductive Slice.Fits : Slice → Prop
  | unknown : Fits ⟨none, none, []⟩
  | queued {job : Job} (status : job.status = .queued) : Fits ⟨some job, none, [.ofJob job]⟩
  | running {job : Job} {active : Active} (status : job.status = .running)
      (agent : job.agentId = some active.agentId) (free : active.pausedAt = none)
      (unheld : active.held = none) : Fits ⟨some job, some active, []⟩
  | paused {job : Job} {active : Active} (status : job.status = .paused)
      (agent : job.agentId = some active.agentId) (since : active.pausedAt.isSome) :
      Fits ⟨some job, some active, []⟩
  | ended {job : Job} (status : job.status.isTerminal = true) : Fits ⟨some job, none, []⟩

namespace Slice.Fits

variable {slice : Slice} {job : Job}

theorem of_unknown (fits : slice.Fits) (h : slice.job = none) : slice = ⟨none, none, []⟩ := by
  cases fits with
  | unknown => rfl
  | queued | running | paused | ended => cases h

theorem of_queued (fits : slice.Fits) (h : slice.job = some job) (status : job.status = .queued) :
    slice = ⟨some job, none, [.ofJob job]⟩ := by
  cases fits with
  | queued => cases h; rfl
  | unknown => cases h
  | running other | paused other | ended other => cases h; simp_all [Job.Status.isTerminal]

theorem of_running (fits : slice.Fits) (h : slice.job = some job)
    (status : job.status = .running) :
    ∃ active, slice = ⟨some job, some active, []⟩ ∧ job.agentId = some active.agentId ∧
      active.pausedAt = none ∧ active.held = none := by
  cases fits with
  | running _ agent free unheld => cases h; exact ⟨_, rfl, agent, free, unheld⟩
  | unknown => cases h
  | queued other | paused other | ended other => cases h; simp_all [Job.Status.isTerminal]

theorem of_paused (fits : slice.Fits) (h : slice.job = some job) (status : job.status = .paused) :
    ∃ active, slice = ⟨some job, some active, []⟩ ∧ job.agentId = some active.agentId ∧
      active.pausedAt.isSome := by
  cases fits with
  | paused _ agent since => cases h; exact ⟨_, rfl, agent, since⟩
  | unknown => cases h
  | queued other | running other | ended other => cases h; simp_all [Job.Status.isTerminal]

theorem of_ended (fits : slice.Fits) (h : slice.job = some job)
    (status : job.status.isTerminal = true) : slice = ⟨some job, none, []⟩ := by
  cases fits with
  | ended => cases h; rfl
  | unknown => cases h
  | queued other | running other | paused other => cases h; simp_all [Job.Status.isTerminal]

end Slice.Fits

/-! ## Tables -/

theorem putJob_ids (queue : Queue) (job : Job) :
    (queue.putJob job).jobs.map (·.id) = queue.jobs.map (·.id) :=
  Keyed.keys_modify (fun _ => job) fun _ _ => rfl

/-- What holds of the tables of a queue as a whole. -/
structure Regular (queue : Queue) : Prop where
  jobs_unique : (queue.jobs.map (·.id)).Nodup
  active_unique : (queue.active.map (·.jobId)).Nodup
  numbered : queue.jobs.map (·.sequence.toNat) = List.range' 1 queue.jobs.length
  counted : queue.sequence.toNat = queue.jobs.length
  ordered : Ordered queue.pending
  room : queue.active.length ≤ queue.config.concurrency.toNat

namespace Regular

variable {queue : Queue} {job old : Job} {id : Job.Id} {active : Active}

theorem putJob (regular : queue.Regular) (job : Job) (found : queue.job? job.id = some old)
    (same : job.sequence = old.sequence) : (queue.putJob job).Regular where
  jobs_unique := by
    rw [putJob_ids]
    exact regular.jobs_unique
  active_unique := regular.active_unique
  numbered := by
    have numbers : (queue.putJob job).jobs.map (·.sequence.toNat) =
        queue.jobs.map (·.sequence.toNat) := by
      simp only [Queue.putJob, List.map_map]
      refine List.map_congr_left fun other hmem => ?_
      by_cases hid : other.id = job.id
      · obtain ⟨hold, hkey⟩ := Keyed.mem_of_find? found
        have heq := Keyed.eq_of_key_eq regular.jobs_unique hmem hold (hid.trans hkey.symm)
        rw [Function.comp_apply, if_pos hid, same, heq]
      · simp [hid]
    rw [numbers, regular.numbered, Queue.putJob, List.length_map]
  counted := by simpa [Queue.putJob] using regular.counted
  ordered := regular.ordered
  room := regular.room

theorem withdraw (regular : queue.Regular) : (queue.withdraw id).Regular :=
  { regular with ordered := regular.ordered.filter _ }

theorem retire (regular : queue.Regular) : (queue.retire id).Regular :=
  { regular with
    active_unique := regular.active_unique.sublist (List.filter_sublist.map _)
    room := (List.length_filter_le _ _).trans regular.room }

theorem activate (regular : queue.Regular) (room : queue.hasRoom = true)
    (free : queue.active? active.jobId = none) : (queue.activate active).Regular :=
  { regular with
    active_unique := by
      simp only [Queue.activate, List.map_append, List.map_singleton]
      exact List.nodup_append.2 ⟨regular.active_unique, List.nodup_singleton _,
        fun _ hmem _ hself heq => Keyed.find?_eq_none.1 free (by
          rw [← List.mem_singleton.1 hself, ← heq]
          exact hmem)⟩
    room := by
      have := of_decide_eq_true room
      simp only [Queue.activate, List.length_append, List.length_singleton]
      omega }

theorem modifyActive {change : Active → Active} (regular : queue.Regular)
    (keeps : ∀ active, (change active).jobId = active.jobId) :
    (queue.modifyActive id change).Regular :=
  { regular with
    active_unique := by
      have keys : (queue.modifyActive id change).active.map (·.jobId) =
          queue.active.map (·.jobId) :=
        Keyed.keys_modify change fun active h => (keeps active).trans h
      rw [keys]
      exact regular.active_unique
    room := by
      simpa [Queue.modifyActive] using regular.room }

theorem add (regular : queue.Regular) (fresh : queue.job? job.id = none)
    (next : job.sequence.toNat = queue.sequence.toNat + 1)
    (later : ∀ entry ∈ queue.pending, entry.sequence ≠ job.sequence) :
    (queue.add job).Regular :=
  { regular with
    jobs_unique := by
      simp only [Queue.add, List.map_append, List.map_singleton]
      exact List.nodup_append.2 ⟨regular.jobs_unique, List.nodup_singleton _,
        fun _ hmem _ hself heq => Keyed.find?_eq_none.1 fresh (by
          rw [← List.mem_singleton.1 hself, ← heq]
          exact hmem)⟩
    numbered := by
      simp only [Queue.add, List.map_append, List.map_singleton, regular.numbered,
        List.length_append, List.length_singleton, List.range'_1_concat, next, regular.counted]
      rw [Nat.add_comm 1]
    counted := by
      simp only [Queue.add, next, regular.counted, List.length_append, List.length_singleton]
    ordered := regular.ordered.insert later }

end Regular

/-! ## Soundness -/

/-- A queue in order. -/
structure Sound (queue : Queue) : Prop extends Regular queue where
  fits : ∀ id, (queue.slice id).Fits

namespace Sound

variable {queue : Queue} {job : Job} {id : Job.Id} {active : Active} {entry : Pending}

theorem slice_unknown (sound : queue.Sound) (unknown : queue.job? id = none) :
    queue.slice id = ⟨none, none, []⟩ :=
  (sound.fits id).of_unknown unknown

theorem slice_queued (sound : queue.Sound) (found : queue.job? id = some job)
    (status : job.status = .queued) : queue.slice id = ⟨some job, none, [.ofJob job]⟩ :=
  (sound.fits id).of_queued found status

theorem slice_active (sound : queue.Sound) (found : queue.job? id = some job)
    (holds : queue.active? id = some active) : queue.slice id = ⟨some job, some active, []⟩ := by
  have fits := sound.fits id
  have hjob : (queue.slice id).job = some job := found
  have hactive : (queue.slice id).active = some active := holds
  cases hslice : queue.slice id with
  | mk job' active' waiting =>
    rw [hslice] at fits hjob hactive
    cases hjob
    cases hactive
    cases fits <;> rfl

/-- A running job holds an agent, which its record names. -/
theorem holds_of_running (sound : queue.Sound) (found : queue.job? id = some job)
    (status : job.status = .running) :
    ∃ active, queue.active? id = some active ∧ job.agentId = some active.agentId ∧
      active.pausedAt = none ∧ active.held = none := by
  obtain ⟨active, heq, agent, free, unheld⟩ := (sound.fits id).of_running found status
  exact ⟨active, congrArg Slice.active heq, agent, free, unheld⟩

/-- A paused job holds an agent, which its record names. -/
theorem holds_of_paused (sound : queue.Sound) (found : queue.job? id = some job)
    (status : job.status = .paused) :
    ∃ active, queue.active? id = some active ∧ job.agentId = some active.agentId ∧
      active.pausedAt.isSome := by
  obtain ⟨active, heq, agent, since⟩ := (sound.fits id).of_paused found status
  exact ⟨active, congrArg Slice.active heq, agent, since⟩

/-- What holds an agent belongs to a job that runs or has paused. -/
theorem job_of_active (sound : queue.Sound) (holds : queue.active? id = some active) :
    ∃ job, queue.job? id = some job ∧ job.agentId = some active.agentId ∧
      (job.status = .running ∧ active.pausedAt = none ∧ active.held = none ∨
        job.status = .paused ∧ active.pausedAt.isSome) := by
  have fits := sound.fits id
  have hactive : (queue.slice id).active = some active := holds
  have hjob : (queue.slice id).job = queue.job? id := rfl
  cases hslice : queue.slice id with
  | mk job' active' waiting =>
    rw [hslice] at fits hactive hjob
    cases hactive
    cases fits with
    | running status agent free unheld => exact ⟨_, hjob.symm, agent, .inl ⟨status, free, unheld⟩⟩
    | paused status agent since => exact ⟨_, hjob.symm, agent, .inr ⟨status, since⟩⟩

/-- The waiting entries are those of the queued jobs. -/
theorem mem_pending_iff (sound : queue.Sound) :
    entry ∈ queue.pending ↔
      ∃ job, queue.job? entry.id = some job ∧ job.status = .queued ∧ entry = .ofJob job := by
  have waits : entry ∈ queue.pending ↔ entry ∈ (queue.slice entry.id).waiting := by
    simp [slice]
  rw [waits]
  constructor
  · intro hmem
    have fits := sound.fits entry.id
    have hjob : (queue.slice entry.id).job = queue.job? entry.id := rfl
    cases hslice : queue.slice entry.id with
    | mk job' active' waiting =>
      rw [hslice] at fits hmem hjob
      cases fits with
      | queued status => exact ⟨_, hjob.symm, status, List.mem_singleton.1 hmem⟩
      | unknown | running | paused | ended => cases hmem
  · rintro ⟨job, found, status, heq⟩
    rw [sound.slice_queued found status, heq]
    exact List.mem_singleton.2 rfl

theorem pending_unique (sound : queue.Sound) : (queue.pending.map (·.id)).Nodup := by
  refine List.pairwise_map.2 (sound.ordered.imp_of_mem fun {a b} ha hb precedes heq => ?_)
  obtain ⟨job, found, -, rfl⟩ := sound.mem_pending_iff.1 ha
  obtain ⟨other, found', -, rfl⟩ := sound.mem_pending_iff.1 hb
  rw [← heq, found] at found'
  cases found'
  exact not_precedes_self precedes

theorem sequence_le (sound : queue.Sound) (h : job ∈ queue.jobs) :
    job.sequence.toNat ≤ queue.sequence.toNat := by
  have hmem : job.sequence.toNat ∈ queue.jobs.map (·.sequence.toNat) := List.mem_map_of_mem h
  rw [sound.numbered, List.mem_range'_1] at hmem
  have := sound.counted
  omega

/-- The numbers go with the order of submission, so a listing has the jobs as they are recorded. -/
theorem list_eq (sound : queue.Sound) (status : Option Job.Status) :
    queue.list status = queue.jobs.filter fun job => status.all (· == job.status) := by
  have numbers : (queue.jobs.map (·.sequence.toNat)).Pairwise (· < ·) := by
    rw [sound.numbered]
    exact List.pairwise_lt_range'
  have sorted : queue.jobs.Pairwise fun a b => a.sequence ≤ b.sequence :=
    (List.pairwise_map.1 numbers).imp Nat.le_of_lt
  exact List.mergeSort_of_pairwise (List.Pairwise.filter _ (sorted.imp decide_eq_true))

theorem list_none (sound : queue.Sound) : queue.list none = queue.jobs :=
  (sound.list_eq none).trans (List.filter_eq_self.2 fun _ _ => rfl)

theorem list_some (sound : queue.Sound) (status : Job.Status) :
    queue.list (some status) = queue.jobs.filter fun job => decide (job.status = status) :=
  (sound.list_eq _).trans (List.filter_congr fun _ _ => decide_eq_decide.2 eq_comm)

theorem unfinished_eq (sound : queue.Sound) :
    queue.unfinished = queue.jobs.filter fun job => !job.status.isTerminal := by
  rw [unfinished, sound.list_none]

end Sound

end JobSwarm.Queue
