import JobSwarm.Engine.Basic
import JobSwarm.Job.Basic
import JobSwarm.Queue.Config
import JobSwarm.Queue.Stats
import JobSwarm.Task

/-!
# The queue

A queue keeps the record of every job that was submitted to it. The queued jobs wait in order of
precedence: the more urgent first, and of equally urgent ones the one that came first. The running
and the paused jobs hold an agent and a run of the engine.

Results:

* `precedes_trans`, `not_precedes_self`, `precedes_or_precedes`: jobs with different numbers stand
  in one order.
* `mem_insert`: an entry joins the others.
* `Ordered.insert`: an entry joins the others in its place.
* `job?_putJob_self`: a changed record is found changed.
-/

namespace JobSwarm

namespace Queue

/-- A queued job (`PendingJob`). -/
structure Pending where
  id : Job.Id
  priority : Priority
  sequence : UInt64
  deriving DecidableEq

/-- Whether one queued job goes before another (`cmp`). -/
def Pending.Precedes (a b : Pending) : Prop :=
  b.priority < a.priority ∨ (a.priority = b.priority ∧ a.sequence < b.sequence)

instance (a b : Pending) : Decidable (a.Precedes b) :=
  inferInstanceAs (Decidable (_ ∨ _))

/-- The entry of a queued job. -/
def Pending.ofJob (job : Job) : Pending :=
  ⟨job.id, job.priority, job.sequence⟩

/-- Puts an entry before the first that it precedes. -/
def Pending.insert (entry : Pending) : List Pending → List Pending
  | [] => [entry]
  | first :: rest =>
    if entry.Precedes first then entry :: first :: rest else first :: Pending.insert entry rest

/-- A job that holds an agent and a run of the engine (`ActiveJob`). -/
structure Active where
  task : Task
  agentId : Agent.Id
  handle : Engine.Handle
  timeoutSecs : UInt64
  /-- When progress was last announced, on the steady clock. -/
  announcedAt : Option Nat := none
  /-- How the run ended, when that was learnt during a pause. -/
  held : Option Engine.Outcome := none
  /-- When the pause began, on the steady clock. -/
  pausedAt : Option Nat := none

def Active.jobId (active : Active) : Job.Id :=
  active.task.jobId

end Queue

open Queue in
/-- A queue of jobs (`QueueActorState`). -/
structure Queue where
  config : Queue.Config
  /-- The queued jobs, in order of precedence. -/
  pending : List Pending := []
  /-- The running and paused jobs, in the order in which they started. -/
  active : List Active := []
  /-- The records of all jobs, in the order of submission. -/
  jobs : List Job := []
  /-- The number of the last job. -/
  sequence : UInt64 := 0
  /-- How long the completed jobs took together, and how many they are. -/
  completedMs : UInt64 := 0
  completedCount : UInt64 := 0

namespace Queue

/-! ## Lookups -/

/-- The record of a job. -/
def job? (queue : Queue) (id : Job.Id) : Option Job :=
  queue.jobs.find? fun job => job.id == id

/-- What a running or paused job holds. -/
def active? (queue : Queue) (id : Job.Id) : Option Active :=
  queue.active.find? fun active => active.jobId == id

/-- The jobs, or those of them in one status, sorted by their numbers (`list`). -/
def list (queue : Queue) (status : Option Job.Status) : List Job :=
  (queue.jobs.filter fun job => status.all (· == job.status)).mergeSort
    fun a b => a.sequence ≤ b.sequence

/-- The jobs that have not ended. -/
def unfinished (queue : Queue) : List Job :=
  (queue.list none).filter fun job => !job.status.isTerminal

/-- How many jobs stand in a status. -/
def number (queue : Queue) (status : Job.Status) : Nat :=
  (queue.jobs.filter fun job => decide (job.status = status)).length

def count (queue : Queue) (status : Job.Status) : UInt64 :=
  .ofNat (queue.number status)

/-- The numbers of jobs by status, and the mean duration of the completed ones (`stats`). -/
def stats (queue : Queue) : Stats where
  queued := queue.count .queued
  running := queue.count .running
  paused := queue.count .paused
  completed := queue.count .completed
  failed := queue.count .failed
  cancelled := queue.count .cancelled
  avgDurationMs :=
    if queue.completedCount = 0 then none
    else some (queue.completedMs.toFloat / queue.completedCount.toFloat)

/-- The time that a job may run, in seconds. -/
def timeoutOf (queue : Queue) (config : Job.Config) : UInt64 :=
  config.timeoutSecs.getD queue.config.defaultTimeoutSecs

/-- Whether another job may hold an agent. -/
def hasRoom (queue : Queue) : Bool :=
  queue.active.length < queue.config.concurrency.toNat

/-! ## Changes -/

/-- Replaces the record of a job. -/
def putJob (queue : Queue) (job : Job) : Queue :=
  { queue with jobs := queue.jobs.map fun old => if old.id = job.id then job else old }

/-- Adds the record of a queued job. -/
def add (queue : Queue) (job : Job) : Queue :=
  { queue with
    pending := Pending.insert (.ofJob job) queue.pending
    jobs := queue.jobs ++ [job]
    sequence := job.sequence }

/-- Takes a job out of the queued ones. -/
def withdraw (queue : Queue) (id : Job.Id) : Queue :=
  { queue with pending := queue.pending.filter fun entry => entry.id != id }

/-- Notes what a started job holds. -/
def activate (queue : Queue) (active : Active) : Queue :=
  { queue with active := queue.active ++ [active] }

/-- Takes away what a job holds. -/
def retire (queue : Queue) (id : Job.Id) : Queue :=
  { queue with active := queue.active.filter fun active => active.jobId != id }

/-- Changes what a job holds. -/
def modifyActive (queue : Queue) (id : Job.Id) (change : Active → Active) : Queue :=
  { queue with active := queue.active.map fun active =>
      if active.jobId = id then change active else active }

/-! ## Precedence -/

theorem precedes_trans {a b c : Pending} (hab : a.Precedes b) (hbc : b.Precedes c) :
    a.Precedes c := by
  rcases hab with hab | ⟨hab, sab⟩
  · rcases hbc with hbc | ⟨hbc, _⟩
    · exact .inl (Nat.lt_trans hbc hab)
    · exact .inl (hbc ▸ hab)
  · rcases hbc with hbc | ⟨hbc, sbc⟩
    · exact .inl (hab ▸ hbc)
    · exact .inr ⟨hab.trans hbc, UInt64.lt_trans sab sbc⟩

theorem not_precedes_self {a : Pending} : ¬a.Precedes a := by
  rintro (h | ⟨-, h⟩)
  · exact Nat.lt_irrefl _ h
  · exact UInt64.lt_irrefl _ h

theorem precedes_or_precedes {a b : Pending} (h : a.sequence ≠ b.sequence) :
    a.Precedes b ∨ b.Precedes a := by
  rcases Nat.lt_trichotomy a.priority.rank b.priority.rank with hp | hp | hp
  · exact .inr (.inl hp)
  · have hp := Priority.rank_injective hp
    rcases Nat.lt_or_gt_of_ne (fun hs => h (UInt64.toNat_inj.1 hs)) with hs | hs
    · exact .inl (.inr ⟨hp, hs⟩)
    · exact .inr (.inr ⟨hp.symm, hs⟩)
  · exact .inl (.inl hp)

theorem mem_insert {x entry : Pending} {entries : List Pending} :
    x ∈ Pending.insert entry entries ↔ x = entry ∨ x ∈ entries := by
  induction entries with
  | nil => simp [Pending.insert]
  | cons first rest ih =>
    by_cases h : entry.Precedes first
    · simp [Pending.insert, h]
    · simp only [Pending.insert, h, ↓reduceIte, List.mem_cons, ih]
      exact or_left_comm

/-- Entries that stand in order of precedence. -/
abbrev Ordered (entries : List Pending) : Prop :=
  entries.Pairwise Pending.Precedes

theorem Ordered.insert {entry : Pending} {entries : List Pending} (h : Ordered entries)
    (fresh : ∀ other ∈ entries, other.sequence ≠ entry.sequence) :
    Ordered (Pending.insert entry entries) := by
  induction entries with
  | nil => simp [Pending.insert, Ordered]
  | cons first rest ih =>
    obtain ⟨hfirst, hrest⟩ := List.pairwise_cons.1 h
    by_cases hp : entry.Precedes first
    · simp only [Pending.insert, hp, ↓reduceIte]
      refine List.pairwise_cons.2 ⟨fun other hmem => ?_, h⟩
      rcases List.mem_cons.1 hmem with rfl | hmem
      · exact hp
      · exact precedes_trans hp (hfirst other hmem)
    · simp only [Pending.insert, hp, ↓reduceIte]
      refine List.pairwise_cons.2 ⟨fun other hmem => ?_,
        ih hrest fun other hmem => fresh other (List.mem_cons_of_mem _ hmem)⟩
      rcases mem_insert.1 hmem with rfl | hmem
      · exact (precedes_or_precedes (fresh first List.mem_cons_self)).resolve_right hp
      · exact hfirst other hmem

/-! ## Records -/

theorem job?_putJob_self (queue : Queue) (job old : Job) (h : queue.job? job.id = some old) :
    (queue.putJob job).job? job.id = some job := by
  simp only [job?, putJob] at h ⊢
  generalize queue.jobs = jobs at h ⊢
  induction jobs with
  | nil => simp at h
  | cons first rest ih =>
    by_cases hf : first.id = job.id
    · simp [hf]
    · simp only [List.find?_cons, List.map_cons, hf, ↓reduceIte, beq_eq_false_iff_ne.2 hf] at h ⊢
      exact ih h

end Queue

end JobSwarm
