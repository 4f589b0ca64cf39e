import JobSwarm.Proofs.Queue.Move
import Mathlib.Logic.Relation

/-!
# Paths of moves

A path is one move after another. Progress, outcomes and deadlines are paths on which no job starts.

Results:

* `Path.sound`: a path leads from a sound queue to a sound queue.
* `Path.said`: a path adds to what has been announced.
* `takeProgress_path`, `takeOutcome_path`: what comes from the engine.
* `conclude_move`: the outcome of a running job.
* `expireAll_ok`: the jobs past their deadline fail, and the others are left as they are.
-/

namespace JobSwarm.Queue

open Swarm (Session)
open Time (Instant Clock)

variable {σ : Type} {engine : Engine σ} {clock : Clock} {scope : Scope} {s t : Scene σ}

/-- One move after another. -/
abbrev Path (engine : Engine σ) (clock : Clock) (scope : Scope) : Scene σ → Scene σ → Prop :=
  Relation.ReflTransGen (Move engine clock scope)

namespace Path

theorem sound (path : Path engine clock scope s t) (sound : s.queue.Sound) : t.queue.Sound := by
  induction path with
  | refl => exact sound
  | tail _ move ih => exact move.sound ih

theorem config_eq (path : Path engine clock scope s t) : t.queue.config = s.queue.config := by
  induction path with
  | refl => rfl
  | tail _ move ih => exact move.config_eq.trans ih

theorem mishaps_eq (path : Path engine clock scope s t) : t.mishaps = s.mishaps := by
  induction path with
  | refl => rfl
  | tail _ move ih => exact move.mishaps_eq.trans ih

theorem initialized_eq (path : Path engine clock scope s t) :
    t.swarm.initialized = s.swarm.initialized := by
  induction path with
  | refl => rfl
  | tail _ move ih => exact move.initialized_eq.trans ih

/-- A path adds to what has been announced. No job starts where none may start. -/
theorem said (path : Path engine clock scope s t) :
    ∃ news, t.announced = s.announced ++ news ∧
      (scope.starting = false → ∀ notice ∈ news, notice.topic ≠ .jobStarted) := by
  induction path with
  | refl => exact ⟨[], (List.append_nil _).symm, fun _ _ hmem => absurd hmem List.not_mem_nil⟩
  | tail _ move ih =>
    obtain ⟨first, hfirst, calm⟩ := ih
    obtain ⟨second, hsecond, calm'⟩ := move.said
    refine ⟨first ++ second, by rw [hsecond, hfirst, List.append_assoc], fun h notice hmem => ?_⟩
    rcases List.mem_append.1 hmem with hmem | hmem
    · exact calm h notice hmem
    · exact calm' h notice hmem

/-- What each move keeps, a path keeps. -/
theorem keeps_moves {P : Scene σ → Prop} (path : Path engine clock scope s t)
    (sound : s.queue.Sound)
    (moves : ∀ {s t}, Move engine clock scope s t → s.queue.Sound → P s → P t) (h : P s) : P t := by
  induction path with
  | refl => exact h
  | tail before move ih => exact moves move (Path.sound before sound) ih

end Path

/-! ## Progress and outcomes -/

theorem takeProgress_path {id : Job.Id} {snapshot : Engine.Snapshot} {r : Unit}
    (may : scope.advancing = true) (h : takeProgress id snapshot clock s = .ok r t) :
    Path engine clock scope s t := by
  simp only [takeProgress, Step.bind_eq_ok, Step.get_eq_ok] at h
  obtain ⟨_, _, ⟨rfl, rfl⟩, h⟩ := h
  cases found : s.queue.job? id with
  | none =>
    simp only [found] at h
    obtain ⟨-, rfl⟩ := Step.pure_eq_ok.1 h
    exact .refl
  | some job =>
    cases holds : s.queue.active? id with
    | none =>
      simp only [found, holds] at h
      obtain ⟨-, rfl⟩ := Step.pure_eq_ok.1 h
      exact .refl
    | some active =>
      obtain rfl := job?_id found
      simp only [found, holds] at h
      split at h
      · next hnews =>
        obtain ⟨status, news⟩ := hnews
        obtain ⟨_, _, hput, h⟩ := Step.bind_eq_ok.1 h
        obtain rfl := Scene.modifyQueue_eq_ok.1 hput
        split at h
        · next due =>
          simp only [Step.bind_eq_ok, Scene.modifyQueue_eq_ok, Scene.announce_eq_ok] at h
          obtain ⟨_, _, rfl, rfl⟩ := h
          exact .single (.announce found holds status news due may)
        · next quiet =>
          obtain ⟨-, rfl⟩ := Step.pure_eq_ok.1 h
          exact .single (.advance found holds status news (by simpa using quiet) may)
      · obtain ⟨-, rfl⟩ := Step.pure_eq_ok.1 h
        exact .refl

section Conclude

variable {id : Job.Id} {job : Job} {active : Active} {outcome : Engine.Outcome} {r : Unit}

/-- A job that holds nothing has no outcome. -/
theorem conclude_of_none (none : s.queue.active? id = none) :
    conclude id outcome clock s = .ok () s := by
  simp only [conclude, Step.get_bind, none]
  rfl

/-- The outcome of a job that holds an agent is taken in with nothing held any more. -/
theorem conclude_of_active (found : s.queue.job? id = some job)
    (holds : s.queue.active? id = some active) :
    conclude id outcome clock s =
      (match outcome with
        | .completed bytes => complete job active.agentId bytes clock
        | .failed reason => fail job active.agentId reason clock)
        { s with queue := s.queue.retire id } := by
  have kept : (s.queue.retire id).job? id = some job := found
  simp only [conclude, Step.get_bind, holds]
  cases outcome <;>
    simp only [Scene.modifyQueue, Step.modify_bind, Step.get_bind, kept]

theorem complete_ok {agent : Agent.Id} {bytes : UInt64} (status : job.status = .running)
    (h : complete job agent bytes clock s = .ok r t) :
    ∃ done total count answer session, job.completed bytes clock.wall = done ∧
      addWord s.queue.completedMs (done.durationMs.getD 0) = .ok total ∧
      addWord s.queue.completedCount 1 = .ok count ∧
      Session.release agent (.succeeded (done.durationMs.getD 0)) clock.wall s.toSession =
        .ok answer session ∧
      t = { s with
        toSession := session.tell
          (.jobCompleted job.id (done.durationMs.getD 0) done.progress.bytesProcessed)
        queue := { s.queue.putJob done with completedMs := total, completedCount := count } } := by
  obtain ⟨done, hdone⟩ : ∃ done, job.completed bytes clock.wall = done := ⟨_, rfl⟩
  have hmove : { job with
      progress := .complete (max bytes job.progress.bytesProcessed) : Job }.transition .completed
        clock.wall = .ok done :=
    Job.transition_eq_ok_iff.2 ⟨by rw [status]; rfl, hdone⟩
  simp only [complete, hmove, countCompleted, Step.bind_eq_ok, Scene.modifyQueue_eq_ok,
    Step.onPart_eq_ok, Step.get_eq_ok, Step.ofSum_eq_ok, Step.modify_eq_ok, Scene.release_eq_ok,
    Scene.announce_eq_ok] at h
  obtain ⟨_, _, rfl, _, _, ⟨_, ⟨_, _, ⟨rfl, rfl⟩, total, _, ⟨htotal, rfl⟩, _, _, rfl, _, _,
    ⟨rfl, rfl⟩, count, _, ⟨hcount, rfl⟩, rfl⟩, rfl⟩, _, _, ⟨session, ⟨answer, hrelease⟩, rfl⟩,
    rfl⟩ := h
  refine ⟨done, total, count, answer, session, hdone, htotal, hcount, hrelease, ?_⟩
  rw [← hdone]
  rfl

theorem fail_ok {agent : Agent.Id} {reason : String} (status : job.status = .running)
    (h : fail job agent reason clock s = .ok r t) :
    ∃ answer session, Session.release agent
        (.failed ((job.failed reason clock.wall).durationMs.getD 0)) clock.wall s.toSession =
          .ok answer session ∧
      t = { s with
        toSession := session.tell (.jobFailed job.id reason)
        queue := s.queue.putJob (job.failed reason clock.wall) } := by
  have hmove : { job with error := some reason }.transition .failed clock.wall =
      .ok (job.failed reason clock.wall) :=
    Job.transition_eq_ok_iff.2 ⟨by rw [status]; rfl, rfl⟩
  simp only [fail, hmove, Step.bind_eq_ok, Scene.modifyQueue_eq_ok, Scene.release_eq_ok,
    Scene.announce_eq_ok] at h
  obtain ⟨_, _, rfl, _, _, ⟨session, ⟨answer, hrelease⟩, rfl⟩, rfl⟩ := h
  exact ⟨answer, session, hrelease, rfl⟩

/-- The outcome of a running job ends it. -/
theorem conclude_move (found : s.queue.job? job.id = some job)
    (holds : s.queue.active? job.id = some active) (status : job.status = .running)
    (heard : scope.heard job.id outcome) (h : conclude job.id outcome clock s = .ok r t) :
    Move engine clock scope s t := by
  rw [conclude_of_active found holds] at h
  cases outcome with
  | completed bytes =>
    obtain ⟨done, total, count, answer, session, ended, sum, next, release, rfl⟩ :=
      complete_ok status h
    exact .complete found holds status ended sum next release heard
  | failed reason =>
    obtain ⟨answer, session, release, rfl⟩ := fail_ok status h
    exact .fail found holds status rfl (.told reason heard) release

end Conclude

/-- An outcome is held by a paused job, ends a running one, and is nothing to the others. -/
theorem takeOutcome_path {id : Job.Id} {outcome : Engine.Outcome} {r : Unit}
    (sound : s.queue.Sound) (heard : scope.heard id outcome)
    (h : takeOutcome id outcome clock s = .ok r t) : Path engine clock scope s t := by
  simp only [takeOutcome, Step.bind_eq_ok, Step.get_eq_ok] at h
  obtain ⟨_, _, ⟨rfl, rfl⟩, h⟩ := h
  split at h
  · next hpaused =>
    obtain ⟨job, found, status⟩ := (Option.any_eq_true _ _).1 hpaused
    obtain rfl := job?_id found
    obtain rfl := Scene.modifyQueue_eq_ok.1 h
    exact .single (.hold found (of_decide_eq_true status) heard)
  · next hpaused =>
    cases holds : s.queue.active? id with
    | none =>
      rw [conclude_of_none holds] at h
      cases h
      exact .refl
    | some active =>
      obtain ⟨job, found, -, state⟩ := sound.job_of_active holds
      obtain rfl := job?_id found
      rcases state with ⟨status, -⟩ | ⟨status, -⟩
      · exact .single (conclude_move found holds status heard h)
      · simp [found, status] at hpaused

/-! ## Deadlines -/

section Expire

variable {active : Active} {job : Job} {r : Unit}

/-- A job past its deadline fails, and the other jobs have no part in it. -/
theorem expire_move (sound : s.queue.Sound) (found : s.queue.job? active.jobId = some job)
    (holds : s.queue.active? active.jobId = some active) (status : job.status = .running)
    (overdue : isExpired clock.wall active = true) (h : expire engine active clock s = .ok r t) :
    Move engine clock scope s t ∧ ∀ id, t.queue.slice id =
      if id = active.jobId then
        ⟨some (job.failed (timeoutReason active.timeoutSecs) clock.wall), none, []⟩
      else s.queue.slice id := by
  simp only [expire, Step.bind_eq_ok, Step.discard_eq_ok, Scene.callEngine_eq_ok] at h
  obtain ⟨_, _, ⟨answer, state, hcancel, rfl⟩, h⟩ := h
  have hstate : state = (engine.cancel active.handle s.engineState).2 := by rw [hcancel]
  have hfail : fail job active.agentId (timeoutReason active.timeoutSecs) clock _ = .ok r t :=
    (conclude_of_active (s := { s with engineState := state }) found holds).symm.trans h
  obtain ⟨answer, session, release, rfl⟩ := fail_ok status hfail
  have hid := job?_id found
  rw [← hid] at found holds ⊢
  refine ⟨?_, fun id => ?_⟩
  · rw [hstate]
    exact .fail found holds status rfl (.late overdue) release
  · by_cases h : id = job.id <;>
      simp [slice_putJob, slice_retire, h, sound.slice_active found holds]

/-- The running job of an active one past its deadline. -/
theorem Sound.job_of_expired (sound : s.queue.Sound)
    (holds : s.queue.active? active.jobId = some active)
    (overdue : isExpired clock.wall active = true) :
    ∃ job, s.queue.job? active.jobId = some job ∧ job.status = .running := by
  obtain ⟨job, found, -, state⟩ := sound.job_of_active holds
  rcases state with ⟨status, -⟩ | ⟨-, since⟩
  · exact ⟨job, found, status⟩
  · simp only [isExpired, Bool.and_eq_true, Option.isNone_iff_eq_none] at overdue
    rw [overdue.1] at since
    cases since

/-- What is left of a slice when the jobs past their deadline are given up. -/
def Slice.expired (slice : Slice) (now : Instant) : Slice :=
  match slice.job, slice.active with
  | some job, some active =>
    if isExpired now active then
      ⟨some (job.failed (timeoutReason active.timeoutSecs) now), none, []⟩
    else slice
  | _, _ => slice

/-- The jobs past their deadline fail one after another. -/
theorem expire_each {actives : List Active} (sound : s.queue.Sound)
    (holds : ∀ active ∈ actives, s.queue.active? active.jobId = some active)
    (overdue : ∀ active ∈ actives, isExpired clock.wall active = true)
    (unique : (actives.map (·.jobId)).Nodup)
    (h : (actives.forM fun active => expire engine active clock) s = .ok r t) :
    Path engine clock scope s t ∧ ∀ id, t.queue.slice id =
      if id ∈ actives.map (·.jobId) then (s.queue.slice id).expired clock.wall
      else s.queue.slice id := by
  induction actives generalizing s with
  | nil =>
    obtain ⟨-, rfl⟩ := Step.pure_eq_ok.1 h
    exact ⟨.refl, fun _ => rfl⟩
  | cons active rest ih =>
    obtain ⟨_, u, hfirst, hrest⟩ := Step.bind_eq_ok.1 h
    obtain ⟨hnew, hunique⟩ := List.nodup_cons.1 unique
    have own := holds active List.mem_cons_self
    have late := overdue active List.mem_cons_self
    obtain ⟨job, found, status⟩ := sound.job_of_expired own late
    obtain ⟨move, slices⟩ : Move engine clock scope s u ∧ _ :=
      expire_move sound found own status late hfirst
    have others {id : Job.Id} (hne : id ≠ active.jobId) : u.queue.slice id = s.queue.slice id := by
      rw [slices, if_neg hne]
    have holds' : ∀ other ∈ rest, u.queue.active? other.jobId = some other := by
      intro other hmem
      have hne : other.jobId ≠ active.jobId := fun heq =>
        hnew (List.mem_map.2 ⟨other, hmem, heq⟩)
      exact (congrArg Slice.active (others hne)).trans (holds other (List.mem_cons_of_mem _ hmem))
    obtain ⟨path, slices'⟩ := ih (move.sound sound) holds'
      (fun other hmem => overdue other (List.mem_cons_of_mem _ hmem)) hunique hrest
    refine ⟨.head move path, fun id => ?_⟩
    rw [slices']
    by_cases hid : id = active.jobId
    · have before : s.queue.slice active.jobId = ⟨some job, some active, []⟩ := by
        have key := job?_id found
        rw [← key] at found own ⊢
        exact sound.slice_active found own
      rw [hid, if_neg hnew, slices, if_pos rfl, if_pos (by simp), before, Slice.expired]
      exact (if_pos late).symm
    · simp only [List.map_cons, List.mem_cons, hid, false_or, others hid]

/-- The jobs past their deadline fail, and the other jobs are left as they are. -/
theorem expireAll_ok (sound : s.queue.Sound) (h : expireAll engine clock s = .ok r t) :
    Path engine clock scope s t ∧
      ∀ id, t.queue.slice id = (s.queue.slice id).expired clock.wall := by
  simp only [expireAll, Step.bind_eq_ok, Step.get_eq_ok] at h
  obtain ⟨_, _, ⟨rfl, rfl⟩, h⟩ := h
  have holds {active : Active} (hmem : active ∈ s.queue.active) :
      s.queue.active? active.jobId = some active := Keyed.find?_of_mem sound.active_unique hmem
  -- In whichever order they are given up, they are the same jobs, and each of them once.
  have drawn := draw_perm clock.lot (s.queue.active.filter (isExpired clock.wall))
  obtain ⟨path, slices⟩ : Path engine clock scope s t ∧ _ := expire_each sound
    (fun active hmem => holds (List.mem_filter.1 (drawn.mem_iff.1 hmem)).1)
    (fun active hmem => (List.mem_filter.1 (drawn.mem_iff.1 hmem)).2)
    ((drawn.map _).nodup_iff.2 (sound.active_unique.sublist (List.filter_sublist.map _))) h
  refine ⟨path, fun id => ?_⟩
  rw [slices]
  split
  · rfl
  next spared =>
  rw [Slice.expired]
  split
  · next job active found held =>
    split
    · next late =>
      have own : active.jobId = id := active?_jobId held
      have hmem := (Keyed.mem_of_find? held).1
      have given := drawn.mem_iff.2 (List.mem_filter.2 ⟨hmem, late⟩)
      exact absurd (List.mem_map.2 ⟨active, given, own⟩) spared
    · rfl
  · rfl

theorem expireAll_path (sound : s.queue.Sound) (h : expireAll engine clock s = .ok r t) :
    Path engine clock scope s t :=
  (expireAll_ok sound h).1

end Expire

end JobSwarm.Queue
