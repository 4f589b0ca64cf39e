import JobSwarm.Proofs.Queue.Progress
import JobSwarm.Proofs.Queue.Timeline

/-!
# The pace of progress

Progress of a job is announced at most once in an interval of the steady clock. A snapshot that
comes too early for that still counts: the record takes it, and only its announcement is left out.
What is too early depends on the announcements of that job alone.

Results:

* `Slice.Turn.paced`: a turn announces progress only when the interval is over.
* `handle_progress_taken`, `handle_progress_ignored`: what becomes of a snapshot.
* `Timeline.progress_paced`: the pace all through a timeline, and when a snapshot is announced.
-/

namespace JobSwarm

open Event (Notice)
open Time (Instant Clock)

/-- Whether a snapshot counts for a job. -/
def Job.Takes (job : Job) (snapshot : Engine.Snapshot) : Prop :=
  job.status = .running ∧ ¬snapshot.bytesProcessed < job.progress.bytesProcessed

namespace Queue

open Log

/-- The least time between two announcements of progress, in nanoseconds. -/
def Config.progressInterval (config : Config) : Nat :=
  Time.perMilli * config.progressIntervalMs.toNat

/-- When progress of a job was announced, on the steady clock, the last time first. -/
def progressTimes (id : Job.Id) (moments : List Moment) : List Nat :=
  moments.flatMap fun moment =>
    ((moment.story id).filterMap progress?).map fun _ => moment.clock.steady

/-! ## Turns -/

/-- Announcements of progress that keep the pace, the last of which is remembered. -/
structure Slice.Paced (config : Config) (slice : Slice) (times : List Nat) : Prop where
  spaced : times.Pairwise fun later earlier => earlier + config.progressInterval ≤ later
  remembered : ∀ active, slice.active = some active → active.announcedAt = times.head?
  silent : (∀ job, slice.job = some job → job.status = .queued) → times = []

/-- Progress may be announced again when the interval after the last announcement is over. -/
theorem Slice.Paced.mayAnnounce_eq {config : Config} {slice : Slice} {times : List Nat}
    {active : Active} {clock : Clock} (paced : slice.Paced config times)
    (holds : slice.active = some active) (past : ∀ time ∈ times, time ≤ clock.steady) :
    mayAnnounce config active clock =
      times.head?.all (· + config.progressInterval ≤ clock.steady) := by
  rw [mayAnnounce, paced.remembered active holds]
  cases times with
  | nil => simp
  | cons last earlier =>
    have least := past last List.mem_cons_self
    have same : config.progressIntervalMs.toNat * Time.perMilli ≤ clock.steady - last ↔
        last + config.progressInterval ≤ clock.steady := by
      rw [Config.progressInterval, Nat.mul_comm]
      omega
    rw [List.head?_cons, Option.all_some, Option.all_some]
    exact decide_eq_decide.2 same

/-- The interval after all announcements is over when it is over after the last. -/
theorem Slice.Paced.later {config : Config} {slice : Slice} {times : List Nat} {now : Nat}
    (paced : slice.Paced config times)
    (due : times.head?.all (· + config.progressInterval ≤ now) = true) :
    ∀ time ∈ times, time + config.progressInterval ≤ now := by
  have spaced := paced.spaced
  cases times with
  | nil => exact fun _ hmem => absurd hmem List.not_mem_nil
  | cons last earlier =>
    have gap : last + config.progressInterval ≤ now := by simpa using due
    obtain ⟨before, -⟩ := List.pairwise_cons.1 spaced
    intro time hmem
    rcases List.mem_cons.1 hmem with rfl | hmem
    · exact gap
    · have gap' := before time hmem
      omega

/-- A turn announces progress only when the interval is over. -/
theorem Slice.Turn.paced {clock : Clock} {grounds : Slice.Grounds} {a b : Slice}
    {news : List Notice} {times : List Nat} (turn : Slice.Turn clock grounds a news b)
    (past : ∀ time ∈ times, time ≤ clock.steady) (paced : a.Paced grounds.config times) :
    b.Paced grounds.config (((news.filterMap progress?).map fun _ => clock.steady) ++ times) := by
  have ended {job : Job} (h : job.status ≠ .queued) :
      Slice.Paced grounds.config ⟨some job, none, []⟩ times :=
    ⟨paced.spaced, fun _ h => (nomatch h), fun queued => absurd (queued job rfl) h⟩
  cases turn with
  | still => exact paced
  | submit =>
    obtain rfl := paced.silent fun _ h => nomatch h
    exact ⟨.nil, fun _ h => (nomatch h), fun _ => rfl⟩
  | start active status _ _ silent =>
    obtain rfl := paced.silent fun job h => by cases h; exact status
    refine ⟨.nil, fun _ h => ?_, fun _ => rfl⟩
    cases h
    exact silent
  | refuse | fail | withdraw | abandon => exact ended nofun
  | complete _ done =>
    subst done
    exact ended nofun
  | advance _ status =>
    refine ⟨paced.spaced, paced.remembered, fun queued => absurd (queued _ rfl) ?_⟩
    rw [advanced_status, status]
    nofun
  | announce _ status _ due =>
    rw [paced.mayAnnounce_eq rfl past] at due
    refine ⟨List.pairwise_cons.2 ⟨paced.later due, paced.spaced⟩, fun _ h => ?_,
      fun queued => absurd (queued _ rfl) ?_⟩
    · cases h
      rfl
    · rw [advanced_status, status]
      nofun
  | @hold _ active _ status =>
    refine ⟨paced.spaced, fun _ h => ?_, fun queued => absurd (queued _ rfl) ?_⟩
    · cases h
      exact paced.remembered active rfl
    · rw [status]
      nofun
  | @pause _ active =>
    refine ⟨paced.spaced, fun _ h => ?_, fun queued => absurd (queued _ rfl) nofun⟩
    cases h
    exact paced.remembered active rfl
  | @resume _ active _ _ _ _ _ _ own =>
    refine ⟨paced.spaced, fun _ h => ?_, fun queued => absurd (queued _ rfl) nofun⟩
    cases h
    rw [own]
    exact paced.remembered active rfl

/-! ## Snapshots -/

section Snapshots

variable {σ : Type} {engine : Engine σ} {clock : Clock} {s t : Scene σ} {id : Job.Id} {job : Job}
  {active : Active} {snapshot : Engine.Snapshot}

/-- Telling of progress ends as taking it in ends. -/
theorem handle_progress (h : takeProgress id snapshot clock s = .ok () t) :
    handle engine clock (.progress id snapshot) s = .ok (.ok ()) t := by
  simp only [handle, react, Step.bind_eq_ok, Step.pure_eq_ok]
  exact ⟨.ok (), t, ⟨(), t, h, rfl, rfl⟩, by simp [passFollows, Step.pure_eq_ok]⟩

/-- A snapshot that does not count changes nothing. -/
theorem handle_progress_ignored
    (ignored : ∀ job, s.queue.job? id = some job → ¬job.Takes snapshot) :
    handle engine clock (.progress id snapshot) s = .ok (.ok ()) s := by
  refine handle_progress ?_
  rw [takeProgress, Step.get_bind]
  cases found : s.queue.job? id with
  | none => rfl
  | some job =>
    cases holds : s.queue.active? id with
    | none => rfl
    | some active =>
      dsimp only
      rw [if_neg (show ¬(_ ∧ _) from ignored job found)]
      rfl

/-- A snapshot that counts changes the record, and is announced when the interval is over. -/
theorem handle_progress_taken (found : s.queue.job? id = some job)
    (holds : s.queue.active? id = some active) (takes : job.Takes snapshot) :
    handle engine clock (.progress id snapshot) s = .ok (.ok ())
      (if mayAnnounce s.queue.config active clock then
        { s with
          toSession := s.toSession.tell
            (.progressUpdated id (advanced job snapshot clock.wall).progress)
          queue := (s.queue.putJob (advanced job snapshot clock.wall)).modifyActive id
            fun active => { active with announcedAt := some clock.steady } }
      else { s with queue := s.queue.putJob (advanced job snapshot clock.wall) }) := by
  refine handle_progress ?_
  rw [takeProgress, Step.get_bind, found, holds]
  dsimp only
  rw [if_pos (show _ ∧ _ from takes)]
  split
  · simp only [Step.bind_eq_ok, Scene.modifyQueue_eq_ok, Scene.announce_eq_ok]
    exact ⟨(), _, rfl, (), _, rfl, rfl⟩
  · simp only [Step.bind_eq_ok, Scene.modifyQueue_eq_ok, Step.pure_eq_ok]
    exact ⟨(), _, rfl, trivial, rfl⟩

/-- Where no progress is heard of, none is announced. -/
theorem Path.untold {scope : Scope} (path : Path engine clock scope s t) (sound : s.queue.Sound)
    (silent : scope.advancing = false) :
    (t.story id).filterMap progress? = (s.story id).filterMap progress? := by
  refine path.keeps_within (fun _ log => log.filterMap progress? = (s.story id).filterMap progress?)
    id sound (fun {_ _ _ news _} turn within _ before => ?_) rfl
  have none : news.filterMap progress? = [] := by
    cases turn with
    | announce _ _ _ _ may =>
      rw [within.advancing, silent] at may
      cases may
    | still | submit | start | refuse | advance | hold | complete | fail | withdraw | abandon
    | pause | resume => rfl
  rw [List.filterMap_append, none, List.append_nil, before]

/-- Progress of a job is announced only for a snapshot that counts for it. -/
theorem handle_untold {message : Message} {reply : Reply} (sound : s.queue.Sound)
    (fresh : message.IsFresh s.queue) (call : handle engine clock message s = .ok reply t)
    (ignored : ∀ snapshot job, message = .progress id snapshot → s.queue.job? id = some job →
      ¬job.Takes snapshot) :
    (t.story id).filterMap progress? = (s.story id).filterMap progress? := by
  cases message with
  | progress own snapshot =>
    by_cases taken : ∃ job, s.queue.job? own = some job ∧ job.Takes snapshot
    · obtain ⟨job, found, takes⟩ := taken
      obtain ⟨active, holds, -⟩ := sound.holds_of_running found takes.1
      have other : id ≠ own := fun same => ignored snapshot job (same ▸ rfl) (same ▸ found) takes
      rw [handle_progress_taken found holds takes] at call
      cases call
      split
      · rw [Swarm.Session.story_tell rfl, if_neg other]
      · rfl
    · have none : ∀ job, s.queue.job? own = some job → ¬job.Takes snapshot :=
        fun job found takes => taken ⟨job, found, takes⟩
      rw [handle_progress_ignored none] at call
      cases call
      rfl
  | submit | cancel | pause | resume | finished | schedule =>
    have path : Path engine clock { starting := true, advancing := false } s t :=
      handle_within sound rfl (fun h => by cases h) fresh Message.isHeard_of_any call
    exact path.untold sound rfl

end Snapshots

/-! ## Timelines -/

/-- Whether the steady clock has not gone back. -/
def Onward (earlier later : Clock) : Prop :=
  earlier.steady ≤ later.steady

instance : DecidableRel Onward := fun a b => inferInstanceAs (Decidable (a.steady ≤ b.steady))

/-- Whether at a moment a snapshot counted for a job. -/
def Moment.Takes (moment : Moment) (id : Job.Id) : Prop :=
  ∃ snapshot job, moment.message = some (.progress id snapshot) ∧
    moment.before.job? id = some job ∧ job.Takes snapshot

namespace Timeline

variable {σ : Type} {engine : Engine σ} {config : Config} {swarm : Swarm} {state : σ}
  {moments : List Moment} {s : Scene σ} {id : Job.Id}

/-- Progress keeps its pace, and was announced in the past. -/
theorem paced (timeline : Timeline engine Onward (.initial config swarm state) moments s) :
    (s.queue.slice id).Paced config (progressTimes id moments) ∧
      ∀ clock, Follows Onward moments clock →
        ∀ time ∈ progressTimes id moments, time ≤ clock.steady := by
  refine timeline.keeps (P := fun moments slice => slice.Paced config (progressTimes id moments) ∧
      ∀ clock, Follows Onward moments clock →
        ∀ time ∈ progressTimes id moments, time ≤ clock.steady)
    (fun moments clock slice log =>
      slice.Paced config (((log.filterMap progress?).map fun _ => clock.steady) ++
        progressTimes id moments) ∧
      ∀ time ∈ progressTimes id moments, time ≤ clock.steady)
    (sound_initial config) ?_ ?_ ?_ ?_
  · exact ⟨⟨.nil, fun _ h => (nomatch h), fun _ => rfl⟩,
      fun _ _ _ hmem => absurd hmem List.not_mem_nil⟩
  · exact fun pace _ before => ⟨before.1, before.2 _ pace⟩
  · intro moments clock message grounds a news b log turn within fits before
    obtain ⟨paced, past⟩ := before
    refine ⟨?_, past⟩
    have settings : grounds.config = config := within.config
    rw [← settings] at paced ⊢
    have next := turn.paced (fun time hmem => ?_) paced
    · -- all that is announced at one moment is announced at one time
      rwa [← List.append_assoc, List.map_const', List.map_const', List.replicate_append_replicate,
        Nat.add_comm, ← List.length_append, ← List.filterMap_append, ← List.map_const'] at next
    rcases List.mem_append.1 hmem with hmem | hmem
    · obtain ⟨_, -, rfl⟩ := List.mem_map.1 hmem
      exact le_rfl
    · exact past time hmem
  · intro moments moment pace after
    obtain ⟨paced, past⟩ := after
    refine ⟨paced, fun clock later time hmem => ?_⟩
    have onward : moment.clock.steady ≤ clock.steady := later moment rfl
    rcases List.mem_append.1 hmem with hmem | hmem
    · obtain ⟨_, -, rfl⟩ := List.mem_map.1 hmem
      exact onward
    · exact (past time hmem).trans onward

/-- A moment at which no progress is announced leaves the times as they are. -/
theorem progressTimes_of_same {t : Scene σ} {moment : Moment}
    (said : t.announced = s.announced ++ moment.news)
    (same : (t.story id).filterMap progress? = (s.story id).filterMap progress?) :
    progressTimes id (moment :: moments) = progressTimes id moments := by
  rw [story_eq said, List.filterMap_append, List.append_right_eq_self] at same
  rw [progressTimes, List.flatMap_cons, Moment.story, same]
  rfl

/-- No progress of a job was announced before a snapshot counted for it. -/
theorem untold {Pace : Clock → Clock → Prop}
    (timeline : Timeline engine Pace (.initial config swarm state) moments s)
    (ignored : ∀ moment ∈ moments, ¬moment.Takes id) : progressTimes id moments = [] := by
  induction timeline with
  | begins => rfl
  | handles past pace fresh call said ih =>
    have sound := (past.run.sound (sound_initial config)).1
    rw [progressTimes_of_same said]
    · exact ih fun moment hmem => ignored moment (List.mem_cons_of_mem _ hmem)
    · exact handle_untold sound fresh call fun snapshot job told found takes =>
        ignored _ List.mem_cons_self ⟨snapshot, job, congrArg some told, found, takes⟩
  | @drains moments s t clock news past pace call said ih =>
    have sound := (past.run.sound (sound_initial config)).1
    have path : Path engine clock { starting := false, advancing := false } s t :=
      drain_path sound call
    rw [progressTimes_of_same said (path.untold sound rfl)]
    exact ih fun moment hmem => ignored moment (List.mem_cons_of_mem _ hmem)
  | waits _ _ _ ih => exact ih ignored

/-- Announcements of the progress of a job are at least an interval apart. A snapshot that counts
for a job changes its record, and is announced unless the interval after the last announcement for
that job is not over; before the first that counts there is none. A snapshot that does not count
changes nothing, and no snapshot changes anything for another job. -/
theorem progress_paced
    (timeline : Timeline engine Onward (.initial config swarm state) moments s) (id : Job.Id) :
    (progressTimes id moments).Pairwise
      (fun later earlier => earlier + config.progressInterval ≤ later) ∧
    ((∀ moment ∈ moments, ¬moment.Takes id) → progressTimes id moments = []) ∧
    ∀ clock snapshot, Follows Onward moments clock →
      ∃ t, handle engine clock (.progress id snapshot) s = .ok (.ok ()) t ∧
        (∀ other, other ≠ id → t.queue.slice other = s.queue.slice other) ∧
        ((∀ job, s.queue.job? id = some job → ¬job.Takes snapshot) → t = s) ∧
        ∀ job, s.queue.job? id = some job → job.Takes snapshot →
          t.queue.job? id = some (advanced job snapshot clock.wall) ∧
          t.announced = s.announced ++
            if (progressTimes id moments).head?.all (· + config.progressInterval ≤ clock.steady)
            then [.progressUpdated id (advanced job snapshot clock.wall).progress] else [] := by
  obtain ⟨paced, past⟩ : (s.queue.slice id).Paced config (progressTimes id moments) ∧ _ :=
    timeline.paced
  refine ⟨paced.spaced, timeline.untold, fun clock snapshot pace => ?_⟩
  obtain ⟨sound, same, -⟩ := timeline.run.sound (sound_initial config)
  by_cases taken : ∃ job, s.queue.job? id = some job ∧ job.Takes snapshot
  · obtain ⟨job, found, takes⟩ := taken
    obtain ⟨active, holds, -⟩ := sound.holds_of_running found takes.1
    have own := job?_id found
    refine ⟨_, handle_progress_taken found holds takes, fun other hne => ?_,
      fun none => absurd takes (none job found), fun job' found' _ => ?_⟩
    · split
      · refine Eq.trans (slice_modifyActive fun _ => rfl) ?_
        simp [slice_putJob, own, hne]
      · simp [slice_putJob, own, hne]
    · obtain rfl : job = job' := Option.some_inj.1 (found.symm.trans found')
      have due : mayAnnounce s.queue.config active clock =
          (progressTimes id moments).head?.all (· + config.progressInterval ≤ clock.steady) := by
        rw [same]
        exact paced.mayAnnounce_eq holds (past clock pace)
      have record : (s.queue.putJob (advanced job snapshot clock.wall)).job? id =
          some (advanced job snapshot clock.wall) := by
        rw [← own] at found ⊢
        exact job?_putJob_self s.queue (advanced job snapshot clock.wall) job found
      rw [due]
      split
      · exact ⟨record, rfl⟩
      · exact ⟨record, (List.append_nil _).symm⟩
  · have none : ∀ job, s.queue.job? id = some job → ¬job.Takes snapshot :=
      fun job found takes => taken ⟨job, found, takes⟩
    exact ⟨s, handle_progress_ignored none, fun _ _ => rfl, fun _ => rfl,
      fun job found takes => absurd takes (none job found)⟩

/-- A job tells of its first snapshot, not of the next, is paused and goes on. Half a second after
the first it tells of a third. -/
theorem progress_paced_of_three :
    ∃ moments s, Timeline Engine.Stub.engine Onward
        (.initial {} loneSwarm Engine.Stub.standard) moments s ∧
      (s.queue.job? ⟨1⟩).map (·.progress.bytesProcessed) = some 20 ∧
      progressTimes ⟨1⟩ moments = [1] ∧
      ∃ t, handle Engine.Stub.engine (.epoch 500000001) (.progress ⟨1⟩ ⟨30, none⟩) s =
          .ok (.ok ()) t ∧
        t.announced.length = s.announced.length + 1 := by
  have played : (recount Engine.Stub.engine Onward
      [(.epoch 0, .submit ⟨1⟩ { targetPath := "notes" } .normal),
        (.epoch 1, .progress ⟨1⟩ ⟨10, none⟩), (.epoch 2, .progress ⟨1⟩ ⟨20, none⟩),
        (.epoch 3, .pause ⟨1⟩), (.epoch 400000000, .resume ⟨1⟩)] []
      (.initial {} loneSwarm Engine.Stub.standard)).any (fun (moments, s) =>
        (s.queue.job? ⟨1⟩).any (fun job => job.status = .running ∧
          job.progress.bytesProcessed = 20) = true ∧
        progressTimes ⟨1⟩ moments = [1] ∧
        moments.head?.map (·.clock.steady) = some 400000000) = true := by
    decide +kernel
  obtain ⟨⟨moments, s⟩, h, facts⟩ := (Option.any_eq_true _ _).1 played
  obtain ⟨known, times, last⟩ := of_decide_eq_true facts
  obtain ⟨job, found, facts⟩ := (Option.any_eq_true _ _).1 known
  obtain ⟨running, bytes⟩ := of_decide_eq_true facts
  have timeline : Timeline Engine.Stub.engine Onward
      (.initial {} loneSwarm Engine.Stub.standard) moments s :=
    of_recount .begins (sound_initial _) h
  have pace : Follows Onward moments (.epoch 500000001) := by
    intro moment hmem
    have time : moment.clock.steady = 400000000 := by
      rw [Option.mem_def.1 hmem] at last
      exact Option.some_inj.1 last
    exact time.trans_le (by decide)
  obtain ⟨-, -, next⟩ := Timeline.progress_paced timeline ⟨1⟩
  obtain ⟨t, call, -, -, taken⟩ := next (.epoch 500000001) ⟨30, none⟩ pace
  have takes : job.Takes ⟨30, none⟩ := ⟨running, by rw [bytes]; decide⟩
  obtain ⟨-, said⟩ := taken job found takes
  refine ⟨moments, s, timeline, by rw [found, Option.map_some, bytes], times, t, call, ?_⟩
  rw [said, times, if_pos (by decide), List.length_append]
  rfl

end Timeline

end Queue

end JobSwarm
