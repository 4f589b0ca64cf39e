import JobSwarm.Proofs.Queue.Order
import JobSwarm.Proofs.Queue.Timeline
import JobSwarm.Proofs.Time.Instant

/-!
# Time to run

A job may run for so long, and is given up by the first pass after that. The queue keeps this as a
deadline on the wall clock, which it puts off at the end of each pause by the length of the pause on
the steady clock. Where both clocks go together, that comes to counting the time in which the job
runs.

Results:

* `pass_gives_up`, `pass_spares`: what a pass does to the record of a job.
* `Slice.Turn.timed`: what each turn does to the deadline.
* `Timeline.timed_out_iff`: a pass gives up a job exactly when it runs and has run for too long.
-/

namespace JobSwarm

open Event (Notice)
open Time (Instant Clock)

namespace Queue

variable {σ : Type} {engine : Engine σ} {clock : Clock} {s t : Scene σ} {id : Job.Id}
  {job done : Job} {active : Active}

/-! ## What a pass gives up -/

theorem head?_append {first : String} {letter : Char} (h : first.toList.head? = some letter)
    (second : String) : (first ++ second).toList.head? = some letter := by
  rw [String.toList_append, List.head?_append, h]
  rfl

theorem timeoutReason_head? (seconds : UInt64) :
    (timeoutReason seconds).toList.head? = some 't' :=
  head?_append (head?_append (by decide : "timed out after ".toList.head? = some 't') _) _

theorem message_head? (refusal : Engine.Error) :
    refusal.message.toList.head? = some 'u' ∨ refusal.message.toList.head? = some 'e' := by
  cases refusal with
  | unknownHandle =>
    exact .inl (head?_append (by decide : "unknown engine run ".toList.head? = some 'u') _)
  | start =>
    exact .inr (head?_append (by decide : "engine refused to start: ".toList.head? = some 'e') _)
  | backend => exact .inr (head?_append (by decide : "engine failure: ".toList.head? = some 'e') _)

/-- An engine refuses for another reason than that time is over. -/
theorem message_ne_timeoutReason (refusal : Engine.Error) (seconds : UInt64) :
    refusal.message ≠ timeoutReason seconds := by
  intro same
  have letter : refusal.message.toList.head? = some 't' := same ▸ timeoutReason_head? seconds
  rcases message_head? refusal with other | other
  · exact absurd (other.symm.trans letter) (by decide)
  · exact absurd (other.symm.trans letter) (by decide)

/-- Whether a record does not say newly that a job has run for too long: it is the one before, or
the job has not failed, or the engine has refused to start it. -/
def NotLate (before : Option Job) (done : Job) : Prop :=
  before = some done ∨ done.status ≠ .failed ∨
    ∃ refusal : Engine.Error, done.error = some refusal.message

/-- A queued job fails in one turn only if the engine refuses to start it. -/
theorem Slice.Turn.spares {grounds : Slice.Grounds} {a b : Slice} {news : List Notice}
    (turn : Slice.Turn clock grounds a news b) (h : a.job = some job)
    (queued : job.status = .queued) (h' : b.job = some done) : NotLate (some job) done := by
  cases turn with
  | still => exact .inl (h.symm.trans h')
  | submit => cases h
  | start | withdraw =>
    cases h'
    exact .inr (.inl nofun)
  | refuse _ refusal =>
    cases h'
    exact .inr (.inr ⟨refusal, rfl⟩)
  | advance _ status | announce _ status | hold _ status | complete status | fail _ status
  | pause status | resume _ status =>
    cases h
    rw [queued] at status
    cases status
  | abandon status =>
    cases h
    rw [queued] at status
    rcases status with status | status <;> cases status

/-- A look at a queued job gives up no job. -/
theorem Trial.spares {blocked blocked' : List String}
    (trial : Trial engine clock s blocked job blocked' t) (sound : s.queue.Sound)
    (found : s.queue.job? job.id = some job) (queued : job.status = .queued)
    (found' : t.queue.job? id = some done) : NotLate (s.queue.job? id) done := by
  cases trial with
  | full | waits | wants => exact .inl found'
  | begins _ _ _ _ move _ _ _ others =>
    by_cases own : id = job.id
    · subst own
      obtain ⟨_, turn, -⟩ := (move true rfl).turn sound job.id
      rw [found]
      exact turn.spares found queued found'
    · exact .inl ((congrArg Slice.job (others id own)).symm.trans found')

/-- The looks of a pass give up no job. -/
theorem Looks.spares {base m : Scene σ} {before after : List Pending} {blocked : List String}
    (looks : Looks engine clock base before after blocked m) (sound : base.queue.Sound)
    (found : m.queue.job? id = some done) : NotLate (base.queue.job? id) done := by
  induction before using List.reverseRecOn generalizing after blocked m with
  | nil =>
    obtain ⟨-, rfl⟩ := Step.pure_eq_ok.1 looks.2
    exact .inl found
  | append_singleton before entry ih =>
    obtain ⟨blocked', m', looks', hlast⟩ := looks.last
    have passing := looks'.passing sound
    have sound' := Path.sound passing.path sound
    obtain ⟨job, known, queued, rfl⟩ := sound'.mem_pending_iff.1
      (passing.ahead entry List.mem_cons_self)
    rcases (consider_trial known queued hlast).spares sound' known queued found with same | other
    · exact ih looks' same
    · exact .inr other

/-- A pass gives up the jobs that are past their deadline. -/
theorem pass_gives_up {r : Unit} (sound : s.queue.Sound) (call : pass engine clock s = .ok r t)
    (found : s.queue.job? id = some job) (holds : s.queue.active? id = some active)
    (late : isExpired clock.wall active = true) :
    t.queue.job? id = some (job.failed (timeoutReason active.timeoutSecs) clock.wall) := by
  obtain ⟨base, blocked, ⟨v, _, session, hexpire, hrecover, rfl⟩, looks⟩ := pass_looks call
  obtain ⟨path, slices⟩ : Path engine clock true s v ∧ _ := expireAll_ok sound hexpire
  have failed : v.queue.job? id =
      some (job.failed (timeoutReason active.timeoutSecs) clock.wall) := by
    have slice : s.queue.slice id = ⟨some job, some active, _⟩ := Slice.ext found holds rfl
    refine (congrArg Slice.job (slices id)).trans ?_
    rw [slice, Slice.expired]
    exact congrArg Slice.job (if_pos late)
  -- a job that has failed is not looked at again
  have sound' : v.queue.Sound := path.sound sound
  refine (looks.passing sound').path.keeps (fun slice _ => slice.job =
    some (job.failed (timeoutReason active.timeoutSecs) clock.wall)) id sound' (fun turn h => ?_)
    failed
  rw [(turn.of_ended h rfl).2]
  exact h

/-- A pass gives up no other job. -/
theorem pass_spares {r : Unit} (sound : s.queue.Sound) (call : pass engine clock s = .ok r t)
    (early : ∀ active, s.queue.active? id = some active → isExpired clock.wall active = false)
    (found : t.queue.job? id = some done) : NotLate (s.queue.job? id) done := by
  obtain ⟨base, blocked, ⟨v, _, session, hexpire, hrecover, rfl⟩, looks⟩ := pass_looks call
  obtain ⟨path, slices⟩ : Path engine clock true s v ∧ _ := expireAll_ok sound hexpire
  have spared : NotLate (v.queue.job? id) done := looks.spares (path.sound sound) found
  have same : v.queue.job? id = s.queue.job? id := by
    refine (congrArg Slice.job (slices id)).trans ?_
    rw [Slice.expired]
    split
    · next active _ held => rw [early active held, if_neg Bool.false_ne_true]; rfl
    · rfl
  rwa [same] at spared

/-- Whether a job fails from one scene to another for having run for too long. -/
def TimesOut (s t : Scene σ) (id : Job.Id) : Prop :=
  ∃ job done, s.queue.job? id = some job ∧ job.status ≠ .failed ∧ t.queue.job? id = some done ∧
    done.status = .failed ∧ done.error = some (timeoutReason (s.queue.timeoutOf job.config))

theorem not_timesOut_of_early {r : Unit} (sound : s.queue.Sound)
    (call : pass engine clock s = .ok r t)
    (early : ∀ active, s.queue.active? id = some active → isExpired clock.wall active = false) :
    ¬TimesOut s t id := by
  rintro ⟨job, done, found, going, found', failed, reason⟩
  have spared := pass_spares sound call early found'
  rw [found] at spared
  rcases spared with same | other | ⟨refusal, refused⟩
  · obtain rfl := Option.some_inj.1 same
    exact going failed
  · exact other failed
  · exact message_ne_timeoutReason refusal _ (Option.some_inj.1 (refused.symm.trans reason))

theorem timesOut_of_late {r : Unit} (sound : s.queue.Sound) (call : pass engine clock s = .ok r t)
    (found : s.queue.job? id = some job) (running : job.status = .running)
    (holds : s.queue.active? id = some active) (late : isExpired clock.wall active = true)
    (limit : active.timeoutSecs = s.queue.timeoutOf job.config) : TimesOut s t id := by
  refine ⟨job, _, found, ?_, pass_gives_up sound call found holds late, rfl, limit ▸ rfl⟩
  rw [running]
  nofun

/-! ## Deadlines -/

/-- Whether a deadline is that of a job that began at `begun`, may run for `limit` nanoseconds, and
has been put off by `rested` nanoseconds. -/
structure DueAt (begun : Instant) (limit rested : Nat) (deadline : Instant) : Prop where
  /-- The deadline is as late as it should be, if there is such an instant. -/
  sum : ∀ due, begun.add? (limit + rested : Nat) = some due → deadline = due
  never : begun.add? limit = none → deadline = .last

/-- A deadline is put off by the length of a pause. -/
theorem DueAt.put_off {begun deadline : Instant} {limit rested : Nat}
    (due : DueAt begun limit rested deadline) (pause : Nat) :
    DueAt begun limit (rested + pause) ((deadline.add? pause).getD deadline) where
  sum later h := by
    have whole : (begun.add? (limit + (rested + pause) : Nat)).isSome := by rw [h]; rfl
    have earlier : (begun.add? (limit + rested : Nat)).isSome :=
      Instant.add?_of_le whole (by omega) (by omega)
    obtain ⟨before, hbefore⟩ := Option.isSome_iff_exists.1 earlier
    have next : before.add? pause = some later := by
      rw [Instant.add?_add? hbefore, ← h]
      congr 1
      omega
    rw [due.sum before hbefore, next]
    rfl
  never h := by
    rw [due.never h]
    exact Instant.last_add? pause

/-- How a job that holds something stands: it began at `begun`, has run for `ran` nanoseconds, has
rested for `rested` in pauses that are over and for `pause` in one that is not. -/
structure Active.Timed (active : Active) (begun : Instant) (clock : Clock)
    (ran rested pause : Nat) : Prop where
  wall : clock.wall.toNanos = begun.toNanos + ran + rested + pause
  due : DueAt begun (active.timeoutSecs.toNat * Time.perSecond) rested active.task.deadline
  awake : active.pausedAt = none → pause = 0
  asleep : ∀ since, active.pausedAt = some since → clock.steady = since + pause

/-- How a job stands: for how long it has run, and for how long it has rested. -/
structure Slice.Timed (config : Config) (clock : Clock) (ran rested : Nat) (slice : Slice) :
    Prop where
  fresh : (∀ job, slice.job = some job → job.status = .queued) → ran = 0 ∧ rested = 0
  unbegun : ∀ job, slice.job = some job → job.status = .queued → job.startedAt = none
  begun : ∀ job active, slice.job = some job → slice.active = some active →
    active.timeoutSecs = job.config.timeoutSecs.getD config.defaultTimeoutSecs ∧
      ∃ begun past pause, job.startedAt = some begun ∧ rested = past + pause ∧
        active.Timed begun clock ran past pause

namespace Slice.Timed

variable {config : Config} {ran rested : Nat} {slice : Slice}

theorem ended (h : job.status ≠ .queued) :
    Slice.Timed config clock ran rested ⟨some job, none, []⟩ where
  fresh queued := absurd (queued job rfl) h
  unbegun _ h' queued := by
    cases h'
    exact absurd queued h
  begun _ _ _ h' := nomatch h'

/-- What a job holds keeps its times. -/
theorem kept {job' : Job} {active' : Active}
    (timed : Slice.Timed config clock ran rested ⟨some job, some active, []⟩)
    (begun : job'.startedAt = job.startedAt) (same : job'.config = job.config)
    (other : job'.status ≠ .queued) (task : active'.task = active.task)
    (limit : active'.timeoutSecs = active.timeoutSecs)
    (pausedAt : active'.pausedAt = active.pausedAt) :
    Slice.Timed config clock ran rested ⟨some job', some active', []⟩ where
  fresh queued := absurd (queued job' rfl) other
  unbegun _ h' queued := by
    cases h'
    exact absurd queued other
  begun _ _ h' h'' := by
    cases h'
    cases h''
    obtain ⟨known, start, past, pause, hstart, sum, wall, due, awake, asleep⟩ :=
      timed.begun job active rfl rfl
    refine ⟨by rw [limit, known, same], start, past, pause, begun.trans hstart, sum, wall, ?_, ?_,
      ?_⟩
    · rw [limit, task]
      exact due
    · rw [pausedAt]
      exact awake
    · rw [pausedAt]
      exact asleep

end Slice.Timed

/-- A turn takes no time. -/
theorem Slice.Turn.timed {grounds : Slice.Grounds} {a b : Slice} {news : List Notice}
    {ran rested : Nat} (turn : Slice.Turn clock grounds a news b) (fits : a.Fits)
    (timed : a.Timed grounds.config clock ran rested) :
    b.Timed grounds.config clock ran rested := by
  cases turn with
  | still => exact timed
  | submit new =>
    refine ⟨fun _ => timed.fresh (fun _ h => nomatch h), fun _ h _ => ?_, fun _ _ _ h => nomatch h⟩
    cases h
    rw [new]
    rfl
  | @start job active status free _ _ limit due =>
    obtain ⟨rfl, rfl⟩ := timed.fresh fun _ h => by cases h; exact status
    have unbegun := timed.unbegun job rfl status
    refine ⟨fun queued => (nomatch queued _ rfl), fun _ h queued => ?_, fun _ _ h h' => ?_⟩
    · cases h
      cases queued
    cases h
    cases h'
    refine ⟨limit, clock.wall, 0, 0, ?_, rfl, ?_, ?_, fun _ => rfl, fun _ h => ?_⟩
    · show job.startedAt.or (some clock.wall) = _
      rw [unbegun]
      rfl
    · simp
    · refine ⟨fun later h => ?_, fun h => ?_⟩
      · rw [Nat.add_zero] at h
        rw [due, h, Option.getD_some]
      · rw [due, h, Option.getD_none]
    · rw [free] at h
      cases h
  | refuse | fail | withdraw | abandon => exact .ended nofun
  | complete _ done =>
    subst done
    exact .ended nofun
  | advance _ status | announce _ status =>
    refine timed.kept rfl rfl ?_ rfl rfl rfl
    rw [advanced_status, status]
    nofun
  | hold _ status =>
    refine timed.kept rfl rfl ?_ rfl rfl rfl
    rw [status]
    nofun
  | @pause job active status =>
    obtain ⟨_, heq, -, free, -⟩ := fits.of_running rfl status
    cases heq
    refine ⟨fun queued => (nomatch queued _ rfl), fun _ h queued => ?_, fun _ _ h h' => ?_⟩
    · cases h
      cases queued
    cases h
    cases h'
    obtain ⟨limit, start, past, pause, hstart, sum, wall, due, awake, -⟩ :=
      timed.begun job active rfl rfl
    refine ⟨limit, start, past, pause, hstart, sum, wall, due, nofun, fun since h => ?_⟩
    cases h
    rw [awake free, Nat.add_zero]
  | @resume job active _ status _ _ _ _ own =>
    obtain ⟨_, heq, -, since⟩ := fits.of_paused rfl status
    cases heq
    obtain ⟨since, hsince⟩ := Option.isSome_iff_exists.1 since
    refine ⟨fun queued => (nomatch queued _ rfl), fun _ h queued => ?_, fun _ _ h h' => ?_⟩
    · cases h
      cases queued
    cases h
    cases h'
    obtain ⟨limit, start, past, pause, hstart, sum, wall, due, -, asleep⟩ :=
      timed.begun job active rfl rfl
    have length : clock.steady - since = pause := by
      rw [asleep since hsince, Nat.add_sub_cancel_left]
    rw [own]
    refine ⟨limit, start, rested, 0, ?_, rfl, ?_, ?_, fun _ => rfl, nofun⟩
    · show job.startedAt.or (some clock.wall) = _
      rw [hstart]
      rfl
    · rw [wall, sum]
      push_cast
      omega
    · have put_off := due.put_off pause
      rw [← sum] at put_off
      simpa only [Active.resumed, hsince, Option.bind_some, length] using put_off

/-! ## Time goes on -/

/-- Whether both clocks have gone on alike. -/
def Together (earlier later : Clock) : Prop :=
  earlier.steady ≤ later.steady ∧
    later.wall.toNanos - earlier.wall.toNanos = later.steady - earlier.steady

instance : DecidableRel Together := fun a b =>
  inferInstanceAs (Decidable (a.steady ≤ b.steady ∧ _))

/-- For how long a job stood in a status up to now, on the steady clock. -/
def spent (status : Job.Status) (id : Job.Id) : Nat → List Moment → Nat
  | _, [] => 0
  | now, moment :: earlier =>
    (if (moment.after.job? id).any (·.status == status) then now - moment.clock.steady else 0) +
      spent status id moment.clock.steady earlier

/-- As time goes on, a running job has run for longer, and a paused one has rested for longer. -/
theorem Slice.Timed.onward {config : Config} {now : Clock} {ran rested : Nat} {slice : Slice}
    (timed : slice.Timed config clock ran rested) (fits : slice.Fits) (pace : Together clock now) :
    slice.Timed config now
      ((if slice.job.any (·.status == .running) then now.steady - clock.steady else 0) + ran)
      ((if slice.job.any (·.status == .paused) then now.steady - clock.steady else 0) +
        rested) := by
  obtain ⟨onward, alike⟩ := pace
  cases fits with
  | unknown =>
    obtain ⟨rfl, rfl⟩ := timed.fresh fun _ h => nomatch h
    exact ⟨fun _ => ⟨rfl, rfl⟩, timed.unbegun, fun _ _ h => nomatch h⟩
  | queued status =>
    obtain ⟨rfl, rfl⟩ := timed.fresh fun _ h => by cases h; exact status
    refine ⟨fun _ => ?_, timed.unbegun, fun _ _ _ h => nomatch h⟩
    simp [status]
  | ended status =>
    refine .ended fun queued => ?_
    rw [queued] at status
    cases status
  | @running job active status _ free =>
    refine ⟨fun queued => ?_, timed.unbegun, fun _ _ h h' => ?_⟩
    · exact absurd (status.symm.trans (queued job rfl)) nofun
    cases h
    cases h'
    obtain ⟨limit, start, past, pause, hstart, sum, wall, due, awake, asleep⟩ :=
      timed.begun job active rfl rfl
    refine ⟨limit, start, past, pause, hstart, ?_, ?_, due, awake, fun since h => ?_⟩
    · simpa [status] using sum
    · simp only [status, Option.any_some, beq_self_eq_true, if_true]
      omega
    · rw [free] at h
      cases h
  | @paused job active status _ since =>
    refine ⟨fun queued => ?_, timed.unbegun, fun _ _ h h' => ?_⟩
    · exact absurd (status.symm.trans (queued job rfl)) nofun
    cases h
    cases h'
    obtain ⟨limit, start, past, pause, hstart, sum, wall, due, awake, asleep⟩ :=
      timed.begun job active rfl rfl
    refine ⟨limit, start, past, now.steady - clock.steady + pause, hstart, ?_, ?_, due,
      fun h => ?_, fun since h => ?_⟩
    · simp only [status, Option.any_some, beq_self_eq_true, if_true]
      omega
    · simp only [status, Option.any_some]
      rw [if_neg (by decide)]
      omega
    · rw [h] at since
      cases since
    · have before := asleep since h
      omega

/-- The time that a job may run, in nanoseconds. -/
def limit (queue : Queue) (config : Job.Config) : Nat :=
  (queue.timeoutOf config).toNat * Time.perSecond

namespace Timeline

variable {config : Config} {swarm : Swarm} {state : σ} {moments : List Moment}

/-- How a job stands at the last of some moments. -/
def TimedAt (config : Config) (id : Job.Id) : List Moment → Slice → Prop
  | [], slice => slice = ⟨none, none, []⟩
  | last :: earlier, slice => last.after.slice id = slice ∧
      slice.Timed config last.clock (spent .running id last.clock.steady earlier)
        (spent .paused id last.clock.steady earlier)

theorem TimedAt.onward {slice : Slice} (timed : TimedAt config id moments slice)
    (fits : slice.Fits) (pace : Follows Together moments clock) :
    slice.Timed config clock (spent .running id clock.steady moments)
      (spent .paused id clock.steady moments) := by
  cases moments with
  | nil =>
    obtain rfl : slice = _ := timed
    exact ⟨fun _ => ⟨rfl, rfl⟩, fun _ h => (nomatch h), fun _ _ h => nomatch h⟩
  | cons last earlier =>
    obtain ⟨rfl, timed⟩ := timed
    exact timed.onward fits (pace last rfl)

/-- All along a timeline the queue keeps the time of a job. -/
theorem timed (timeline : Timeline engine Together (.initial config swarm state) moments s)
    (pace : Follows Together moments clock) :
    (s.queue.slice id).Timed config clock (spent .running id clock.steady moments)
      (spent .paused id clock.steady moments) := by
  have kept : TimedAt config id moments (s.queue.slice id) := by
    refine timeline.keeps (P := TimedAt config id) (fun moments clock slice _ =>
      slice.Timed config clock (spent .running id clock.steady moments)
        (spent .paused id clock.steady moments)) (sound_initial config) rfl ?_ ?_ ?_
    · exact fun pace fits timed => timed.onward fits pace
    · intro moments clock message grounds a news b log turn within fits timed
      have settings : grounds.config = config := within.config
      rw [← settings] at timed ⊢
      exact turn.timed fits timed
    · exact fun _ timed => ⟨rfl, timed⟩
  exact kept.onward ((timeline.run.sound (sound_initial config)).1.fits id) pace

/-- A pass follows what a queue does with a message at the reading `now` of the clock. The pass
gives up a job exactly when it runs and has run for longer than it may, pauses apart, as long as
there is such an instant as the start put off by the time that it may run and by its pauses. If that
would be beyond the last instant even without pauses, the job is never given up. No other job is
given up, and the deadline of a job that starts now is exact, or the last instant. -/
theorem timed_out_iff {now : Clock} {message : Message} {reply : Reply} {u : Scene σ}
    (timeline : Timeline engine Together (.initial config swarm state) moments s)
    (pace : Follows Together moments now) (plain : now.wall.Plain)
    (fresh : message.IsFresh s.queue) (reacts : react engine now message s = .ok reply u)
    (call : pass engine now u = .ok () t) (id : Job.Id) :
    ∀ job, u.queue.job? id = some job →
      (taskOf u.queue job now.wall).deadline.toNanos =
        min (now.wall.toNanos + u.queue.limit job.config) Instant.last.toNanos ∧
      (job.status ≠ .running → ¬TimesOut u t id) ∧
      (job.status = .running → ∃ begun, job.startedAt = some begun ∧
        ((begun.add?
            (u.queue.limit job.config + spent .paused id now.steady moments : Nat)).isSome →
          (TimesOut u t id ↔ u.queue.limit job.config < spent .running id now.steady moments)) ∧
        (begun.add? (u.queue.limit job.config) = none → ¬TimesOut u t id)) := by
  intro job found
  obtain ⟨sound, same, -⟩ := timeline.run.sound (sound_initial config)
  have path : Path engine now true s u := react_path sound fresh reacts
  have sound' : u.queue.Sound := path.sound sound
  have settings : u.queue.config = config := path.config_eq.trans same
  have timed : (u.queue.slice id).Timed config now (spent .running id now.steady moments)
      (spent .paused id now.steady moments) := by
    refine path.keeps_within (fun slice _ => slice.Timed config now _ _) id sound
      (fun {grounds _ _ _ _} turn within fits timed => ?_) (timeline.timed pace)
    have settings : grounds.config = config := within.config.trans same
    rw [← settings] at timed ⊢
    exact turn.timed fits timed
  refine ⟨Task.starting_deadline _ _ _ _, fun resting => ?_, fun running => ?_⟩
  · refine not_timesOut_of_early sound' call fun active holds => ?_
    obtain ⟨job', found', -, state⟩ := sound'.job_of_active holds
    obtain rfl : job = job' := Option.some_inj.1 (found.symm.trans found')
    rcases state with ⟨status, -⟩ | ⟨-, since⟩
    · exact absurd status resting
    · rw [isExpired, Option.isNone_eq_false_iff.2 since]
      rfl
  obtain ⟨active, holds, -, free, -⟩ := sound'.holds_of_running found running
  obtain ⟨limit, begun, past, pause, hbegun, sum, wall, due, awake, -⟩ :=
    timed.begun job active found holds
  obtain rfl : pause = 0 := awake free
  obtain rfl : spent .paused id now.steady moments = past := sum
  have own : active.timeoutSecs = u.queue.timeoutOf job.config := by
    rw [limit, Queue.timeoutOf, settings]
  rw [own] at due
  have late : isExpired now.wall active = true ↔ active.task.deadline < now.wall := by
    rw [isExpired, free]
    exact Task.isOverdue_iff _ _
  have decided : TimesOut u t id ↔ active.task.deadline < now.wall := by
    constructor
    · intro out
      by_contra early
      refine not_timesOut_of_early sound' call (fun other holds' => ?_) out
      obtain rfl := Option.some_inj.1 (holds.symm.trans holds')
      exact Bool.eq_false_iff.2 fun expired => early (late.1 expired)
    · exact fun gone => timesOut_of_late sound' call found running holds (late.2 gone) own
  refine ⟨begun, hbegun, fun some => ?_, fun beyond => ?_⟩
  · obtain ⟨deadline, hdeadline⟩ := Option.isSome_iff_exists.1 some
    rw [decided, due.sum deadline hdeadline,
      Instant.lt_iff_toNanos (Instant.plain_of_add? hdeadline) plain,
      Instant.toNanos_add? hdeadline, wall]
    push_cast
    omega
  · rw [decided, due.never beyond]
    exact Instant.not_last_lt plain

theorem pass_of_play (h : play engine [.told clock .schedule] s = some t) :
    pass engine clock s = .ok () t := by
  obtain ⟨-, reply, call⟩ := handle_of_play h
  simp only [handle, Step.bind_eq_ok] at call
  obtain ⟨_, _, hreact, call⟩ := call
  obtain ⟨rfl, rfl⟩ := Step.pure_eq_ok.1 hreact
  split at call
  · simp only [Step.bind_eq_ok, Step.pure_eq_ok] at call
    obtain ⟨_, _, hpass, -, rfl⟩ := call
    exact hpass
  · next follows => exact absurd rfl follows

/-- A job that may run for one second has paused for ten. It goes on when it has run for 900
milliseconds, and is given up when it has run for 1100. -/
theorem timed_out_iff_of_paused :
    ∃ moments s early late,
      Timeline Engine.Stub.engine Together (.initial {} loneSwarm Engine.Stub.standard) moments s ∧
      pass Engine.Stub.engine (Clock.forward (.epoch 0) 10900) s = .ok () early ∧
      ¬TimesOut s early ⟨1⟩ ∧
      pass Engine.Stub.engine (Clock.forward (.epoch 0) 11100) s = .ok () late ∧
      TimesOut s late ⟨1⟩ := by
  have played : (recount Engine.Stub.engine Together
      [(.epoch 0, .submit ⟨1⟩ { targetPath := "notes", timeoutSecs := some 1 } .normal),
        (.forward (.epoch 0) 400, .pause ⟨1⟩), (.forward (.epoch 0) 10400, .resume ⟨1⟩)] []
      (.initial {} loneSwarm Engine.Stub.standard)).any (fun (moments, s) =>
        (s.queue.job? ⟨1⟩).any (fun job => job.status = .running ∧ job.startedAt = some .epoch ∧
          s.queue.limit job.config = 1000000000) = true ∧
        spent .paused ⟨1⟩ 10900000000 moments = 10000000000 ∧
        spent .paused ⟨1⟩ 11100000000 moments = 10000000000 ∧
        spent .running ⟨1⟩ 10900000000 moments = 900000000 ∧
        spent .running ⟨1⟩ 11100000000 moments = 1100000000 ∧
        moments.head?.all (Together ·.clock (.forward (.epoch 0) 10900)) = true ∧
        moments.head?.all (Together ·.clock (.forward (.epoch 0) 11100)) = true ∧
        (play Engine.Stub.engine [.told (.forward (.epoch 0) 10900) .schedule] s).isSome ∧
        (play Engine.Stub.engine [.told (.forward (.epoch 0) 11100) .schedule] s).isSome) =
          true := by
    decide +kernel
  obtain ⟨⟨moments, s⟩, h, facts⟩ := (Option.any_eq_true _ _).1 played
  obtain ⟨known, paused, paused', ran, ran', together, together', ends, ends'⟩ :=
    of_decide_eq_true facts
  obtain ⟨job, found, facts⟩ := (Option.any_eq_true _ _).1 known
  obtain ⟨running, started, limit⟩ := of_decide_eq_true facts
  have timeline : Timeline Engine.Stub.engine Together
      (.initial {} loneSwarm Engine.Stub.standard) moments s :=
    of_recount .begins (sound_initial _) h
  have pace {now : Clock} (h : moments.head?.all (Together ·.clock now) = true) :
      Follows Together moments now := fun last hlast =>
    of_decide_eq_true ((Option.all_eq_true _ _).1 h last hlast)
  obtain ⟨early, hearly⟩ := Option.isSome_iff_exists.1 ends
  obtain ⟨late, hlate⟩ := Option.isSome_iff_exists.1 ends'
  have plain : (Clock.forward (.epoch 0) 10900).wall.nanos < Time.perSecond := by decide +kernel
  have plain' : (Clock.forward (.epoch 0) 11100).wall.nanos < Time.perSecond := by decide +kernel
  have steady : (Clock.forward (.epoch 0) 10900).steady = 10900000000 := by decide +kernel
  have steady' : (Clock.forward (.epoch 0) 11100).steady = 11100000000 := by decide +kernel
  have due : (Instant.epoch.add? (1000000000 + 10000000000 : Nat)).isSome := by decide +kernel
  have fresh : Message.IsFresh s.queue .schedule := trivial
  obtain ⟨-, -, runs⟩ := timed_out_iff timeline (pace together) plain fresh rfl
    (pass_of_play hearly) ⟨1⟩ job found
  obtain ⟨-, -, runs'⟩ := timed_out_iff timeline (pace together') plain' fresh rfl
    (pass_of_play hlate) ⟨1⟩ job found
  obtain ⟨_, started', goes_on, -⟩ := runs running
  obtain ⟨_, started'', ends_now, -⟩ := runs' running
  obtain rfl := Option.some_inj.1 (started.symm.trans started')
  obtain rfl := Option.some_inj.1 (started.symm.trans started'')
  rw [steady, paused, ran, limit] at goes_on
  rw [steady', paused', ran', limit] at ends_now
  refine ⟨moments, s, early, late, timeline, pass_of_play hearly, ?_, pass_of_play hlate, ?_⟩
  · rw [goes_on due]
    decide
  · rw [ends_now due]
    decide

end Timeline

end Queue

end JobSwarm
