import JobSwarm.Proofs.Queue.Log

/-!
# Timelines

A timeline is a run together with its times. For each message that the queue handled, and each time
that it was drained, it keeps the reading of the clock, the queue before and after, and what was
announced. How one reading follows another is left open.

Results:

* `Timeline.run`: a timeline is a run.
* `Timeline.keeps`: what holds of a job at one moment and still holds after each of its turns holds
  at the next.
-/

namespace JobSwarm.Queue

open Event (Notice)
open Time (Clock)

variable {σ : Type} {engine : Engine σ} {Pace : Clock → Clock → Prop} {start s t : Scene σ}
  {id : Job.Id}

/-- What a queue did at one reading of the clock. It handled a message, or it was drained. -/
structure Moment where
  clock : Clock
  message : Option Message
  before : Queue
  after : Queue
  /-- What was announced, oldest first. -/
  news : List Notice

/-- What was announced of a job. -/
def Moment.story (moment : Moment) (id : Job.Id) : List Notice :=
  moment.news.filter fun notice => notice.jobId? == some id

/-- Whether a reading of the clock may follow those of some moments, the last of which stands
first. -/
def Follows (Pace : Clock → Clock → Prop) (moments : List Moment) (clock : Clock) : Prop :=
  ∀ last ∈ moments.head?, Pace last.clock clock

/-- A run from one scene to another, with its moments, the last first. -/
inductive Timeline (engine : Engine σ) (Pace : Clock → Clock → Prop) (start : Scene σ) :
    List Moment → Scene σ → Prop
  | begins : Timeline engine Pace start [] start
  | handles {moments : List Moment} {s t : Scene σ} {clock : Clock} {message : Message}
      {reply : Reply} {news : List Notice} (past : Timeline engine Pace start moments s)
      (pace : Follows Pace moments clock) (fresh : message.IsFresh s.queue)
      (call : handle engine clock message s = .ok reply t)
      (said : t.announced = s.announced ++ news) :
      Timeline engine Pace start (⟨clock, some message, s.queue, t.queue, news⟩ :: moments) t
  | drains {moments : List Moment} {s t : Scene σ} {clock : Clock} {news : List Notice}
      (past : Timeline engine Pace start moments s) (pace : Follows Pace moments clock)
      (call : drain engine clock s = .ok () t) (said : t.announced = s.announced ++ news) :
      Timeline engine Pace start (⟨clock, none, s.queue, t.queue, news⟩ :: moments) t
  /-- Others use the swarm and the engine. -/
  | waits {moments : List Moment} {s : Scene σ} (past : Timeline engine Pace start moments s)
      (swarm : Swarm) (engineState : σ) :
      Timeline engine Pace start moments { s with swarm := swarm, engineState := engineState }

namespace Timeline

variable {moments : List Moment}

theorem run (timeline : Timeline engine Pace start moments s) : Run engine start s := by
  induction timeline with
  | begins => exact .refl
  | handles _ _ fresh call _ ih => exact ih.tail (.handles _ _ fresh call)
  | drains _ _ call _ ih => exact ih.tail (.drains _ call)
  | waits _ swarm engineState ih => exact ih.tail (.waits swarm engineState)

theorem story_eq {news : List Notice} (said : t.announced = s.announced ++ news) :
    t.story id = s.story id ++ news.filter fun notice => notice.jobId? == some id := by
  rw [Swarm.Session.story, said, List.filter_append]
  rfl

/-- The scope of a moment: progress is heard of when a message tells of it. -/
def scope (message : Option Message) : Scope :=
  { starting := true, advancing := message.any (·.isProgress) }

/-- Let something hold of a job at the beginning. If, whenever it holds of a job at one moment, what
holds of its slice and what is announced at the next is kept by each turn, and gives the same at the
end, then it holds of the job all along. -/
theorem keeps {P : List Moment → Slice → Prop}
    (Q : List Moment → Clock → Slice → List Notice → Prop)
    (timeline : Timeline engine Pace start moments s) (sound : start.queue.Sound)
    (first : P [] (start.queue.slice id))
    (enter : ∀ {moments clock slice}, Follows Pace moments clock → slice.Fits → P moments slice →
      Q moments clock slice [])
    (turns : ∀ {moments clock message grounds a news b log}, Slice.Turn clock grounds a news b →
      grounds.Within (scope message) start.queue.config id → a.Fits → Q moments clock a log →
      Q moments clock b (log ++ news))
    (leave : ∀ {moments} {moment : Moment}, Follows Pace moments moment.clock →
      Q moments moment.clock (moment.after.slice id) (moment.story id) →
      P (moment :: moments) (moment.after.slice id)) :
    P moments (s.queue.slice id) := by
  have along {moments : List Moment} {s t : Scene σ} {clock : Clock} {message : Option Message}
      {news : List Notice} (past : Timeline engine Pace start moments s)
      (pace : Follows Pace moments clock) (path : Path engine clock (scope message) s t)
      (said : t.announced = s.announced ++ news) (h : P moments (s.queue.slice id)) :
      P (⟨clock, message, s.queue, t.queue, news⟩ :: moments) (t.queue.slice id) := by
    obtain ⟨sound', config, -⟩ := past.run.sound sound
    have kept := path.keeps_within (fun slice log => ∃ news, log = s.story id ++ news ∧
        Q moments clock slice news) id sound'
      (fun turn within fits before => ?_)
      ⟨[], (List.append_nil _).symm, enter pace (sound'.fits id) h⟩
    · obtain ⟨news', said', kept⟩ := kept
      rw [story_eq said] at said'
      obtain rfl := List.append_cancel_left said'
      exact leave pace kept
    obtain ⟨news, rfl, before⟩ := before
    rw [config] at within
    exact ⟨_, List.append_assoc _ _ _, turns turn within fits before⟩
  induction timeline with
  | begins => exact first
  | handles past pace fresh call said ih =>
    refine along past pace ?_ said ih
    exact handle_within (past.run.sound sound).1 rfl (fun h => h) fresh Message.isHeard_of_any call
  | drains past pace call said ih =>
    exact along past pace (drain_path (past.run.sound sound).1 call) said ih
  | waits _ _ _ ih => exact ih

/-! ## Computed timelines -/

/-- The moments at which some messages are handled, and the scene afterwards, unless a job is not
new, a reading of the clock may not follow the one before, or a sum does not fit. -/
def recount (engine : Engine σ) (Pace : Clock → Clock → Prop) [DecidableRel Pace] :
    List (Clock × Message) → List Moment → Scene σ → Option (List Moment × Scene σ)
  | [], moments, s => some (moments, s)
  | (clock, message) :: rest, moments, s =>
    if message.IsFresh s.queue ∧ moments.head?.all (Pace ·.clock clock) then
      match handle engine clock message s with
      | .ok _ t =>
        let news := t.announced.drop s.announced.length
        recount engine Pace rest (⟨clock, some message, s.queue, t.queue, news⟩ :: moments) t
      | .error .. => none
    else none

/-- What is computed is a timeline. -/
theorem of_recount [DecidableRel Pace] {inputs : List (Clock × Message)} {moments' : List Moment}
    (past : Timeline engine Pace start moments s) (sound : start.queue.Sound)
    (h : recount engine Pace inputs moments s = some (moments', t)) :
    Timeline engine Pace start moments' t := by
  induction inputs generalizing moments s with
  | nil =>
    cases h
    exact past
  | cons input rest ih =>
    obtain ⟨clock, message⟩ := input
    rw [recount] at h
    split at h
    · next fits =>
      split at h
      · next reply u call =>
        have path := handle_path (past.run.sound sound).1 fits.1 call
        obtain ⟨news, said, -⟩ := path.said
        have drop : u.announced.drop s.announced.length = news := by
          rw [said, List.drop_left]
        refine ih (.handles past (fun last hlast => ?_) fits.1 call (drop ▸ said)) h
        exact of_decide_eq_true (Option.all_eq_true _ _ |>.1 fits.2 last hlast)
      · cases h
    · cases h

end Timeline

end JobSwarm.Queue
