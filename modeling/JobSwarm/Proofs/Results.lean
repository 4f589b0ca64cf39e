import JobSwarm.Proofs.Fleet
import JobSwarm.Proofs.Queue.Work

/-!
# Results of queues and counts of agents

The agents of a swarm count how their tasks ended, and the queues that share the swarm keep the
records of the jobs. Each queue has an engine of its own, whose log tells which jobs had a run. The
counts and the records agree, for all agents together and for each by itself.

Results:

* `Records.books`, `Course.books`: a step keeps the records in order and the balance even, and so
  does a course.
* `Agree.of_amounts`: what agrees in amounts agrees in counts and durations.
* `Course.agree`: whatever the queues and the administration do, counts and records agree.
-/

namespace JobSwarm

open Queue (Message Path Reply Scene)
open Swarm (Session)
open JobSwarm.Task (Measure)
open Time (Clock)

namespace Fleet

/-! ## Courses -/

/-- An attempt to begin a run for a job of the queue at a place, and what the engine answered. -/
structure Launch where
  place : Nat
  id : Job.Id
  answer : Except Engine.Error Engine.Handle

/-- Whether an engine has begun a run for the job of an identifier, of the queue at a place. -/
def hadRun (launches : List Launch) (place : Nat) (id : Job.Id) : Bool :=
  launches.any fun launch => launch.place == place && launch.id == id && launch.answer.isOk

/-- Nothing was announced yet, nor written to the log of the engine. -/
structure Blank {σ : Type} (s : Scene (σ × List Engine.Call)) : Prop where
  unsaid : s.announced = []
  unlogged : s.calls = []

/-- What the queue at a place has asked of its engine, as the log tells. -/
def launched {σ : Type} (place : Nat) (s : Scene (σ × List Engine.Call)) : List Launch :=
  s.starts.map fun start => ⟨place, start.1, start.2⟩

/-- One step of a fleet, and the attempts in it to begin a run. -/
inductive Records : Fleet → List Launch → Fleet → Prop
  | handles {σ : Type} (engine : Engine σ) (clock : Clock) (message : Message) {reply : Reply}
      {s t : Scene (σ × List Engine.Call)} (before after : List Queue) (blank : Blank s)
      (fresh : message.IsFresh s.queue)
      (call : Queue.handle engine.logged clock message s = .ok reply t) :
      Records ⟨s.swarm, before ++ s.queue :: after⟩ (launched before.length t)
        ⟨t.swarm, before ++ t.queue :: after⟩
  | drains {σ : Type} (engine : Engine σ) (clock : Clock) {s t : Scene (σ × List Engine.Call)}
      (before after : List Queue) (blank : Blank s)
      (call : Queue.drain engine.logged clock s = .ok () t) :
      Records ⟨s.swarm, before ++ s.queue :: after⟩ (launched before.length t)
        ⟨t.swarm, before ++ t.queue :: after⟩
  | administers {s t : Session} (queues : List Queue) (step : s.Administers t) :
      Records ⟨s.swarm, queues⟩ [] ⟨t.swarm, queues⟩

/-- Administration is a step of a fleet. -/
theorem Proceeds.of_administers {s t : Session} (step : s.Administers t) (queues : List Queue) :
    Proceeds ⟨s.swarm, queues⟩ ⟨t.swarm, queues⟩ := by
  cases step with
  | marksOffline id call => exact .marksOffline id queues call
  | marksOnline id now call => exact .marksOnline id now queues call
  | resets id call => exact .resets id queues call
  | recovers now call => exact .recovers now queues call

/-- One step after another, and the attempts in them. -/
inductive Course (start : Fleet) : List Launch → Fleet → Prop
  | begins : Course start [] start
  | proceeds {launches more : List Launch} {fleet next : Fleet}
      (course : Course start launches fleet) (step : Records fleet more next) :
      Course start (launches ++ more) next

/-! ## Jobs -/

/-- The jobs of all queues, each with the place of its queue. -/
def jobs (fleet : Fleet) : List (Nat × Job) :=
  fleet.queues.zipIdx.flatMap fun (queue, place) => queue.jobs.map (place, ·)

variable {fleet next : Fleet} {launches more : List Launch} {swarm : Swarm} {place : Nat}
  {job : Job} {who : Agent.Id → Bool} {what : Measure}

theorem mem_jobs : (place, job) ∈ fleet.jobs ↔
    ∃ queue, fleet.queues[place]? = some queue ∧ job ∈ queue.jobs := by
  simp only [jobs, List.mem_flatMap, List.mem_map, Prod.mk.injEq, Prod.exists]
  constructor
  · rintro ⟨queue, place', there, job', hjob, rfl, rfl⟩
    exact ⟨queue, List.mem_zipIdx_iff_getElem?.1 there, hjob⟩
  · rintro ⟨queue, there, hjob⟩
    exact ⟨queue, place, List.mem_zipIdx_iff_getElem?.2 there, job, hjob, rfl, rfl⟩

theorem sum_jobs :
    (fleet.jobs.map fun entry => entry.2.share who what).sum =
      (fleet.queues.map (·.work who what)).sum := by
  rw [jobs]
  generalize fleet.queues = queues
  generalize 0 = first
  induction queues generalizing first with
  | nil => rfl
  | cons queue rest ih =>
    have own : ((queue.jobs.map (first, ·)).map fun entry => entry.2.share who what).sum =
        queue.work who what := by
      rw [List.map_map]
      rfl
    rw [List.zipIdx_cons, List.flatMap_cons, List.map_append, List.sum_append, ih, own,
      List.map_cons, List.sum_cons]

/-! ## Balance -/

/-- The queues of a fleet are in order with their records, and the agents have counted what the
records account for. -/
structure Books (launches : List Launch) (fleet : Fleet) : Prop where
  order : fleet.InOrder
  slices : ∀ place (queue : Queue), fleet.queues[place]? = some queue → ∀ id,
    (queue.slice id).Booked (hadRun launches place id)
  balance : ∀ who what, fleet.swarm.work who what = (fleet.queues.map (·.work who what)).sum

theorem hadRun_append {id : Job.Id} :
    hadRun (launches ++ more) place id = (hadRun launches place id || hadRun more place id) :=
  List.any_append

theorem hadRun_launched {σ : Type} {s : Scene (σ × List Engine.Call)} {id : Job.Id}
    (began : Queue.Began s id) : hadRun (launched place s) place id = true := by
  obtain ⟨handle, begun⟩ := began
  refine List.any_eq_true.2 ⟨_, List.mem_map.2 ⟨_, begun, rfl⟩, ?_⟩
  simp [Except.isOk, Except.toBool]

/-- What stands at a place after one entry was replaced. -/
theorem getElem?_replace {α : Type} {before after : List α} {old new : α} :
    (before ++ new :: after)[place]? =
      if place = before.length then some new else (before ++ old :: after)[place]? := by
  have set : before ++ new :: after = (before ++ old :: after).set before.length new := by simp
  rw [set, List.getElem?_set]
  by_cases own : place = before.length
  · simp [own]
  · rw [if_neg own, if_neg (Ne.symm own)]

section Steps

variable {σ : Type} {engine : Engine σ} {clock : Clock} {scope : Queue.Scope}
  {s t : Scene (σ × List Engine.Call)} {before after : List Queue}

/-- A path of one queue keeps the books of the fleet. -/
theorem Books.replace (books : Books launches ⟨s.swarm, before ++ s.queue :: after⟩)
    (blank : Blank s) (path : s.queue.Sound → Path engine.logged clock scope s t) :
    Books (launches ++ launched before.length t) ⟨t.swarm, before ++ t.queue :: after⟩ := by
  have here : (before ++ s.queue :: after)[before.length]? = some s.queue := by simp
  have sound := books.order.sound s.queue (List.mem_of_getElem? here)
  have own : Queue.Books (fun id => hadRun launches before.length id)
      ((before ++ after).flatMap Queue.held) s := {
    sound := sound
    balanced := by
      rw [Queue.Balanced, Session.started, blank.unsaid, blank.unlogged]
      rfl
    serves := books.order.serves.perm held_perm
    slices := fun id => (books.slices _ _ here id).mono .inl }
  obtain ⟨kept, same⟩ := (path sound).books own
  refine ⟨?_, ?_, ?_⟩
  · exact books.order.replace (fun _ => kept.sound) fun _ _ serves =>
      (path sound).serves sound serves
  · intro place queue there id
    rw [hadRun_append, Bool.or_eq_true]
    have stands : (if place = before.length then some t.queue
        else (before ++ s.queue :: after)[place]?) = some queue :=
      getElem?_replace.symm.trans there
    split at stands
    · next own =>
      cases stands
      rw [own]
      exact (kept.slices id).mono (Or.imp_right hadRun_launched)
    · exact (books.slices place queue stands id).mono .inl
  · intro who what
    have even := books.balance who what
    have moved := same who what
    simp only [List.map_append, List.map_cons, List.sum_append, List.sum_cons] at even ⊢
    omega

end Steps

theorem Records.books (step : Records fleet more next) (books : Books launches fleet) :
    Books (launches ++ more) next := by
  cases step with
  | handles engine clock message before after blank fresh call =>
    exact books.replace blank fun sound => Queue.handle_path sound fresh call
  | drains engine clock before after blank call =>
    have path (sound : Queue.Sound _) : Path engine.logged clock false _ _ :=
      Queue.drain_path sound call
    exact books.replace blank path
  | administers queues step =>
    rw [List.append_nil]
    exact ⟨(Proceeds.of_administers step queues).inOrder books.order, books.slices,
      fun who what => step.work_eq.trans (books.balance who what)⟩

theorem books_initial (unused : swarm.Unused) (configs : List Queue.Config) :
    Books [] (initial swarm configs) where
  order := inOrder_initial unused.toAtRest configs
  slices place queue there id := by
    obtain ⟨config, -, rfl⟩ := List.mem_map.1 (List.mem_of_getElem? there)
    exact {
      ran_of_active := fun holds => absurd holds Bool.false_ne_true
      job := fun _ found => nomatch found }
  balance who what := by
    have nothing : ((initial swarm configs).queues.map (·.work who what)).sum = 0 := by
      rw [List.sum_eq_zero_iff_forall_eq_nat]
      intro amount hmem
      obtain ⟨queue, there, rfl⟩ := List.mem_map.1 hmem
      obtain ⟨config, -, rfl⟩ := List.mem_map.1 there
      rfl
    rw [nothing]
    exact unused.work_eq_zero

theorem Course.books {configs : List Queue.Config} (unused : swarm.Unused)
    (course : Course (initial swarm configs) launches fleet) : Books launches fleet := by
  induction course with
  | begins => exact books_initial unused configs
  | proceeds _ step ih => exact step.books ih

/-! ## Agreement -/

/-- The time of a job counts if it is complete, or has failed after a run. -/
def isTimed (launches : List Launch) (entry : Nat × Job) : Bool :=
  entry.2.status = .completed ||
    entry.2.status = .failed && hadRun launches entry.1 entry.2.id

/-- What some agents have counted is what the records of some jobs tell. -/
structure Agree (launches : List Launch) (agents : List Agent) (jobs : List (Nat × Job)) :
    Prop where
  completed : (agents.map (·.metrics.tasksCompleted.toNat)).sum =
    jobs.countP (·.2.status = .completed)
  failed : (agents.map (·.metrics.tasksFailed.toNat)).sum = jobs.countP (·.2.status = .failed)
  /-- Those that were cancelled after their start. -/
  cancelled : (agents.map (·.metrics.tasksCancelled.toNat)).sum =
    jobs.countP fun entry => entry.2.status = .cancelled ∧ entry.2.startedAt.isSome
  duration : (agents.map (·.metrics.totalDurationMs.toNat)).sum =
    ((jobs.filter (isTimed launches)).map fun entry => (entry.2.durationMs.getD 0).toNat).sum

theorem sum_indicator {α : Type} {p : α → Prop} [DecidablePred p] (entries : List α) :
    (entries.map fun a => if p a then 1 else 0).sum = entries.countP p := by
  induction entries with
  | nil => rfl
  | cons a rest ih =>
    rw [List.map_cons, List.sum_cons, ih, List.countP_cons, Nat.add_comm]
    simp only [decide_eq_true_eq]

theorem sum_filter {α : Type} {p : α → Bool} (entries : List α) (weight : α → Nat) :
    ((entries.filter p).map weight).sum =
      (entries.map fun a => if p a then weight a else 0).sum := by
  induction entries with
  | nil => rfl
  | cons a rest ih =>
    rw [List.map_cons, List.sum_cons, ← ih]
    by_cases asked : p a
    · rw [List.filter_cons_of_pos asked, if_pos asked, List.map_cons, List.sum_cons]
    · rw [List.filter_cons_of_neg asked, if_neg asked, Nat.zero_add]

/-- What agrees in amounts agrees in counts and durations, if no job has failed without a run and
taken time. -/
theorem Agree.of_amounts {agents : List Agent} {jobs : List (Nat × Job)}
    (amounts : ∀ what, (agents.map (·.metrics.amount what)).sum =
      (jobs.map (·.2.amount what)).sum)
    (failed : ∀ entry ∈ jobs, entry.2.status = .failed →
      hadRun launches entry.1 entry.2.id ∨ entry.2.durationMs.getD 0 = 0) :
    Agree launches agents jobs where
  completed := by
    rw [← sum_indicator]
    simp only [← Job.amount_completed]
    exact amounts .completed
  failed := by
    rw [← sum_indicator]
    simp only [← Job.amount_failed]
    exact amounts .failed
  cancelled := by
    have counted := amounts .cancelled
    simp only [Job.amount_cancelled] at counted
    exact counted.trans (sum_indicator jobs)
  duration := by
    refine (amounts .durationMs).trans ?_
    rw [sum_filter]
    refine congrArg List.sum (List.map_congr_left fun entry there => ?_)
    rw [Job.amount_durationMs]
    by_cases completed : entry.2.status = .completed
    · simp [isTimed, completed]
    by_cases ended : entry.2.status = .failed
    · rcases failed entry there ended with ran | instant
      · simp [isTimed, ended, ran]
      · simp [instant]
    · simp [isTimed, completed, ended]

namespace Books

theorem booked (books : Books launches fleet) (there : (place, job) ∈ fleet.jobs) :
    job.Booked (hadRun launches place job.id) := by
  obtain ⟨queue, stands, hjob⟩ := mem_jobs.1 there
  have sound := books.order.sound queue (List.mem_of_getElem? stands)
  exact (books.slices place queue stands job.id).job job (sound.job?_of_mem hjob)

theorem even (books : Books launches fleet) (who : Agent.Id → Bool) (what : Measure) :
    (fleet.swarm.agents.map (Swarm.share who what)).sum =
      (fleet.jobs.map fun entry => entry.2.share who what).sum := by
  rw [sum_jobs]
  exact books.balance who what

/-- The agents together have counted what all records account for. -/
theorem total (books : Books launches fleet) (what : Measure) :
    (fleet.swarm.agents.map (·.metrics.amount what)).sum =
      (fleet.jobs.map (·.2.amount what)).sum := by
  have agents : fleet.swarm.agents.map (·.metrics.amount what) =
      fleet.swarm.agents.map (Swarm.share (fun _ => true) what) := rfl
  -- a job without an agent is not asked for, but accounts for nothing
  have jobs : fleet.jobs.map (·.2.amount what) =
      fleet.jobs.map fun entry => entry.2.share (fun _ => true) what := by
    refine List.map_congr_left fun entry there => ?_
    rw [Job.share]
    cases assigned : entry.2.agentId with
    | none => exact (books.booked there).amount_of_none assigned
    | some agent => rfl
  rw [agents, jobs]
  exact books.even _ what

/-- Each agent has counted what the records of its jobs account for. -/
theorem own (books : Books launches fleet) {agent : Agent} (known : agent ∈ fleet.swarm.agents)
    (what : Measure) :
    agent.metrics.amount what =
      ((fleet.jobs.filter (·.2.agentId = some agent.id)).map (·.2.amount what)).sum := by
  have agents : (fleet.swarm.agents.map (Swarm.share (· = agent.id) what)).sum =
      agent.metrics.amount what := by
    have own := Keyed.sum_own (·.metrics.amount what) fleet.swarm.ids_once known
    refine (congrArg List.sum (List.map_congr_left fun other _ => ?_)).trans own
    simp only [Swarm.share, decide_eq_true_eq]
  rw [← agents, books.even, sum_filter]
  refine congrArg List.sum (List.map_congr_left fun entry _ => ?_)
  rw [Job.share]
  cases entry.2.agentId <;> simp

end Books

/-- Whatever the queues and the administration do, what the agents have counted is what the records
tell, for all agents together and for each by itself. -/
theorem Course.agree {configs : List Queue.Config} (unused : swarm.Unused)
    (course : Course (initial swarm configs) launches fleet) :
    Agree launches fleet.swarm.agents fleet.jobs ∧
      ∀ agent ∈ fleet.swarm.agents,
        Agree launches [agent] (fleet.jobs.filter (·.2.agentId = some agent.id)) := by
  have books := course.books unused
  refine ⟨?_, ?_⟩
  · exact .of_amounts books.total fun entry there => (books.booked there).failed
  · intro agent known
    refine .of_amounts (fun what => ?_) fun entry there => ?_
    · rw [List.map_singleton, List.sum_singleton]
      exact books.own known what
    · exact (books.booked (List.mem_of_mem_filter there)).failed

/-! ## Computed courses -/

/-- A scene as it stands before the next message. -/
def quieted {σ : Type} (s : Scene (σ × List Engine.Call)) : Scene (σ × List Engine.Call) :=
  { s with announced := [], engineState := (s.engineState.1, []) }

/-- The one queue of a fleet after some messages, and the attempts to begin runs, unless a job was
not new or a sum did not fit. -/
def stage {σ : Type} (engine : Engine σ) :
    List (Clock × Message) → Scene (σ × List Engine.Call) →
      Option (List Launch × Scene (σ × List Engine.Call))
  | [], s => some ([], s)
  | (clock, message) :: rest, s => do
    let t ← Queue.play engine.logged [.told clock message] (quieted s)
    let (launches, last) ← stage engine rest t
    return (launched 0 t ++ launches, last)

/-- What a stage shows is a course. -/
theorem course_of_stage {σ : Type} {engine : Engine σ} {messages : List (Clock × Message)}
    {s t : Scene (σ × List Engine.Call)} {start : Fleet} {before : List Launch}
    (course : Course start before ⟨s.swarm, [s.queue]⟩)
    (h : stage engine messages s = some (launches, t)) :
    Course start (before ++ launches) ⟨t.swarm, [t.queue]⟩ := by
  induction messages generalizing s before launches with
  | nil =>
    cases h
    rw [List.append_nil]
    exact course
  | cons first rest ih =>
    obtain ⟨u, played, h⟩ := Option.bind_eq_some_iff.1 h
    obtain ⟨⟨later, last⟩, staged, h⟩ := Option.bind_eq_some_iff.1 h
    cases h
    obtain ⟨fresh, _, call⟩ := Queue.handle_of_play played
    have step : Records ⟨s.swarm, [s.queue]⟩ (launched 0 u) ⟨u.swarm, [u.queue]⟩ :=
      Records.handles (s := quieted s) engine first.1 first.2 [] [] ⟨rfl, rfl⟩ fresh call
    rw [← List.append_assoc]
    exact ih (course.proceeds step) staged

/-- One agent completes a job in five milliseconds, is given one that the engine refuses, and one
that is cancelled. -/
theorem Course.agree_of_three :
    ∃ launches fleet, Course (initial Queue.loneSwarm [{}]) launches fleet ∧
      fleet.jobs.map (fun entry => (entry.2.status, hadRun launches entry.1 entry.2.id)) =
        [(.completed, true), (.failed, false), (.cancelled, true)] ∧
      fleet.swarm.agents.map (fun agent => (agent.metrics.tasksCompleted,
        agent.metrics.tasksFailed, agent.metrics.tasksCancelled,
        agent.metrics.totalDurationMs)) = [(1, 1, 1, 5)] ∧
      Agree launches fleet.swarm.agents fleet.jobs := by
  let now : Clock := .epoch 0
  let submit (id : Job.Id) (options : Json.Members) : Message :=
    .submit id { targetPath := "notes", options := options } .normal
  have staged : (stage Engine.Stub.engine
      [(now, submit ⟨1⟩ []), (now, submit ⟨2⟩ [("size_bytes", .null)]),
        (now.forward 5, .finished ⟨1⟩ (.completed 8)), (now.forward 6, submit ⟨3⟩ []),
        (now.forward 7, .cancel ⟨3⟩)]
      (.initial {} Queue.loneSwarm (Engine.Stub.standard, []))).any (fun result =>
        let fleet : Fleet := ⟨result.2.swarm, [result.2.queue]⟩
        fleet.jobs.map (fun entry => (entry.2.status, hadRun result.1 entry.1 entry.2.id)) =
          [(.completed, true), (.failed, false), (.cancelled, true)] ∧
        fleet.swarm.agents.map (fun agent => (agent.metrics.tasksCompleted,
          agent.metrics.tasksFailed, agent.metrics.tasksCancelled,
          agent.metrics.totalDurationMs)) = [(1, 1, 1, 5)]) = true := by
    decide +kernel
  obtain ⟨⟨launches, last⟩, hlast, facts⟩ := (Option.any_eq_true _ _).1 staged
  obtain ⟨jobs, counts⟩ := of_decide_eq_true facts
  have course : Course (initial Queue.loneSwarm [{}]) launches ⟨last.swarm, [last.queue]⟩ :=
    course_of_stage .begins hlast
  have unused : Queue.loneSwarm.Unused := {
    toAtRest := Queue.loneSwarm_atRest
    uncounted := fun agent hmem what => by
      cases List.mem_singleton.1 hmem
      exact Swarm.amount_fresh .. }
  exact ⟨launches, _, course, jobs, counts, (Course.agree unused course).1⟩

end Fleet

end JobSwarm
