import JobSwarm.Proofs.Queue.Order
import JobSwarm.Proofs.Swarm.Exhausted

/-!
# Passes leave no agent waiting

What a pass believes of the capabilities that are out of agents stays true to its end. So a queued
job waits after a pass only for room, or because no agent may be handed out for it.

Results:

* `Move.registered`: a move keeps the registry of the swarm.
* `Looks.exhausted`: what is believed to be out of agents is so, at each moment of a pass.
* `pass_greedy`: after a pass a queued job waits for room or for want of an agent.
* `Run.greedy`: the same after each message of a run that a pass follows.
-/

namespace JobSwarm.Queue

open Swarm (Session)
open Time (Clock)

variable {σ : Type} {engine : Engine σ} {clock : Clock} {scope : Scope} {base m s t u : Scene σ}
  {before after : List Pending} {blocked blocked' : List String} {job : Job}

/-! ## The registry -/

theorem Move.registered (move : Move engine clock scope s t)
    (registered : s.swarm.Registered) : t.swarm.Registered := by
  cases move with
  | submit | advance | announce | hold | withdraw | pause | resume | keepOn | keepStill =>
    exact registered
  | recover call => exact (Session.keeps_recover _).of_ok registered call
  | want call => exact (Session.keeps_acquire _ _ _).of_ok registered call
  | start _ _ _ _ call =>
    have acquired := (Session.keeps_acquire _ _ _).of_ok registered call
    exact acquired
  | @refuse job agent session _ _ _ _ _ _ _ _ call _ release =>
    have acquired := (Session.keeps_acquire _ _ _).of_ok registered call
    have told : (session.tell (.jobStarted job.id agent)).swarm.Registered := acquired
    have released := (Session.keeps_release _ _ _).of_ok told release
    exact released
  | complete _ _ _ _ _ _ release | fail _ _ _ _ _ release | abandon _ _ _ release =>
    have released := (Session.keeps_release _ _ _).of_ok registered release
    exact released

theorem Path.registered (path : Path engine clock scope s t)
    (registered : s.swarm.Registered) : t.swarm.Registered := by
  induction path with
  | refl => exact registered
  | tail _ move ih => exact move.registered ih

/-! ## Beliefs of a pass -/

/-- A look at a queued job leaves true what was believed, and finds out what it adds. -/
theorem Trial.exhausted (trial : Trial engine clock s blocked job blocked' t)
    (registered : s.swarm.Registered)
    (believed : ∀ capability ∈ blocked, s.swarm.Exhausted clock.wall capability) :
    ∀ capability ∈ blocked', t.swarm.Exhausted clock.wall capability := by
  cases trial with
  | full | waits => exact believed
  | @wants session unknown call =>
    intro capability hmem
    show session.swarm.Exhausted clock.wall capability
    rcases List.mem_cons.1 hmem with rfl | hmem
    · exact Swarm.acquire_exhausted registered call
    · exact (believed capability hmem).acquire call
  | @begins agent session _ news room unknown call _ _ _ _ _ kept =>
    intro capability hmem
    have acquired := (believed capability hmem).acquire call
    rcases kept with same | ⟨told, answer, back, same, release, given⟩
    · rw [same]
      exact acquired
    · rw [given]
      -- the agent that is given back has the capability of the job, which is not among `blocked`
      have other : ∀ found, told.swarm.agent? agent = some found →
          found.capability ≠ capability := by
        intro found hfound heq
        rw [same] at hfound
        have own := Swarm.acquire_capability call hfound
        have hcap : job.config.requiredCapability = capability := own.symm.trans heq
        rw [hcap] at unknown
        exact unknown hmem
      rw [← same] at acquired
      exact acquired.release other release

theorem Looks.exhausted (looks : Looks engine clock base before after blocked m)
    (sound : base.queue.Sound) (registered : base.swarm.Registered) :
    ∀ capability ∈ blocked, m.swarm.Exhausted clock.wall capability := by
  induction before using List.reverseRecOn generalizing after blocked m with
  | nil =>
    obtain ⟨-, h⟩ := looks
    obtain ⟨rfl, rfl⟩ := Step.pure_eq_ok.1 h
    exact fun capability hmem => absurd hmem List.not_mem_nil
  | append_singleton before entry ih =>
    obtain ⟨blocked', m', looks', hlast⟩ := looks.last
    have passing := looks'.passing sound
    obtain ⟨job, found, queued, rfl⟩ := (Path.sound passing.path sound).mem_pending_iff.1
      (passing.ahead entry List.mem_cons_self)
    have trial := consider_trial found queued hlast
    exact trial.exhausted (Path.registered passing.path registered) (ih looks')

/-! ## After a pass -/

/-- Nobody waits in vain: as long as there is room, no agent of the swarm may be handed out for any
of the queued jobs. -/
def Greedy (queue : Queue) (swarm : Swarm) : Prop :=
  queue.active.length < queue.config.concurrency.toNat →
    ∀ job ∈ queue.jobs, job.status = .queued →
      ∀ agent ∈ swarm.agents, ¬swarm.Eligible job.config.requiredCapability agent

theorem pass_greedy {r : Unit} (sound : s.queue.Sound) (registered : s.swarm.Registered)
    (h : pass engine clock s = .ok r t) : t.queue.Greedy t.swarm := by
  intro room job hmem queued
  obtain ⟨base, blocked, begins, looks⟩ := pass_looks h
  have start := begins.path sound
  have sound' := start.sound sound
  have passing := looks.passing sound'
  have found := (Path.sound passing.path sound').job?_of_mem hmem
  have waits := (Path.sound passing.path sound').mem_pending_iff.2 ⟨job, found, queued, rfl⟩
  have seen := passing.old _ waits
  rw [List.append_nil] at seen
  have hasRoom : t.queue.hasRoom = true := decide_eq_true room
  have known := passing.passed hasRoom job found queued seen
  exact (looks.exhausted sound' (start.registered registered) _ known).not_eligible

theorem handle_greedy {message : Message} {reply : Reply} (sound : s.queue.Sound)
    (registered : s.swarm.Registered) (fresh : message.IsFresh s.queue)
    (call : handle engine clock message s = .ok reply t)
    (follows : passFollows message reply = true) : t.queue.Greedy t.swarm := by
  simp only [handle, Step.bind_eq_ok] at call
  obtain ⟨_, u, hreact, call⟩ := call
  have reacts : Path engine clock false s u := react_path sound fresh hreact
  split at call
  · obtain ⟨_, _, hpass, hreply⟩ := Step.bind_eq_ok.1 call
    obtain ⟨rfl, rfl⟩ := Step.pure_eq_ok.1 hreply
    exact pass_greedy (reacts.sound sound) (reacts.registered registered) hpass
  · next none =>
    obtain ⟨rfl, rfl⟩ := Step.pure_eq_ok.1 call
    exact absurd follows none

/-- Wherever a run has come to, and whoever has called on the swarm: when a pass has followed a
message, the slots are taken, or no agent may be handed out for any job that is still queued. -/
theorem Run.greedy {config : Config} {swarm : Swarm} {state : σ} {settings : Swarm.Config}
    {history : List Swarm.Entry} {message : Message} {reply : Reply}
    (run : Run engine (.initial config swarm state) s)
    (reached : Swarm.Run settings history s.swarm) (fresh : message.IsFresh s.queue)
    (call : handle engine clock message s = .ok reply t)
    (follows : passFollows message reply = true) : t.queue.Greedy t.swarm := by
  have sound := (run.sound (sound_initial config)).1
  exact handle_greedy sound reached.registered fresh call follows

/-- A job waits while the one agent for it is with another caller. -/
theorem Run.greedy_of_lone :
    ∃ (s t : Scene Engine.Stub.State) (reply : Reply), s.queue.jobs = [] ∧
      Swarm.Run {} Swarm.loneHistory s.swarm ∧
      handle Engine.Stub.engine (.epoch 0)
        (.submit ⟨1⟩ { targetPath := "notes" } .normal) s = .ok reply t ∧
      t.queue.jobs.map (·.status) = [.queued] ∧ t.queue.active = [] ∧
      t.queue.Greedy t.swarm := by
  obtain ⟨level, health, reached⟩ := Swarm.run_lone
  let message : Message := .submit ⟨1⟩ { targetPath := "notes" } .normal
  let s : Scene Engine.Stub.State :=
    .initial {} (Swarm.loneHeld level health) Engine.Stub.standard
  have played : ∃ reply t, handle Engine.Stub.engine (.epoch 0) message s = .ok reply t ∧
      passFollows message reply = true ∧ t.queue.jobs.map (·.status) = [.queued] ∧
        t.queue.active = [] :=
    ⟨_, _, rfl, rfl, rfl, rfl⟩
  obtain ⟨reply, t, call, follows, queued, active⟩ := played
  have run : Run Engine.Stub.engine s s := .refl
  have fresh : message.IsFresh s.queue := rfl
  exact ⟨s, t, reply, rfl, reached, call, queued, active, run.greedy reached fresh call follows⟩

end JobSwarm.Queue
