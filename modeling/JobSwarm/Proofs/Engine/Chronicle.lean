import JobSwarm.Engine.Blocking
import Mathlib.Data.List.Basic

/-!
# What happens to a run

An engine is called, and the codecs of its runs are at work, in any order. Each thing that happens
concerns one run: what is answered depends on that run alone, and the other runs stay as they are.

Results:

* `Performs.run?`: a run after something has happened.
* `Performs.answers`: what is answered depends on the run that is concerned.
* `Performs.length_runs`, `Chronicle.length_runs`: the runs are those that were started.
-/

namespace JobSwarm.Engine.Blocking

open Codec (Action Ending Reply)

/-- Something that happens to an engine, with what is answered: a call, something that a codec does,
or the waking of a codec that waits at a checkpoint. -/
inductive Entry where
  | start (config : Job.Config) (answer : Except Error Handle)
  | poll (handle : Handle) (answer : Polled)
  | suspend (handle : Handle) (answer : Except Error Unit)
  | resume (handle : Handle) (answer : Except Error Unit)
  | cancel (handle : Handle) (answer : Except Error Unit)
  | act (handle : Handle) (action : Action) (reply : Reply)
  | wake (handle : Handle) (reply : Reply)

namespace Entry

/-- Whether a run is started. -/
def isStart : Entry → Bool
  | .start .. => true
  | _ => false

/-- The run that is concerned; a start concerns no run that was there before. -/
def handle? : Entry → Option Handle
  | .start .. => none
  | .poll handle _ | .suspend handle _ | .resume handle _ | .cancel handle _ | .act handle ..
  | .wake handle _ => some handle

end Entry

/-- One thing happens: the engine is called, or the codec of a run does something or wakes. -/
inductive Performs (codec : String) (s : State) : Entry → State → Prop
  | start (config : Job.Config) :
      Performs codec s (.start config (start config s).1) (start config s).2
  | poll (handle : Handle) :
      Performs codec s (.poll handle (poll codec handle s).1) (poll codec handle s).2
  | suspend (handle : Handle) :
      Performs codec s (.suspend handle (suspend handle s).1) (suspend handle s).2
  | resume (handle : Handle) :
      Performs codec s (.resume handle (resume handle s).1) (resume handle s).2
  | cancel (handle : Handle) :
      Performs codec s (.cancel handle (cancel handle s).1) (cancel handle s).2
  | act {handle : Handle} {action : Action} {reply : Reply} {t : State}
      (acts : act handle action s = some (reply, t)) : Performs codec s (.act handle action reply) t
  | wake {handle : Handle} {reply : Reply} {t : State} (wakes : wake handle s = some (reply, t)) :
      Performs codec s (.wake handle reply) t

/-- All that has happened to an engine, first to last. -/
inductive Chronicle (codec : String) : List Entry → State → Prop
  | begins : Chronicle codec [] {}
  | performs {history : List Entry} {s t : State} {entry : Entry}
      (earlier : Chronicle codec history s) (performs : Performs codec s entry t) :
      Chronicle codec (history ++ [entry]) t

/-! ## One run -/

namespace Run

/-- What a poll of a run is answered. -/
def polled (codec : String) (handle : Handle) (run : Run) : Polled :=
  if run.known then
    match run.phase with
    | .ended ending => .finished (ending.outcome codec)
    | .working | .blocked => .running ⟨run.processed, run.total⟩
  else .refused (.unknownHandle handle)

/-- What is answered when a run is suspended or resumed. -/
def asked (handle : Handle) (run : Run) : Except Error Unit :=
  if run.known then .ok () else .error (.unknownHandle handle)

/-- What is answered when something happens to a run. -/
inductive Answers (codec : String) (handle : Handle) (run : Run) : Entry → Prop
  | poll : Answers codec handle run (.poll handle (run.polled codec handle))
  | suspend : Answers codec handle run (.suspend handle (run.asked handle))
  | resume : Answers codec handle run (.resume handle (run.asked handle))
  | cancel : Answers codec handle run (.cancel handle (.ok ()))
  | act (action : Action) (working : run.phase = .working) :
      Answers codec handle run (.act handle action (run.act action).1)
  | wake (waits : run.phase = .blocked) (notified : run.notified = true) :
      Answers codec handle run (.wake handle run.look.1)

/-- A run after something has happened to it. -/
def after (run : Run) : Entry → Run
  | .poll _ (.finished _) => { run with known := false }
  | .suspend _ (.ok _) => run.held true
  | .resume _ (.ok _) => run.held false
  | .cancel _ _ => if run.known then run.stopped else run
  | .act _ action _ => (run.act action).2
  | .wake _ _ => run.look.2
  | _ => run

end Run

/-! ## The runs of an engine -/

section Runs

variable {codec : String} {s t : State} {handle other : Handle} {entry : Entry} {run : Run}
  {history : List Entry}

theorem known?_eq (found : s.run? handle = some run) :
    s.known? handle = if run.known then some run else none := by
  rw [State.known?, found, Option.filter_some]

/-- No run has the number zero. -/
theorem run?_number (found : s.run? handle = some run) : handle.number ≠ 0 := by
  intro zero
  rw [State.run?, if_pos zero] at found
  cases found

theorem run?_modifyRun_of_ne {change : Run → Run} (named : handle.number ≠ 0)
    (h : other ≠ handle) : (s.modifyRun handle change).run? other = s.run? other := by
  unfold State.run? State.modifyRun
  split
  · rfl
  · next named' =>
    have apart : handle.number.toNat - 1 ≠ other.number.toNat - 1 := by
      intro same
      apply h
      have pos : 0 < handle.number.toNat :=
        Nat.pos_of_ne_zero fun zero => named (UInt64.toNat_inj.1 zero)
      have pos' : 0 < other.number.toNat :=
        Nat.pos_of_ne_zero fun zero => named' (UInt64.toNat_inj.1 zero)
      have number : other.number = handle.number := UInt64.toNat_inj.1 (by omega)
      cases other
      cases handle
      exact congrArg Handle.mk number
    exact List.getElem?_modify_ne _ _ apart

theorem run?_modifyRun_self (state : State) (handle : Handle) (change : Run → Run) :
    (state.modifyRun handle change).run? handle = (state.run? handle).map change := by
  simp only [State.run?, State.modifyRun]
  split <;> simp

/-- A changed run is found changed, and the others as they were. -/
theorem run?_modifyRun {change : Run → Run} {known : Run} (found : s.run? other = some known)
    (h : s.run? handle = some run) :
    (s.modifyRun other change).run? handle =
      some (if other = handle then change run else run) := by
  by_cases same : other = handle
  · rw [if_pos same, same, run?_modifyRun_self, h, Option.map_some]
  · rw [if_neg same, run?_modifyRun_of_ne (run?_number found) (Ne.symm same), h]

/-- Two changes of a run that have the same result are the same. -/
theorem modifyRun_congr (change change' : Run → Run) (found : s.run? handle = some run)
    (same : change run = change' run) : s.modifyRun handle change = s.modifyRun handle change' := by
  rw [State.run?, if_neg (run?_number found)] at found
  unfold State.modifyRun
  congr 1
  apply List.ext_getElem?
  intro i
  rw [List.getElem?_modify, List.getElem?_modify]
  by_cases there : handle.number.toNat - 1 = i
  · simp only [← there, found, if_true, Option.map_eq_map, Option.map_some, same]
  · simp only [if_neg there]

theorem modifyRun_of_same (change : Run → Run) (found : s.run? handle = some run)
    (same : change run = run) : s.modifyRun handle change = s := by
  rw [modifyRun_congr change id found same]
  unfold State.modifyRun
  rw [List.modify_id]

theorem length_modifyRun (change : Run → Run) :
    (s.modifyRun handle change).runs.length = s.runs.length := by
  unfold State.modifyRun
  exact List.length_modify ..

/-- The run that is started next has the next number. -/
theorem start_eq (config : Job.Config) (number : handle.number.toNat = s.runs.length + 1) :
    (start config s).1 = .ok handle ∧ (start config s).2.run? handle = some .fresh := by
  have same : (⟨.ofNat (s.runs.length + 1)⟩ : Handle) = handle := by
    rw [← number, UInt64.ofNat_toNat]
  have named : handle.number ≠ 0 := by
    intro zero
    rw [zero] at number
    cases number
  refine ⟨congrArg Except.ok same, ?_⟩
  rw [State.run?, if_neg named, number]
  exact List.getElem?_concat_length

/-! ## What a call does to its run -/

theorem poll_eq (found : s.run? handle = some run) :
    poll codec handle s = (run.polled codec handle,
      s.modifyRun handle (Run.after · (.poll handle (run.polled codec handle)))) := by
  unfold poll Run.polled
  rw [known?_eq found]
  cases known : run.known with
  | false =>
    simp only [Bool.false_eq_true, ite_false]
    rw [modifyRun_of_same _ found rfl]
  | true =>
    cases phase : run.phase with
    | ended ending =>
      simp only [phase, ite_true]
      rfl
    | working | blocked =>
      simp only [phase, ite_true]
      rw [modifyRun_of_same _ found rfl]

theorem suspend_eq (found : s.run? handle = some run) :
    suspend handle s = (run.asked handle,
      s.modifyRun handle (Run.after · (.suspend handle (run.asked handle)))) := by
  unfold suspend Run.asked
  rw [known?_eq found]
  cases known : run.known with
  | false =>
    simp only [Bool.false_eq_true, ite_false]
    rw [modifyRun_of_same _ found rfl]
  | true => rfl

theorem resume_eq (found : s.run? handle = some run) :
    resume handle s = (run.asked handle,
      s.modifyRun handle (Run.after · (.resume handle (run.asked handle)))) := by
  unfold resume Run.asked
  rw [known?_eq found]
  cases known : run.known with
  | false =>
    simp only [Bool.false_eq_true, ite_false]
    rw [modifyRun_of_same _ found rfl]
  | true => rfl

theorem cancel_eq (found : s.run? handle = some run) :
    cancel handle s =
      (.ok (), s.modifyRun handle (Run.after · (.cancel handle (.ok ())))) := by
  have after : run.after (.cancel handle (.ok ())) = if run.known then run.stopped else run := rfl
  unfold cancel
  rw [known?_eq found]
  cases known : run.known with
  | false =>
    rw [known, if_neg Bool.false_ne_true] at after
    rw [modifyRun_of_same (Run.after · (.cancel handle (.ok ()))) found after]
    rfl
  | true =>
    rw [known, if_pos rfl] at after
    rw [modifyRun_congr (Run.after · (.cancel handle (.ok ()))) Run.stopped found after]
    rfl

theorem act_eq {action : Action} {reply : Reply} (found : s.run? handle = some run)
    (acts : act handle action s = some (reply, t)) :
    run.phase = .working ∧ reply = (run.act action).1 ∧
      t = s.modifyRun handle (Run.after · (.act handle action reply)) := by
  unfold act at acts
  rw [found, Option.filter_some] at acts
  by_cases working : run.phase = .working
  · simp only [working, decide_true, ite_true, Option.pure_def, Option.bind_eq_bind,
      Option.bind_some, Option.some.injEq, Prod.mk.injEq] at acts
    obtain ⟨rfl, rfl⟩ := acts
    refine ⟨working, rfl, ?_⟩
    exact modifyRun_congr _ _ found rfl
  · simp [working] at acts

theorem isSome_act (found : s.run? handle = some run) (action : Action) :
    (act handle action s).isSome ↔ run.phase = .working := by
  unfold act
  rw [found, Option.filter_some]
  by_cases working : run.phase = .working <;> simp [working]

theorem wake_eq {reply : Reply} (found : s.run? handle = some run)
    (wakes : wake handle s = some (reply, t)) :
    run.phase = .blocked ∧ run.notified = true ∧ reply = run.look.1 ∧
      t = s.modifyRun handle (Run.after · (.wake handle reply)) := by
  unfold wake at wakes
  rw [found, Option.filter_some] at wakes
  by_cases ready : run.phase = .blocked ∧ run.notified = true
  · rw [decide_eq_true ready] at wakes
    cases wakes
    exact ⟨ready.1, ready.2, rfl, modifyRun_congr _ _ found rfl⟩
  · rw [decide_eq_false ready] at wakes
    cases wakes

theorem isSome_wake (found : s.run? handle = some run) :
    (wake handle s).isSome ↔ run.phase = .blocked ∧ run.notified = true := by
  unfold wake
  rw [found, Option.filter_some]
  by_cases ready : run.phase = .blocked ∧ run.notified = true <;> simp [ready]

/-- What is answered depends on the run that is concerned. -/
theorem Performs.answers (performs : Performs codec s entry t)
    (concerns : entry.handle? = some handle) (found : s.run? handle = some run) :
    run.Answers codec handle entry := by
  cases performs with
  | start config => cases concerns
  | poll =>
    cases concerns
    rw [poll_eq found]
    exact .poll
  | suspend =>
    cases concerns
    rw [suspend_eq found]
    exact .suspend
  | resume =>
    cases concerns
    rw [resume_eq found]
    exact .resume
  | cancel =>
    cases concerns
    rw [cancel_eq found]
    exact .cancel
  | act acts =>
    cases concerns
    obtain ⟨working, rfl, -⟩ := act_eq found acts
    exact .act _ working
  | wake wakes =>
    cases concerns
    obtain ⟨waits, notified, rfl, -⟩ := wake_eq found wakes
    exact .wake waits notified

/-- The run that is concerned changes. -/
theorem Performs.state_eq (performs : Performs codec s entry t)
    (concerns : entry.handle? = some handle) (found : s.run? handle = some run) :
    t = s.modifyRun handle (Run.after · entry) := by
  cases performs with
  | start config => cases concerns
  | poll =>
    cases concerns
    rw [poll_eq found]
  | suspend =>
    cases concerns
    rw [suspend_eq found]
  | resume =>
    cases concerns
    rw [resume_eq found]
  | cancel =>
    cases concerns
    rw [cancel_eq found]
  | act acts =>
    cases concerns
    exact (act_eq found acts).2.2
  | wake wakes =>
    cases concerns
    exact (wake_eq found wakes).2.2.2

/-- Nothing happens to a run that is not there. -/
theorem Performs.state_eq_of_none (performs : Performs codec s entry t)
    (concerns : entry.handle? = some handle) (missing : s.run? handle = none) : t = s := by
  have unknown : s.known? handle = none := by
    rw [State.known?, missing, Option.filter_none]
  cases performs with
  | start config => cases concerns
  | poll | suspend | resume | cancel =>
    cases concerns
    simp [Blocking.poll, Blocking.suspend, Blocking.resume, Blocking.cancel, unknown]
  | act acts =>
    cases concerns
    simp [Blocking.act, missing] at acts
  | wake wakes =>
    cases concerns
    simp [Blocking.wake, missing] at wakes

/-- A start is all that concerns no run that was there before. -/
theorem Performs.of_no_handle (performs : Performs codec s entry t)
    (concerns : entry.handle? = none) : entry.isStart = true ∧ t = ⟨s.runs ++ [.fresh]⟩ := by
  cases performs with
  | start config => exact ⟨rfl, rfl⟩
  | poll | suspend | resume | cancel | act | wake => cases concerns

/-- A run after something has happened: only the run that is concerned has changed. -/
theorem Performs.run? (performs : Performs codec s entry t) (found : s.run? handle = some run) :
    t.run? handle = some (if entry.handle? = some handle then run.after entry else run) := by
  cases concerns : entry.handle? with
  | none =>
    obtain ⟨-, rfl⟩ := performs.of_no_handle concerns
    have number := run?_number found
    rw [State.run?, if_neg number] at found
    have inside := (List.getElem?_eq_some_iff.1 found).1
    have apart : none ≠ some handle := Option.some_ne_none handle |>.symm
    rw [State.run?, if_neg number, if_neg apart, List.getElem?_append_left inside, found]
  | some other =>
    cases there : s.run? other with
    | none =>
      have apart : other ≠ handle := by
        intro same
        rw [same, found] at there
        cases there
      rw [performs.state_eq_of_none concerns there, found,
        if_neg fun same => apart (Option.some.inj same)]
    | some known =>
      rw [performs.state_eq concerns there, run?_modifyRun there found]
      simp only [Option.some.injEq]

theorem Performs.length_runs (performs : Performs codec s entry t) :
    t.runs.length = s.runs.length + if entry.isStart then 1 else 0 := by
  cases concerns : entry.handle? with
  | none =>
    obtain ⟨start, rfl⟩ := performs.of_no_handle concerns
    rw [start, if_pos rfl, List.length_append, List.length_singleton]
  | some handle =>
    have plain : entry.isStart = false := by
      cases entry with
      | start => cases concerns
      | _ => rfl
    rw [plain, if_neg Bool.false_ne_true, Nat.add_zero]
    cases found : s.run? handle with
    | none => rw [performs.state_eq_of_none concerns found]
    | some run => rw [performs.state_eq concerns found, length_modifyRun]

/-- There are as many runs as were started. -/
theorem Chronicle.length_runs (chronicle : Chronicle codec history s) :
    s.runs.length = history.countP Entry.isStart := by
  induction chronicle with
  | begins => rfl
  | performs earlier performs ih =>
    rw [performs.length_runs, ih, List.countP_append, List.countP_singleton]

end Runs

end JobSwarm.Engine.Blocking
