import JobSwarm.Proofs.Engine.Tale
import Mathlib.Algebra.GroupWithZero.Nat
import Mathlib.Data.List.Induction
import Mathlib.Data.List.Nodup

/-!
# What the stub engine simulates

What a run of the stub engine reports follows from the job for which it was started and from the
calls with its handle since then: each poll that finds it not suspended moves it on by one step, and
the last step ends it.

Results:

* `Accords.polled`: a run that was polled stands as is told of it then.
* `Call.stands`, `stands_perform`: the engine has the runs of which it is told that they go on.
* `simulates`: what is answered next, after any calls of any stub engine.
-/

namespace JobSwarm.Engine.Stub

/-! ## Steps and bytes -/

namespace Tale

/-- How many steps the run will have taken when it is polled once more. -/
def reach (tale : Tale) : Nat :=
  if tale.suspended then tale.steps else tale.steps + 1

/-- The tale after a poll has the steps that the poll reaches. -/
theorem steps_polled (tale : Tale) (handle : Handle) (answer : Polled) :
    (tale.andThen (.poll handle answer)).steps = tale.reach := by
  show (if true && !isSuspended tale.calls then _ else _) = if isSuspended tale.calls then _ else _
  cases isSuspended tale.calls <;> rfl

end Tale

/-- The bytes that are reported are exact. -/
theorem toNat_bytesAt {total : UInt64} {step steps : Nat} (most : step ≤ steps) :
    (bytesAt total step steps).toNat = total.toNat * step / steps := by
  have le : total.toNat * step / steps ≤ total.toNat :=
    Nat.div_le_of_le_mul (by rw [Nat.mul_comm]; exact Nat.mul_le_mul_right _ most)
  have fits := total.toNat_lt
  rw [bytesAt, UInt64.toNat_ofNat', Nat.mod_eq_of_lt (by omega)]

theorem bytesAt_last {total : UInt64} {steps : Nat} (some : 0 < steps) :
    bytesAt total steps steps = total := by
  rw [bytesAt, Nat.mul_div_cancel _ some, UInt64.ofNat_toNat]

theorem bytesAt_zero (total : UInt64) (steps : Nat) : bytesAt total 0 steps = 0 := by
  rw [bytesAt, Nat.mul_zero, Nat.zero_div]
  rfl

/-- Whether the runs over the target of a job fail. -/
def failsOn (origin : State) (config : Job.Config) : Bool :=
  origin.failing.any fun path => Files.samePath path config.targetPath

/-- A run stands as its tale says. -/
structure Accords (origin : State) (tale : Tale) (run : Run) : Prop where
  total : sizeOf origin tale.config = .ok run.total
  fails : run.fails = failsOn origin tale.config
  step : run.step = tale.steps
  more : tale.steps < origin.steps
  suspended : run.suspended = tale.suspended
  reported : reported tale.calls = bytesAt run.total tale.steps origin.steps

namespace Accords

variable {origin s : State} {tale : Tale} {run : Run} {handle : Handle}

theorem reach_le (accords : Accords origin tale run) : tale.reach ≤ origin.steps := by
  have more := accords.more
  unfold Tale.reach
  split <;> omega

/-- A poll moves a run on, unless it is suspended. -/
theorem advanced_eq (accords : Accords origin tale run) :
    run.advanced origin.steps = { run with step := tale.reach } := by
  have more := accords.more
  rw [← accords.step] at more
  unfold Run.advanced Tale.reach
  rw [← accords.suspended, ← accords.step]
  by_cases suspended : run.suspended = true
  · rw [if_pos suspended, if_neg (by simp [suspended])]
  · rw [if_neg suspended, if_pos (by simp [suspended, more])]

theorem poll_of_lt (accords : Accords origin tale run) (found : s.run? handle = some run)
    (steps : s.steps = origin.steps) (going : tale.reach < origin.steps) :
    poll handle s =
      (.running ⟨bytesAt run.total tale.reach origin.steps, some run.total⟩,
        s.modifyRun handle fun _ => { run with step := tale.reach }) := by
  simp only [poll, found, steps, accords.advanced_eq, going, if_true]

theorem poll_of_eq (accords : Accords origin tale run) (found : s.run? handle = some run)
    (steps : s.steps = origin.steps) (last : tale.reach = origin.steps) :
    poll handle s =
      (.finished (if failsOn origin tale.config then
          .failed ("simulated failure after " ++ toString run.total.toNat ++ " bytes")
        else .completed run.total),
        s.forget handle) := by
  have some : 0 < origin.steps := Nat.zero_lt_of_lt accords.more
  simp only [poll, found, steps, accords.advanced_eq, last, Nat.lt_irrefl, if_false, Run.outcome,
    accords.fails, bytesAt_last some]

/-- A run that was polled and goes on stands as its tale says then. -/
theorem polled (accords : Accords origin tale run) (going : tale.reach < origin.steps)
    (total : Option UInt64) :
    Accords origin
      (tale.andThen (.poll handle (.running ⟨bytesAt run.total tale.reach origin.steps, total⟩)))
      { run with step := tale.reach } where
  total := accords.total
  fails := accords.fails
  step := (tale.steps_polled ..).symm
  more := by rwa [tale.steps_polled]
  suspended := accords.suspended
  reported := by
    rw [tale.steps_polled]
    rfl

end Accords

/-! ## After each call -/

/-- What is noted of a call that suspends or resumes a run. -/
def Entry.asked : Bool → Handle → Except Error Unit → Entry
  | true => .suspend
  | false => .resume

/-- An engine has the runs of which the calls say that they go on, and they stand as the calls
say. -/
structure Stands (origin : State) (history : List Entry) (s : State) : Prop where
  steps : s.steps = origin.steps
  size : s.size = origin.size
  failing : s.failing = origin.failing
  next : s.next = .ofNat (started history + 1)
  once : (s.runs.map (·.1)).Nodup
  runs : ∀ handle, Option.Rel (Accords origin) (going? handle history) (s.run? handle)
  numbered : ∀ entry ∈ history, ∀ handle, entry.given? = some handle →
    ∃ place, 0 < place ∧ place ≤ started history ∧ handle = ⟨.ofNat place⟩

namespace Stands

variable {origin s t : State} {history : List Entry} {entry : Entry} {handle : Handle}
  {tale : Tale} {run : Run} {config : Job.Config}

theorem exists_run (stands : Stands origin history s) (going : going? handle history = some tale) :
    ∃ run, s.run? handle = some run ∧ Accords origin tale run := by
  have rel := stands.runs handle
  rw [going] at rel
  cases found : s.run? handle with
  | none => rw [found] at rel; cases rel
  | some run =>
    rw [found] at rel
    cases rel with
    | some accords => exact ⟨run, rfl, accords⟩

theorem run?_none (stands : Stands origin history s) (gone : going? handle history = none) :
    s.run? handle = none := by
  have rel := stands.runs handle
  rw [gone] at rel
  cases found : s.run? handle with
  | none => rfl
  | some run => rw [found] at rel; cases rel

theorem sizeOf_eq (stands : Stands origin history s) : sizeOf s config = sizeOf origin config := by
  rw [sizeOf, sizeOf, stands.size]

/-- A call with a handle leaves an engine standing if it leaves the run of the handle standing, and
the others alone. -/
theorem called (stands : Stands origin history s) (own : entry.handle? = some handle)
    (settings : t = { s with runs := t.runs }) (once : (t.runs.map (·.1)).Nodup)
    (others : ∀ other, other ≠ handle → t.run? other = s.run? other)
    (stays : Option.Rel (Accords origin)
      (if entry.isEnd then none else (going? handle history).map (·.andThen entry))
      (t.run? handle)) :
    Stands origin (entry :: history) t := by
  have ungiven : entry.given? = none := by
    cases entry with
    | start => cases own
    | poll | suspend | resume | cancel => rfl
  have same : started (entry :: history) = started history := by
    rw [started, List.countP_cons_of_neg (by simp [ungiven]), started]
  refine ⟨?_, ?_, ?_, ?_, once, ?_, ?_⟩
  · rw [settings]; exact stands.steps
  · rw [settings]; exact stands.size
  · rw [settings]; exact stands.failing
  · rw [settings, same]; exact stands.next
  · intro other
    by_cases concerned : other = handle
    · subst concerned
      rw [going?_own own]
      exact stays
    · have apart : entry.handle? ≠ some other := by
        rw [own]
        exact fun h => concerned (Option.some.inj h).symm
      rw [going?_other apart (by rw [ungiven]; nofun), others other concerned]
      exact stands.runs other
  · rw [same]
    refine List.forall_mem_cons.2 ⟨fun other new => ?_, stands.numbered⟩
    rw [ungiven] at new
    cases new

/-- A run that is ended is forgotten. -/
theorem forgets (stands : Stands origin history s) (own : entry.handle? = some handle)
    (ends : entry.isEnd = true) : Stands origin (entry :: history) (s.forget handle) := by
  refine stands.called own rfl (once_forget stands.once) ?_ ?_
  · intro other apart
    rw [run?_forget, if_neg apart]
  · rw [ends, if_pos rfl, run?_forget, if_pos rfl]
    exact .none

/-- A call that is refused changes nothing. -/
theorem refused (stands : Stands origin history s) (own : entry.handle? = some handle)
    (gone : going? handle history = none) : Stands origin (entry :: history) s := by
  refine stands.called own rfl stands.once (fun _ _ => rfl) ?_
  rw [gone, Option.map_none, ite_self, stands.run?_none gone]
  exact .none

/-- A run that goes on changes as its tale does. -/
theorem goesOn {change : Run → Run} (stands : Stands origin history s)
    (own : entry.handle? = some handle) (lasts : entry.isEnd = false)
    (going : going? handle history = some tale) (found : s.run? handle = some run)
    (accords : Accords origin (tale.andThen entry) (change run)) :
    Stands origin (entry :: history) (s.modifyRun handle change) := by
  refine stands.called own rfl (once_modifyRun stands.once) ?_ ?_
  · intro other apart
    rw [run?_modifyRun, if_neg apart]
  · rw [lasts, going, run?_modifyRun, if_pos rfl, found]
    exact .some accords

theorem polled (stands : Stands origin history s) (handle : Handle) :
    Stands origin (.poll handle (poll handle s).1 :: history) (poll handle s).2 := by
  cases going : going? handle history with
  | none =>
    rw [poll, stands.run?_none going]
    exact stands.refused rfl going
  | some tale =>
    obtain ⟨run, found, accords⟩ := stands.exists_run going
    rcases Nat.lt_or_eq_of_le accords.reach_le with more | last
    · rw [accords.poll_of_lt found stands.steps more]
      dsimp only
      exact stands.goesOn rfl rfl going found (accords.polled more _)
    · rw [accords.poll_of_eq found stands.steps last]
      exact stands.forgets rfl rfl

/-- What is answered when a run is suspended or resumed. -/
theorem setSuspended_of_going (stands : Stands origin history s) (suspended : Bool)
    (going : going? handle history = some tale) :
    setSuspended suspended handle s =
      (.ok (), s.modifyRun handle fun run => { run with suspended := suspended }) := by
  obtain ⟨run, found, -⟩ := stands.exists_run going
  rw [setSuspended, found]

theorem setSuspended_of_gone (stands : Stands origin history s) (suspended : Bool)
    (gone : going? handle history = none) :
    setSuspended suspended handle s = (.error (.unknownHandle handle), s) := by
  rw [setSuspended, stands.run?_none gone]

/-- A run that is suspended or resumed stands as is told of it. -/
theorem asked (stands : Stands origin history s) (suspended : Bool) (handle : Handle) :
    Stands origin (.asked suspended handle (setSuspended suspended handle s).1 :: history)
      (setSuspended suspended handle s).2 := by
  have own (answer : Except Error Unit) :
      (Entry.asked suspended handle answer).handle? = some handle := by
    cases suspended <;> rfl
  cases going : going? handle history with
  | none =>
    rw [stands.setSuspended_of_gone suspended going]
    exact stands.refused (own _) going
  | some tale =>
    obtain ⟨run, found, accords⟩ := stands.exists_run going
    rw [stands.setSuspended_of_going suspended going]
    dsimp only
    refine stands.goesOn (own _) ?_ going found ?_
    · cases suspended <;> rfl
    · cases suspended <;> exact { accords with suspended := rfl }

/-- A start that is refused uses up no handle. -/
theorem start_of_error {e : Error} (stands : Stands origin history s)
    (refused : sizeOf origin config = .error e) : start config s = (.error e, s) := by
  rw [start, stands.sizeOf_eq, refused]

theorem start_of_ok {total : UInt64} (stands : Stands origin history s)
    (sized : sizeOf origin config = .ok total) :
    start config s = (.ok ⟨.ofNat (started history + 1)⟩,
      { s with
        next := s.next + 1
        runs := (s.forget ⟨s.next⟩).runs ++
          [(⟨s.next⟩, { total := total, fails := failsOn origin config })] }) := by
  rw [start, stands.sizeOf_eq, sized, failsOn, ← stands.failing, ← stands.next]

theorem launched {total : UInt64} (stands : Stands origin history s) (takes : 0 < origin.steps)
    (sized : sizeOf origin config = .ok total) :
    Stands origin (.start config (start config s).1 :: history) (start config s).2 := by
  have counted : started (.start config (.ok ⟨s.next⟩) :: history) = started history + 1 :=
    List.countP_cons_of_pos rfl
  have given : (⟨s.next⟩ : Handle) = ⟨.ofNat (started history + 1)⟩ := by rw [stands.next]
  have fresh : Accords origin { config := config }
      { total := total, fails := failsOn origin config } :=
    ⟨sized, rfl, rfl, takes, rfl, (bytesAt_zero ..).symm⟩
  rw [stands.start_of_ok sized, ← given]
  refine ⟨stands.steps, stands.size, stands.failing, ?_, ?_, ?_, ?_⟩
  · rw [counted, UInt64.ofNat_add, ← stands.next]
    rfl
  · dsimp only
    rw [List.map_append, List.map_singleton, ← List.concat_eq_append]
    refine (once_forget stands.once).concat ?_
    rw [← isSome_run?, run?_forget, if_pos rfl]
    exact Bool.false_ne_true
  · intro handle
    suffices found : ∀ t : State,
        t.runs = (s.forget ⟨s.next⟩).runs ++
          [(⟨s.next⟩, { total := total, fails := failsOn origin config })] →
        Option.Rel (Accords origin)
          (going? handle (.start config (.ok ⟨s.next⟩) :: history)) (t.run? handle) from
      found _ rfl
    intro t runs
    rw [run?_launched runs]
    by_cases new : handle = ⟨s.next⟩
    · rw [if_pos new, new, going?_given]
      exact .some fresh
    · rw [if_neg new, going?_start fun same => new (Except.ok.inj same).symm]
      exact stands.runs handle
  · rw [counted]
    refine List.forall_mem_cons.2 ⟨?_, fun entry there handle new => ?_⟩
    · intro handle new
      exact ⟨_, Nat.succ_pos _, Nat.le_refl _, by rw [← Option.some.inj new, given]⟩
    · obtain ⟨place, some, most, rfl⟩ := stands.numbered entry there handle new
      exact ⟨place, some, by omega, rfl⟩

theorem unlaunched {e : Error} (stands : Stands origin history s)
    (refused : sizeOf origin config = .error e) :
    Stands origin (.start config (start config s).1 :: history) (start config s).2 := by
  rw [stands.start_of_error refused]
  dsimp only
  refine ⟨stands.steps, stands.size, stands.failing, stands.next, stands.once, ?_, ?_⟩
  · intro handle
    have same : going? handle (.start config (.error e) :: history) = going? handle history :=
      going?_start nofun
    rw [same]
    exact stands.runs handle
  · exact List.forall_mem_cons.2 ⟨nofun, stands.numbered⟩

/-- The engine has the runs that go on, each once. -/
theorem active (stands : Stands origin history s) :
    ∃ handles : List Handle, handles.Nodup ∧
      (∀ handle, handle ∈ handles ↔ (going? handle history).isSome) ∧
      s.activeRuns = handles.length := by
  refine ⟨_, stands.once, fun handle => ?_, (List.length_map _).symm⟩
  have rel := stands.runs handle
  rw [← isSome_run?]
  generalize going? handle history = tale, s.run? handle = run at rel ⊢
  cases rel <;> rfl

end Stands

/-- After each call, the engine has the runs of which the calls say that they go on. -/
theorem Call.stands {origin s : State} {history : List Entry} (call : Call)
    (takes : 0 < origin.steps) (stands : Stands origin history s) :
    Stands origin ((call.perform s).1 :: history) (call.perform s).2 := by
  cases call with
  | start config =>
    cases sized : sizeOf origin config with
    | error e => exact stands.unlaunched sized
    | ok total => exact stands.launched takes sized
  | poll handle => exact stands.polled handle
  | suspend handle => exact stands.asked true handle
  | resume handle => exact stands.asked false handle
  | cancel handle => exact stands.forgets rfl rfl

theorem stands_perform {origin : State} (takes : 0 < origin.steps) (next : origin.next = 1)
    (runs : origin.runs = []) (calls : List Call) :
    Stands origin (perform origin calls).1 (perform origin calls).2 := by
  induction calls using List.reverseRecOn with
  | nil =>
    refine ⟨rfl, rfl, rfl, next, ?_, fun handle => ?_, nofun⟩
    · rw [perform, List.foldl_nil, runs]
      exact .nil
    · rw [perform, List.foldl_nil, State.run?, runs]
      exact .none
  | append_singleton calls call ih =>
    rw [perform, List.foldl_append]
    exact call.stands takes ih

/-! ## What is answered next -/

/-- What a poll of a run that goes on is answered. The bytes are those of all steps so far, rounded
down; the product fits in 128 bits. -/
structure Polls (origin : State) (tale : Tale) (answer : Polled) (total : UInt64) : Prop where
  sized : sizeOf origin tale.config = .ok total
  reach_le : tale.reach ≤ origin.steps
  fits : total.toNat * tale.reach < 2 ^ 128
  running : tale.reach < origin.steps → ∃ bytes, answer = .running ⟨bytes, some total⟩ ∧
    bytes.toNat = total.toNat * tale.reach / origin.steps ∧
    (tale.suspended = true → bytes = reported tale.calls)
  finished : tale.reach = origin.steps → answer = .finished
    (if failsOn origin tale.config then
      .failed ("simulated failure after " ++ toString total.toNat ++ " bytes")
    else .completed total)

theorem Stands.polls {origin s : State} {history : List Entry} {handle : Handle} {tale : Tale}
    (stands : Stands origin history s) (few : origin.steps < 2 ^ 32)
    (going : going? handle history = some tale) :
    ∃ total, Polls origin tale (poll handle s).1 total := by
  obtain ⟨run, found, accords⟩ := stands.exists_run going
  refine ⟨run.total, accords.total, accords.reach_le, ?_, fun more => ?_, fun last => ?_⟩
  · have small : run.total.toNat < 2 ^ 64 := run.total.toNat_lt
    have reached : tale.reach ≤ 2 ^ 32 := Nat.le_trans accords.reach_le (Nat.le_of_lt few)
    calc run.total.toNat * tale.reach
      _ ≤ run.total.toNat * 2 ^ 32 := Nat.mul_le_mul_left _ reached
      _ < 2 ^ 64 * 2 ^ 32 := Nat.mul_lt_mul_of_pos_right small (by decide)
      _ ≤ 2 ^ 128 := by decide
  · refine ⟨_, congrArg Prod.fst (accords.poll_of_lt found stands.steps more),
      toNat_bytesAt accords.reach_le, fun suspended => ?_⟩
    rw [accords.reported, Tale.reach, if_pos suspended]
  · exact congrArg Prod.fst (accords.poll_of_eq found stands.steps last)

/-- What is answered next, after some calls of an engine. -/
structure Simulates (origin : State) (history : List Entry) (s : State) : Prop where
  /-- A start that is refused changes nothing and uses up no handle. -/
  refuses : ∀ config e, sizeOf origin config = .error e → start config s = (.error e, s)
  /-- The other starts get the handles one after the other. -/
  starts : ∀ config total, sizeOf origin config = .ok total →
    (start config s).1 = .ok ⟨.ofNat (started history + 1)⟩
  /-- No handle is given twice in the first `2 ^ 64` starts. -/
  fresh : started history + 1 < UInt64.size →
    ∀ entry ∈ history, entry.given? ≠ some ⟨.ofNat (started history + 1)⟩
  polls : ∀ handle tale, going? handle history = some tale →
    ∃ total, Polls origin tale (poll handle s).1 total
  asks : ∀ handle suspended, (going? handle history).isSome →
    (setSuspended suspended handle s).1 = .ok ()
  unknown : ∀ handle, going? handle history = none →
    poll handle s = (.refused (.unknownHandle handle), s) ∧
    ∀ suspended, setSuspended suspended handle s = (.error (.unknownHandle handle), s)
  /-- A handle is unknown that was not given. -/
  ungiven : ∀ handle, (∀ entry ∈ history, entry.given? ≠ some handle) →
    going? handle history = none
  /-- A run is over when it was told to be finished or was cancelled, until its handle comes round
  again. -/
  ended : ∀ later entry earlier handle, history = later ++ entry :: earlier →
    entry.handle? = some handle → entry.isEnd = true →
    (∀ next ∈ later, next.given? ≠ some handle) → going? handle history = none
  cancels : ∀ handle, (cancel handle s).1 = .ok ()
  /-- A call leaves all runs alone but the one for which it is made. -/
  apart : ∀ (call : Call) other, call.handle? ≠ some other →
    (call.perform s).1.given? ≠ some other → (call.perform s).2.run? other = s.run? other
  /-- The runs that were started and are not over are counted. -/
  active : ∃ handles : List Handle, handles.Nodup ∧
    (∀ handle, handle ∈ handles ↔ (going? handle history).isSome) ∧
    s.activeRuns = handles.length

/-- The next handle has not been given yet, unless all handles have. -/
theorem Stands.fresh {origin s : State} {history : List Entry} (stands : Stands origin history s)
    (left : started history + 1 < UInt64.size) :
    ∀ entry ∈ history, entry.given? ≠ some ⟨.ofNat (started history + 1)⟩ := by
  intro entry there given
  obtain ⟨place, -, most, same⟩ := stands.numbered entry there _ given
  have numbers : UInt64.ofNat (started history + 1) = .ofNat place := congrArg Handle.number same
  have places := congrArg UInt64.toNat numbers
  rw [UInt64.toNat_ofNat_of_lt' left, UInt64.toNat_ofNat_of_lt' (by omega)] at places
  omega

/-- Whatever steps, size and failing targets a stub engine was made with, and whatever calls came
before: it answers the next call as it simulates. -/
theorem simulates (steps : UInt32) (size : UInt64) (failing : List Files.Path) (calls : List Call) :
    Simulates (making steps size failing) (perform (making steps size failing) calls).1
      (perform (making steps size failing) calls).2 := by
  have takes : 0 < (making steps size failing).steps :=
    Nat.lt_of_lt_of_le Nat.one_pos (Nat.le_max_right ..)
  have few : (making steps size failing).steps < 2 ^ 32 :=
    Nat.max_lt.2 ⟨steps.toNat_lt, by decide⟩
  have stands := stands_perform takes rfl rfl calls
  exact {
    refuses := fun config e refused => stands.start_of_error refused
    starts := fun config total sized => congrArg Prod.fst (stands.start_of_ok sized)
    fresh := stands.fresh
    polls := fun handle tale going => stands.polls few going
    asks := fun handle suspended going => by
      obtain ⟨tale, going⟩ := Option.isSome_iff_exists.1 going
      rw [stands.setSuspended_of_going suspended going]
    unknown := fun handle gone => ⟨by rw [poll, stands.run?_none gone],
      fun suspended => stands.setSuspended_of_gone suspended gone⟩
    ungiven := fun handle new => going?_of_ungiven new
    ended := fun later entry earlier handle split own ends kept => by
      rw [split]
      exact going?_of_isEnd own ends kept
    cancels := fun handle => rfl
    apart := fun call other own new => run?_perform call own new
    active := stands.active }

/-- Ten bytes in three steps: a third of them, the same again while the run is suspended, and two
thirds. -/
example :
    (perform (making 3 10 []) [.start { targetPath := "a" }, .poll ⟨1⟩, .suspend ⟨1⟩, .poll ⟨1⟩,
      .resume ⟨1⟩, .poll ⟨1⟩, .poll ⟨1⟩]).1.filterMap Entry.bytes? = [6, 3, 3] := by decide

end JobSwarm.Engine.Stub
