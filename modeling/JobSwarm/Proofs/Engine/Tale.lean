import JobSwarm.Engine.Stub
import Mathlib.Data.List.Basic

/-!
# What is told of a run

The stub engine is called again and again, with any handles. The calls so far tell of each run for
which job it was started and what was done with it since then, and whether it goes on. Calls with
other handles make no difference to it.

Results:

* `going?_own`, `going?_other`: what is told after one more call.
* `run?_perform`: a call leaves the runs alone that it does not concern.
-/

namespace JobSwarm.Engine.Stub

/-! ## Calls -/

/-- A call of the engine. -/
inductive Call where
  | start (config : Job.Config)
  | poll (handle : Handle)
  | suspend (handle : Handle)
  | resume (handle : Handle)
  | cancel (handle : Handle)

/-- A call, with what was answered. -/
inductive Entry where
  | start (config : Job.Config) (answer : Except Error Handle)
  | poll (handle : Handle) (answer : Polled)
  | suspend (handle : Handle) (answer : Except Error Unit)
  | resume (handle : Handle) (answer : Except Error Unit)
  | cancel (handle : Handle) (answer : Except Error Unit)

/-- What comes of a call. -/
def Call.perform (s : State) : Call → Entry × State
  | .start config => (.start config (Stub.start config s).1, (Stub.start config s).2)
  | .poll handle => (.poll handle (Stub.poll handle s).1, (Stub.poll handle s).2)
  | .suspend handle => (.suspend handle (setSuspended true handle s).1,
      (setSuspended true handle s).2)
  | .resume handle => (.resume handle (setSuspended false handle s).1,
      (setSuspended false handle s).2)
  | .cancel handle => (.cancel handle (Stub.cancel handle s).1, (Stub.cancel handle s).2)

/-- The handle with which a call is made. -/
def Call.handle? : Call → Option Handle
  | .start _ => none
  | .poll handle | .suspend handle | .resume handle | .cancel handle => some handle

/-- All that was answered, the last first, and the engine after some calls. -/
def perform (origin : State) (calls : List Call) : List Entry × State :=
  calls.foldl (fun past call =>
    ((call.perform past.2).1 :: past.1, (call.perform past.2).2)) ([], origin)

/-- A stub engine that has not been called yet. It takes one step at least. -/
def making (steps : UInt32) (size : UInt64) (failing : List Files.Path) : State :=
  { withSteps steps with size := size, failing := failing }

namespace Entry

/-- The handle with which a call was made. -/
def handle? : Entry → Option Handle
  | .start .. => none
  | .poll handle _ | .suspend handle _ | .resume handle _ | .cancel handle _ => some handle

/-- The handle that was given to a new run. -/
def given? : Entry → Option Handle
  | .start _ (.ok handle) => some handle
  | _ => none

def isPoll : Entry → Bool
  | .poll .. => true
  | _ => false

/-- Whether the run is over: it was told to be finished, or it was cancelled. -/
def isEnd : Entry → Bool
  | .poll _ (.finished _) | .cancel .. => true
  | _ => false

/-- Whether the run was suspended or resumed. -/
def suspends? : Entry → Option Bool
  | .suspend _ (.ok _) => some true
  | .resume _ (.ok _) => some false
  | _ => none

/-- The bytes that were reported. -/
def bytes? : Entry → Option UInt64
  | .poll _ (.running snapshot) => some snapshot.bytesProcessed
  | _ => none

end Entry

/-! ## Tales -/

/-- Whether some calls, the last first, have left a run suspended. -/
def isSuspended : List Entry → Bool
  | [] => false
  | entry :: earlier => entry.suspends?.getD (isSuspended earlier)

/-- How many of some calls, the last first, are polls that found the run not suspended. -/
def advances : List Entry → Nat
  | [] => 0
  | entry :: earlier =>
    if entry.isPoll && !isSuspended earlier then advances earlier + 1 else advances earlier

/-- The bytes that were reported last, none at first. -/
def reported : List Entry → UInt64
  | [] => 0
  | entry :: earlier => entry.bytes?.getD (reported earlier)

/-- What the calls tell of a run: the job for which it was started, and the calls with its handle
since then, the last first. -/
structure Tale where
  config : Job.Config
  calls : List Entry := []

namespace Tale

def isOver (tale : Tale) : Bool :=
  tale.calls.any Entry.isEnd

/-- How many steps the run has taken. -/
def steps (tale : Tale) : Nat :=
  advances tale.calls

def suspended (tale : Tale) : Bool :=
  isSuspended tale.calls

/-- The tale after one more call. -/
def andThen (tale : Tale) (entry : Entry) : Tale :=
  { tale with calls := entry :: tale.calls }

end Tale

/-- What some calls, the last first, tell of the run that a handle stands for. -/
def tale? (handle : Handle) : List Entry → Option Tale
  | [] => none
  | .start config (.ok given) :: earlier =>
    if given = handle then some { config := config } else tale? handle earlier
  | entry :: earlier =>
    if entry.handle? = some handle then (tale? handle earlier).map (·.andThen entry)
    else tale? handle earlier

/-- What they tell of a run that goes on. -/
def going? (handle : Handle) (history : List Entry) : Option Tale :=
  (tale? handle history).filter fun tale => !tale.isOver

/-- How many runs were started. -/
def started (history : List Entry) : Nat :=
  history.countP fun entry => entry.given?.isSome

section Tales

variable {handle given : Handle} {config : Job.Config} {history : List Entry} {entry : Entry}

/-- A call with a handle is told of the run that the handle stands for. -/
theorem tale?_own (own : entry.handle? = some handle) :
    tale? handle (entry :: history) = (tale? handle history).map (·.andThen entry) := by
  cases entry with
  | start => cases own
  | poll | suspend | resume | cancel => exact if_pos own

/-- Calls with other handles tell nothing of a run. -/
theorem tale?_other (own : entry.handle? ≠ some handle) (new : entry.given? ≠ some handle) :
    tale? handle (entry :: history) = tale? handle history := by
  cases entry with
  | start config answer =>
    cases answer with
    | error => rfl
    | ok given => exact if_neg fun same => new (congrArg some same)
  | poll | suspend | resume | cancel => exact if_neg own

/-- Something is told of the handles that were given. -/
theorem isSome_tale? :
    (tale? handle history).isSome ↔ ∃ entry ∈ history, entry.given? = some handle := by
  induction history with
  | nil => simp [tale?]
  | cons entry history ih =>
    rw [List.exists_mem_cons_iff, ← ih]
    cases entry with
    | start config answer =>
      cases answer with
      | error e => simp [tale?, Entry.given?, Entry.handle?]
      | ok given =>
        by_cases same : given = handle <;> simp [tale?, Entry.given?, same]
    | poll other | suspend other | resume other | cancel other =>
      by_cases own : other = handle <;> simp [tale?, Entry.given?, Entry.handle?, own]

theorem going?_given :
    going? given (.start config (.ok given) :: history) = some { config := config } := by
  simp [going?, tale?, Tale.isOver]

theorem going?_other (own : entry.handle? ≠ some handle) (new : entry.given? ≠ some handle) :
    going? handle (entry :: history) = going? handle history := by
  rw [going?, tale?_other own new, going?]

theorem going?_start {answer : Except Error Handle} (apart : answer ≠ .ok handle) :
    going? handle (.start config answer :: history) = going? handle history := by
  refine going?_other nofun ?_
  cases answer with
  | error => nofun
  | ok given => exact fun same => apart (congrArg Except.ok (Option.some.inj same))

/-- A call with the handle of a run that goes on goes on with its tale, or ends it. -/
theorem going?_own (own : entry.handle? = some handle) :
    going? handle (entry :: history) =
      if entry.isEnd then none else (going? handle history).map (·.andThen entry) := by
  rw [going?, tale?_own own, going?]
  cases tale? handle history with
  | none => simp
  | some tale =>
    rw [Option.map_some, Option.filter_some, Option.filter_some]
    unfold Tale.isOver Tale.andThen
    rw [List.any_cons]
    cases entry.isEnd <;> cases tale.calls.any Entry.isEnd <;> rfl

/-- Nothing goes on with a handle that was not given. -/
theorem going?_of_ungiven (new : ∀ entry ∈ history, entry.given? ≠ some handle) :
    going? handle history = none := by
  have untold : ¬(tale? handle history).isSome := fun told => by
    obtain ⟨entry, there, given⟩ := isSome_tale?.1 told
    exact new entry there given
  rw [going?, Option.not_isSome_iff_eq_none.1 untold, Option.filter_none]

/-- A run that was ended is over, unless its handle was given again. -/
theorem going?_of_isEnd {later earlier : List Entry} (own : entry.handle? = some handle)
    (ends : entry.isEnd = true) (kept : ∀ next ∈ later, next.given? ≠ some handle) :
    going? handle (later ++ entry :: earlier) = none := by
  induction later with
  | nil => rw [List.nil_append, going?_own own, if_pos ends]
  | cons next later ih =>
    obtain ⟨new, kept⟩ := List.forall_mem_cons.1 kept
    rw [List.cons_append]
    by_cases concerned : next.handle? = some handle
    · rw [going?_own concerned, ih kept, Option.map_none, ite_self]
    · rw [going?_other concerned new, ih kept]

end Tales

/-! ## The runs of an engine -/

section Runs

variable {s : State} {handle other : Handle} {run : Run}

/-- Another handle is looked for further on. -/
theorem lookup_other {rest : List (Handle × Run)} (apart : other ≠ handle) :
    List.lookup other ((handle, run) :: rest) = List.lookup other rest := by
  rw [List.lookup_cons, beq_eq_false_iff_ne.2 apart]

theorem isSome_run? : (s.run? handle).isSome ↔ handle ∈ s.runs.map (·.1) := by
  rw [State.run?, List.lookup_isSome_iff, List.mem_map]
  exact exists_congr fun entry => and_congr_right fun _ => by rw [beq_iff_eq, eq_comm]

theorem run?_forget :
    (s.forget handle).run? other = if other = handle then none else s.run? other := by
  simp only [State.run?, State.forget]
  induction s.runs with
  | nil => simp
  | cons entry rest ih =>
    obtain ⟨key, run⟩ := entry
    by_cases own : key = handle
    · subst own
      rw [List.filter_cons_of_neg (by simp), ih]
      split
      · rfl
      · next apart => rw [lookup_other apart]
    · rw [List.filter_cons_of_pos (by simpa using own)]
      by_cases same : other = key
      · rw [same, if_neg own, List.lookup_cons_self, List.lookup_cons_self]
      · rw [lookup_other same, lookup_other same, ih]

theorem run?_modifyRun {change : Run → Run} :
    (s.modifyRun handle change).run? other =
      if other = handle then (s.run? other).map change else s.run? other := by
  simp only [State.run?, State.modifyRun]
  induction s.runs with
  | nil => simp
  | cons entry rest ih =>
    obtain ⟨key, run⟩ := entry
    rw [List.map_cons]
    by_cases same : other = key
    · subst same
      by_cases own : other = handle
      · rw [if_pos own, if_pos own, ← own, List.lookup_cons_self, List.lookup_cons_self]
        rfl
      · rw [if_neg own, if_neg own, List.lookup_cons_self, List.lookup_cons_self]
    · by_cases own : key = handle
      · subst own
        rw [if_pos rfl, lookup_other same, ih, if_neg same, if_neg same, lookup_other same]
      · rw [if_neg own, lookup_other same, ih, lookup_other same]

/-- A new run is found under its handle, and the others as they were. -/
theorem run?_launched {t : State} (runs : t.runs = (s.forget handle).runs ++ [(handle, run)]) :
    t.run? other = if other = handle then some run else s.run? other := by
  have kept : (s.forget handle).runs.lookup other = _ := run?_forget
  rw [State.run?, runs, List.lookup_append, kept]
  by_cases same : other = handle
  · rw [if_pos same, if_pos same, same, List.lookup_cons_self]
    rfl
  · rw [if_neg same, if_neg same, lookup_other same, List.lookup_nil, Option.or_none]

theorem once_forget (once : (s.runs.map (·.1)).Nodup) :
    ((s.forget handle).runs.map (·.1)).Nodup :=
  once.sublist (List.filter_sublist.map _)

theorem once_modifyRun {change : Run → Run} (once : (s.runs.map (·.1)).Nodup) :
    ((s.modifyRun handle change).runs.map (·.1)).Nodup := by
  have keys : (s.modifyRun handle change).runs.map (·.1) = s.runs.map (·.1) := by
    simp only [State.modifyRun, List.map_map]
    refine List.map_congr_left fun entry _ => ?_
    by_cases own : entry.1 = handle <;> simp [own]
  rw [keys]
  exact once

/-! Calls leave the runs alone that they do not concern. -/

theorem run?_start {config : Job.Config} (apart : (start config s).1 ≠ .ok other) :
    (start config s).2.run? other = s.run? other := by
  revert apart
  rw [start]
  split
  · exact fun _ => rfl
  · intro apart
    rw [run?_launched rfl, if_neg fun same => apart (congrArg Except.ok same.symm)]

theorem run?_poll (apart : other ≠ handle) : (poll handle s).2.run? other = s.run? other := by
  rw [poll]
  split
  · rfl
  · dsimp only
    split
    · rw [run?_modifyRun, if_neg apart]
    · rw [run?_forget, if_neg apart]

theorem run?_cancel (apart : other ≠ handle) : (cancel handle s).2.run? other = s.run? other := by
  rw [cancel, run?_forget, if_neg apart]

theorem run?_setSuspended {suspended : Bool} (apart : other ≠ handle) :
    (setSuspended suspended handle s).2.run? other = s.run? other := by
  rw [setSuspended]
  split
  · rfl
  · rw [run?_modifyRun, if_neg apart]

theorem run?_perform (call : Call) (own : call.handle? ≠ some other)
    (new : (call.perform s).1.given? ≠ some other) :
    (call.perform s).2.run? other = s.run? other := by
  cases call with
  | start config =>
    refine run?_start fun given => new ?_
    rw [Call.perform, given]
    rfl
  | poll handle => exact run?_poll fun same => own (congrArg some same.symm)
  | suspend handle | resume handle =>
    exact run?_setSuspended fun same => own (congrArg some same.symm)
  | cancel handle => exact run?_cancel fun same => own (congrArg some same.symm)

end Runs

end JobSwarm.Engine.Stub
