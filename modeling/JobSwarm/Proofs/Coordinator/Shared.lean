import JobSwarm.Coordinator.Start
import JobSwarm.Engine.Stub
import JobSwarm.Proofs.Emitter.Calls
import JobSwarm.Proofs.Swarm.Catalog

/-!
# Starting on the shared emitter

In a process coordinators are started one after the other on the emitter that is shared, and work on
it from then on. Where none is shared yet, the first start shares one with the room of its own
settings, and it does so before the settings are checked: the emitter stays when they are refused.

Results:

* `startOn_error_iff`: a start is refused for its settings alone.
* `capacity_settle`: what happens in a coordinator leaves the room of its emitter.
* `start_of_none`: the emitter that a start makes is as if it had been shared before.
* `leaves_room`, `afterAll_room`: nothing that happens changes the room of a shared emitter.
* `starts_after`: which emitter the next start gets, whatever happened and was refused before.
-/

namespace JobSwarm.Coordinator

open Emitter (Shared)
open Time (Clock)

variable {σ α : Type}

/-! ## Refusals -/

section Refusals

variable {engine : Engine σ} {engineState : σ} {config : Config} {emitter : Emitter} {clock : Clock}

/-- Settings that pass their check start a coordinator. -/
theorem startOn_of_valid (valid : config.validate = .ok ()) :
    ∃ swarm, startOn engine engineState config emitter clock = .ok (spawnQueue
      { engine := engine, engineState := engineState, clock := clock, emitter := emitter,
        swarm := swarm } config.queue).2 := by
  obtain ⟨distinct, -⟩ := config.validate_catalog valid
  have new : Swarm.Expands config.swarm.agents clock.wall ⟨.empty config.swarm, []⟩ :=
    Swarm.populate_expands rfl _ _
  obtain ⟨t, fills, -⟩ := new.fills distinct
  refine ⟨t.swarm, ?_⟩
  rw [startOn, valid]
  dsimp only
  rw [assemble, fills]

/-- A start is refused for its settings alone. -/
theorem startOn_error_iff (emitter : Emitter) :
    (∃ e, startOn engine engineState config emitter clock = .error e) ↔
      ∃ fault, config.validate = .error fault := by
  constructor
  · rintro ⟨e, refused⟩
    cases valid : config.validate with
    | error fault => exact ⟨fault, rfl⟩
    | ok =>
      obtain ⟨swarm, starts⟩ := startOn_of_valid valid
      cases starts.symm.trans refused
  · rintro ⟨fault, invalid⟩
    exact ⟨_, startOn_invalid _ _ _ _ _ _ invalid⟩

end Refusals

/-! ## Room -/

theorem capacity_publishAll (emitter : Emitter) (notices : List Event.Notice) (now : Time.Instant) :
    (emitter.publishAll notices now).capacity = emitter.capacity := by
  rw [Emitter.publishAll]
  induction notices generalizing emitter with
  | nil => rfl
  | cons notice rest ih =>
    rw [List.foldl_cons, ih]
    rfl

section Room

variable {c : Coordinator σ}

theorem emitter_deliver (place : Nat) (messages : List Queue.Message) :
    (c.deliver place messages).emitter = c.emitter := by
  unfold deliver
  split
  · rfl
  · split <;> rfl

/-- What each step leaves is left by all, one after the other. -/
theorem foldl_leaves {ι β : Type} (part : Coordinator σ → β)
    {step : Coordinator σ → ι → Coordinator σ} (leaves : ∀ c item, part (step c item) = part c)
    (items : List ι) (c : Coordinator σ) : part (items.foldl step c) = part c := by
  induction items generalizing c with
  | nil => rfl
  | cons item rest ih => rw [List.foldl_cons, ih, leaves]

theorem emitter_ring (alarm : Nat × Alarm) : (c.ring alarm).emitter = c.emitter := by
  obtain ⟨due, alarm⟩ := alarm
  cases alarm with
  | pass place station => exact emitter_deliver ..
  | poll index poller =>
    show (c.poll index poller).emitter = c.emitter
    unfold poll
    split
    · rfl
    · exact emitter_deliver ..

theorem emitter_rouse : c.rouse.emitter = c.emitter := by
  have rings : c.rouse.emitter = c.hearIdle.hirePollers.emitter :=
    foldl_leaves emitter (fun _ alarm => emitter_ring alarm) _ _
  have hears : c.hearIdle.emitter = c.emitter :=
    foldl_leaves emitter (fun _ _ => emitter_deliver ..) _ _
  exact rings.trans hears

theorem capacity_run (place : Nat) (step : Step (Queue.Scene σ) α) :
    (c.run place step).2.emitter.capacity = c.emitter.capacity := by
  unfold run
  split
  · rfl
  split
  · rfl
  split <;> exact capacity_publishAll ..

theorem capacity_handle (place : Nat) (message : Queue.Message) :
    (c.handle place message).2.emitter.capacity = c.emitter.capacity := by
  have first := capacity_run (c := c) place (Queue.react c.engine c.clock message)
  unfold handle
  split
  · next h => rw [h] at first; exact first
  · next h =>
    rw [h] at first
    split
    · exact (capacity_run ..).trans first
    · exact first

theorem capacity_turn (place : Nat) : (c.turn place).emitter.capacity = c.emitter.capacity := by
  unfold turn
  split
  · rfl
  · next station _ =>
    exact foldl_leaves (·.emitter.capacity) (fun _ message => capacity_handle place message)
      station.mailbox _

theorem capacity_settleFor (n : Nat) : (settleFor n c).emitter.capacity = c.emitter.capacity := by
  induction n generalizing c with
  | zero => rfl
  | succ n ih =>
    rw [settleFor]
    split
    · rfl
    · rw [ih, emitter_rouse, capacity_turn]

/-- What happens in a coordinator leaves the room of its emitter. -/
theorem capacity_settle : c.settle.emitter.capacity = c.emitter.capacity := by
  rw [settle, capacity_settleFor, emitter_rouse]

theorem capacity_spawnQueue (config : Queue.Config) :
    (c.spawnQueue config).2.emitter.capacity = c.emitter.capacity :=
  capacity_settle

end Room

/-! ## One start after the other -/

/-- A start that somebody attempts. -/
structure Attempt (σ : Type) where
  engine : Engine σ
  engineState : σ
  config : Config
  clock : Clock

/-- What comes of an attempt, and what is shared then. -/
def Attempt.start (attempt : Attempt σ) (shared : Shared) :
    Except StartError (Coordinator σ) × Shared :=
  startShared attempt.engine attempt.engineState attempt.config shared attempt.clock

/-- Something that happens in a process: somebody attempts a start, or an emitter is called, by a
coordinator that was started on it or by anybody else. -/
inductive Happening (σ : Type) where
  | attempt (attempt : Attempt σ)
  | call (place : Nat) (call : Emitter.Call)

namespace Happening

/-- What is shared afterwards, whatever came of it. -/
def leaves (shared : Shared) : Happening σ → Shared
  | .attempt next => (next.start shared).2
  | .call place made => shared.update place fun emitter => (made.perform emitter).2

def attempt? : Happening σ → Option (Attempt σ)
  | .attempt next => some next
  | .call .. => none

/-- A start with settings that do not pass their check. -/
def Refused (happening : Happening σ) : Prop :=
  ∃ attempt fault, happening = .attempt attempt ∧ attempt.config.validate = .error fault

end Happening

/-- What is shared after all that has happened. -/
def afterAll (happenings : List (Happening σ)) (shared : Shared) : Shared :=
  happenings.foldl Happening.leaves shared

/-- What is shared after a start on which nobody had shared an emitter. -/
def sharing (config : Config) (shared : Shared) : Shared :=
  (shared.install (.ofConfig config.events)).2

/-- If an emitter is shared, then it is one of those that were made. -/
def Sane (shared : Shared) : Prop :=
  ∀ place, shared.current = some place → place < shared.emitters.length

/-- How much room the emitters have. -/
def rooms (shared : Shared) : List Nat :=
  shared.emitters.map (·.capacity)

/-- How much room the shared emitter has. -/
def room? (shared : Shared) : Option Nat :=
  shared.emitter?.map (·.capacity)

theorem sane_unset : Sane {} := by
  rintro place ⟨⟩

theorem sane_sharing (config : Config) (shared : Shared) : Sane (sharing config shared) := by
  rintro place ⟨⟩
  simp [sharing, Emitter.Shared.install]

section Starts

variable {attempt : Attempt σ} {shared other : Shared} {place : Nat} {happening : Happening σ}
  {happenings : List (Happening σ)}

theorem room?_eq : room? shared = shared.current.bind fun place => (rooms shared)[place]? := by
  rw [room?, Emitter.Shared.emitter?, Option.map_bind]
  exact congrArg (shared.current.bind ·) (funext fun _ => List.getElem?_map.symm)

theorem room?_sharing (config : Config) (shared : Shared) :
    room? (sharing config shared) = some (Emitter.ofConfig config.events).capacity := by
  rw [room?, Emitter.Shared.emitter?, sharing, Emitter.Shared.install, Option.bind_some,
    List.getElem?_concat_length, Option.map_some]

theorem sane_of_rooms (sane : Sane shared) (current : other.current = shared.current)
    (same : rooms other = rooms shared) : Sane other := by
  intro place there
  have length := congrArg List.length same
  rw [rooms, rooms, List.length_map, List.length_map] at length
  rw [length]
  exact sane place (current ▸ there)

/-- A changed emitter with the room that it had. -/
theorem rooms_update {change : Emitter → Emitter}
    (same : ∀ emitter, shared.emitters[place]? = some emitter →
      (change emitter).capacity = emitter.capacity) :
    rooms (shared.update place change) = rooms shared := by
  refine List.ext_getElem? fun i => ?_
  rw [rooms, rooms, Emitter.Shared.update, List.getElem?_map, List.getElem?_map,
    List.getElem?_modify]
  cases there : shared.emitters[i]? with
  | none => rfl
  | some emitter =>
    rw [Option.map_eq_map, Option.map_some, Option.map_some, Option.map_some]
    split
    · next here => rw [same emitter (here ▸ there)]
    · rfl

/-! ## What a start does -/

/-- A start on an emitter that is shared. -/
theorem start_of_some {emitter : Emitter} (current : shared.current = some place)
    (there : shared.emitters[place]? = some emitter) :
    attempt.start shared =
      match startOn attempt.engine attempt.engineState attempt.config emitter attempt.clock with
      | .error e => (.error e, shared)
      | .ok c => (.ok c, shared.update place fun _ => c.emitter) := by
  rw [Attempt.start, startShared, Emitter.Shared.getOrInstall, current]
  dsimp only
  rw [there]
  rfl

/-- Where none is shared, the one that a start makes is as if it had been shared before. -/
theorem start_of_none (current : shared.current = none) :
    attempt.start shared = attempt.start (sharing attempt.config shared) := by
  rw [Attempt.start, startShared, Emitter.Shared.getOrInstall, current]
  rfl

theorem exists_emitter (current : shared.current = some place) (sane : Sane shared) :
    ∃ emitter, shared.emitters[place]? = some emitter ∧ shared.emitter? = some emitter := by
  rw [Emitter.Shared.emitter?, current]
  exact ⟨_, List.getElem?_eq_getElem (sane place current),
    List.getElem?_eq_getElem (sane place current)⟩

theorem capacity_startOn {engine : Engine σ} {engineState : σ} {config : Config}
    {emitter : Emitter} {clock : Clock} {c : Coordinator σ}
    (starts : startOn engine engineState config emitter clock = .ok c) :
    c.emitter.capacity = emitter.capacity := by
  cases valid : config.validate with
  | error fault => cases (startOn_invalid _ _ _ _ _ _ valid).symm.trans starts
  | ok =>
    obtain ⟨swarm, starts'⟩ := startOn_of_valid valid
    obtain rfl := Except.ok.inj (starts'.symm.trans starts)
    exact capacity_spawnQueue _

/-- What a start leaves where an emitter is shared: the same one is shared, with the same room. -/
theorem start_room (attempt : Attempt σ) (current : shared.current = some place)
    (sane : Sane shared) :
    (attempt.start shared).2.current = some place ∧
      rooms (attempt.start shared).2 = rooms shared := by
  obtain ⟨emitter, there, -⟩ := exists_emitter current sane
  rw [start_of_some current there]
  split
  · exact ⟨current, rfl⟩
  · next c starts =>
    refine ⟨current, rooms_update fun other there' => ?_⟩
    rw [capacity_startOn starts, Option.some.inj (there.symm.trans there')]

/-- A coordinator that starts, and the emitter on which it works. -/
theorem emitter_of_start {c : Coordinator σ} (current : shared.current = some place)
    (sane : Sane shared) (starts : (attempt.start shared).1 = .ok c) :
    (attempt.start shared).2.emitter? = some c.emitter ∧
      room? shared = some c.emitter.capacity := by
  obtain ⟨emitter, there, shares⟩ := exists_emitter current sane
  rw [start_of_some current there] at starts ⊢
  split at starts
  · cases starts
  · next c' starts' =>
    cases starts
    constructor
    · show shared.current.bind _ = _
      rw [current, Option.bind_some, Emitter.Shared.update, List.getElem?_modify_eq, there]
      rfl
    · rw [room?, shares, Option.map_some, capacity_startOn starts']

/-- A start that is refused leaves a shared emitter as it is. -/
theorem start_of_refused {fault : Config.Fault} (current : shared.current = some place)
    (sane : Sane shared) (invalid : attempt.config.validate = .error fault) :
    (attempt.start shared).2 = shared := by
  obtain ⟨emitter, there, -⟩ := exists_emitter current sane
  rw [start_of_some current there, startOn_invalid _ _ _ _ _ _ invalid]

theorem start_error_iff (sane : Sane shared) :
    (∃ e, (attempt.start shared).1 = .error e) ↔
      ∃ fault, attempt.config.validate = .error fault := by
  have refused {shared : Shared} {place : Nat} (current : shared.current = some place)
      (sane : Sane shared) : (∃ e, (attempt.start shared).1 = .error e) ↔
        ∃ fault, attempt.config.validate = .error fault := by
    obtain ⟨emitter, there, -⟩ := exists_emitter current sane
    rw [← startOn_error_iff emitter, start_of_some current there]
    split
    · next e refused => rw [refused]
    · next c starts => rw [starts]
  cases current : shared.current with
  | some place => exact refused current sane
  | none =>
    rw [start_of_none current]
    exact refused rfl (sane_sharing _ _)

/-! ## What is left of the shared emitters -/

theorem capacity_perform (call : Emitter.Call) (emitter : Emitter) :
    (call.perform emitter).2.capacity = emitter.capacity := by
  cases performs : call.perform emitter with
  | mk answer after =>
    obtain ⟨_, _, -, -, rfl⟩ | ⟨-, -, same, -⟩ := Emitter.perform_cases performs
    · rfl
    · exact same

theorem leaves_room (current : shared.current = some place) (sane : Sane shared) :
    (happening.leaves shared).current = some place ∧
      rooms (happening.leaves shared) = rooms shared := by
  cases happening with
  | attempt attempt => exact start_room attempt current sane
  | call place call => exact ⟨current, rooms_update fun emitter _ => capacity_perform call emitter⟩

/-- Whatever happens, a shared emitter stays shared and keeps its room. -/
theorem afterAll_room (happenings : List (Happening σ)) (current : shared.current = some place)
    (sane : Sane shared) :
    (afterAll happenings shared).current = some place ∧
      rooms (afterAll happenings shared) = rooms shared := by
  induction happenings generalizing shared with
  | nil => exact ⟨current, rfl⟩
  | cons happening rest ih =>
    obtain ⟨still, same⟩ := leaves_room current sane
    obtain ⟨still', same'⟩ := ih still (sane_of_rooms sane (still.trans current.symm) same)
    exact ⟨still', same'.trans same⟩

/-- The first attempt settles which emitter is shared, and how much room it has. -/
theorem afterAll_of_none (happenings : List (Happening σ)) (current : shared.current = none) :
    match happenings.findSome? Happening.attempt? with
    | none => (afterAll happenings shared).current = none
    | some first => (afterAll happenings shared).current = some shared.emitters.length ∧
        room? (afterAll happenings shared) =
          some (Emitter.ofConfig first.config.events).capacity := by
  induction happenings generalizing shared with
  | nil => exact current
  | cons happening rest ih =>
    cases happening with
    | call place call =>
      let called := shared.update place fun emitter => (call.perform emitter).2
      have length : called.emitters.length = shared.emitters.length := List.length_modify ..
      have later := @ih called current
      rw [length] at later
      exact later
    | attempt attempt =>
      have made : (sharing attempt.config shared).current = some shared.emitters.length := rfl
      have sane := sane_sharing attempt.config shared
      obtain ⟨still, same⟩ := start_room attempt made sane
      obtain ⟨still', same'⟩ := afterAll_room rest still
        (sane_of_rooms sane (still.trans made.symm) same)
      show (afterAll rest (attempt.start shared).2).current = _ ∧
        room? (afterAll rest (attempt.start shared).2) = _
      rw [start_of_none current, room?_eq, still', same', same]
      refine ⟨rfl, ?_⟩
      rw [← room?_sharing _ shared, room?_eq, made]

theorem sane_afterAll (happenings : List (Happening σ)) (sane : Sane shared) :
    Sane (afterAll happenings shared) := by
  cases current : shared.current with
  | some place =>
    obtain ⟨still, same⟩ := afterAll_room happenings current sane
    exact sane_of_rooms sane (still.trans current.symm) same
  | none =>
    have later := afterAll_of_none happenings current
    split at later
    · intro place there
      cases later.symm.trans there
    · intro place there
      obtain ⟨emitter, shares, -⟩ := Option.map_eq_some_iff.1 later.2
      rw [Emitter.Shared.emitter?, there, Option.bind_some] at shares
      exact (List.getElem?_eq_some_iff.1 shares).1

/-- Starts that are refused leave a shared emitter as it is. -/
theorem afterAll_of_refused (current : shared.current = some place) (sane : Sane shared)
    (refused : ∀ happening ∈ happenings, happening.Refused) :
    afterAll happenings shared = shared := by
  induction happenings with
  | nil => rfl
  | cons happening rest ih =>
    obtain ⟨attempt, fault, rfl, invalid⟩ := refused happening List.mem_cons_self
    rw [afterAll, List.foldl_cons, Happening.leaves, start_of_refused current sane invalid]
    exact ih fun other mem => refused other (List.mem_cons_of_mem _ mem)

theorem exists_start (sane : Sane shared) (valid : attempt.config.validate = .ok ()) :
    ∃ c, (attempt.start shared).1 = .ok c ∧ c.emitter.capacity =
      (room? shared).getD (Emitter.ofConfig attempt.config.events).capacity := by
  cases start : (attempt.start shared).1 with
  | error e =>
    obtain ⟨fault, invalid⟩ := (start_error_iff sane).1 ⟨e, start⟩
    cases valid.symm.trans invalid
  | ok c =>
    refine ⟨c, rfl, ?_⟩
    cases current : shared.current with
    | some place =>
      obtain ⟨-, room⟩ := emitter_of_start current sane start
      rw [room, Option.getD_some]
    | none =>
      rw [start_of_none current] at start
      obtain ⟨-, room⟩ := emitter_of_start rfl (sane_sharing _ _) start
      rw [room?_sharing] at room
      rw [room?, Emitter.Shared.emitter?, current]
      exact (Option.some.inj room).symm

end Starts

/-! ## The next start -/

/-- What the next start meets after all that has happened. -/
structure Meets (shared : Shared) (happenings : List (Happening σ)) (next : Attempt σ) : Prop where
  /-- An emitter that was shared before is shared still, and no emitter has got other room. -/
  kept : ∀ place, shared.current = some place →
    (afterAll happenings shared).current = some place ∧
      rooms (afterAll happenings shared) = rooms shared
  /-- Starts that were refused have left it as it was. -/
  untouched : shared.current ≠ none → (∀ happening ∈ happenings, happening.Refused) →
    afterAll happenings shared = shared
  /-- Where none was shared before, none is shared until somebody attempts a start. The first
  attempt has shared one, even if it was refused. -/
  made : shared.current = none →
    (afterAll happenings shared).current =
      (happenings.findSome? Happening.attempt?).map fun _ => shared.emitters.length
  /-- That is all which refused starts have left behind. -/
  leftover : shared.current = none → ∀ first rest, happenings = .attempt first :: rest →
    (∀ happening ∈ happenings, happening.Refused) →
      afterAll happenings shared = sharing first.config shared
  /-- A start is refused for its settings alone. -/
  refused_iff : (∃ e, (next.start (afterAll happenings shared)).1 = .error e) ↔
    ∃ fault, next.config.validate = .error fault
  /-- A coordinator that starts has the room of the emitter that was shared before, and where there
  was none, that of the settings of the first attempt. -/
  room : ∀ c, (next.start (afterAll happenings shared)).1 = .ok c → c.emitter.capacity =
    (shared.emitter?.getD (.ofConfig
      ((happenings.findSome? Happening.attempt?).getD next).config.events)).capacity
  /-- It works on the emitter that is shared. -/
  shares : ∀ c, (next.start (afterAll happenings shared)).1 = .ok c →
    (next.start (afterAll happenings shared)).2.emitter? = some c.emitter

/-- The emitter that was shared before is used by whoever starts; where there was none, it is that
of the first attempt, refused or not. -/
theorem starts_after {shared : Shared} (sane : Sane shared) (happenings : List (Happening σ))
    (next : Attempt σ) : Meets shared happenings next where
  kept place current := afterAll_room happenings current sane
  untouched current refused := by
    obtain ⟨place, current⟩ := Option.ne_none_iff_exists'.1 current
    exact afterAll_of_refused current sane refused
  made current := by
    have later := afterAll_of_none happenings current
    split at later
    · next none => rw [later, none, Option.map_none]
    · next first some => rw [later.1, some, Option.map_some]
  leftover := by
    rintro current first rest rfl refused
    have made : (sharing first.config shared).current = some shared.emitters.length := rfl
    have same := afterAll_of_refused made (sane_sharing _ _) refused
    rw [afterAll, List.foldl_cons, Happening.leaves] at same ⊢
    rw [start_of_none current]
    exact same
  refused_iff := start_error_iff (sane_afterAll happenings sane)
  room := by
    intro c starts
    have sane' := sane_afterAll happenings sane
    cases current : shared.current with
    | some place =>
      obtain ⟨still, same⟩ := afterAll_room happenings current sane
      obtain ⟨-, room⟩ := emitter_of_start still sane' starts
      obtain ⟨emitter, -, there⟩ := exists_emitter current sane
      rw [room?_eq, still, same, ← current, ← room?_eq, room?, there] at room
      rw [there, Option.getD_some]
      exact (Option.some.inj room).symm
    | none =>
      have later := afterAll_of_none happenings current
      have unset : shared.emitter? = none := by
        rw [Emitter.Shared.emitter?, current]
        rfl
      rw [unset, Option.getD_none]
      split at later
      · next none =>
        rw [start_of_none later] at starts
        obtain ⟨-, room⟩ := emitter_of_start rfl (sane_sharing _ _) starts
        rw [room?_sharing] at room
        rw [none, Option.getD_none]
        exact (Option.some.inj room).symm
      · next first some =>
        obtain ⟨-, room⟩ := emitter_of_start later.1 sane' starts
        rw [later.2] at room
        rw [some, Option.getD_some]
        exact (Option.some.inj room).symm
  shares := by
    intro c starts
    have sane' := sane_afterAll happenings sane
    cases current : (afterAll happenings shared).current with
    | some place => exact (emitter_of_start current sane' starts).1
    | none =>
      rw [start_of_none current] at starts ⊢
      exact (emitter_of_start rfl (sane_sharing _ _) starts).1

/-- An attempt to start with some room for events. -/
def withRoom (room : UInt64) : Attempt Engine.Stub.State where
  engine := Engine.Stub.engine
  engineState := Engine.Stub.withSteps 2
  config := { events := { historyCapacity := room } }
  clock := { wall := .epoch }

theorem starts_after_of_refused : Meets {} [.attempt (withRoom 0)] (withRoom 3) :=
  starts_after sane_unset _ _

/-- A start without room is refused, and the emitter that it has made stays behind. The next start
gets room for one event and not for the three that it asks for, which it would have got else. -/
theorem refused_start_shares :
    (∃ fault, ((withRoom 0).start {}).1 = .error (.config fault)) ∧
      ((withRoom 0).start {}).2.current = some 0 ∧
      (∃ c, ((withRoom 3).start ((withRoom 0).start {}).2).1 = .ok c ∧ c.emitter.capacity = 1) ∧
      ∃ c, ((withRoom 3).start {}).1 = .ok c ∧ c.emitter.capacity = 3 := by
  exact ⟨⟨_, rfl⟩, rfl, exists_start (sane_sharing _ _) rfl, exists_start sane_unset rfl⟩

end JobSwarm.Coordinator
