import JobSwarm.Proofs.Codec.Target
import JobSwarm.Proofs.Engine.Lifecycle

/-!
# Whole copies

A run of the store codec that nobody cancels ends with the bytes of its target in the output,
however many bytes each read gives and whatever else is asked of the engine in between. While it
is at work the output holds the bytes that are told as processed.

Results:

* `Copies.next`: each thing that the codec does leaves less to be done, and nothing told is taken
  back.
* `Session.Goes.copies_target`: what is told while the codec works, what the files hold, and how it
  ends.
* `runToEnd_copies`: a run that nobody asks anything of.
-/

namespace JobSwarm.Codec.Store

open Engine (Blocking.State Blocking.Run Blocking.Entry Blocking.Performs Handle)
open Files (Place Tree)

/-! ## Stages and sessions -/

/-- How many bytes of a content are copied at a stage. -/
def Stage.copied (content : List UInt8) : Stage → Nat
  | .opening | .creating _ | .interrupted => 0
  | .asking copy | .copying copy => copy.position
  | .ended => content.length

/-- How many things are left to be done, at most: two for each byte, and three besides. -/
def Stage.left (content : List UInt8) : Stage → Nat
  | .opening => 2 * content.length + 3
  | .creating _ => 2 * content.length + 2
  | .asking copy => 2 * (content.length - copy.position) + 2
  | .copying copy => 2 * (content.length - copy.position) + 1
  | .interrupted => 1
  | .ended => 0

theorem Stage.left_le {content : List UInt8} (stage : Stage) :
    stage.left content ≤ 2 * content.length + 3 := by
  cases stage with
  | opening | creating | asking | copying | interrupted | ended =>
    simp only [left]
    omega

/-- Whether something leaves a run to its codec: the run is not cancelled, and nobody else does
what its codec does. -/
def leaves (handle : Handle) : Blocking.Entry → Bool
  | .cancel other .. | .act other .. | .wake other _ => other ≠ handle
  | .start .. | .poll .. | .suspend .. | .resume .. => true

namespace Session

/-- What comes of a session while nobody cancels the run. A read gives some bytes, and between the
things that the codec does anything may be asked of the engine, for this run and for others. -/
inductive Goes (config : Job.Config) (handle : Handle) (s : Session) : Session → Prop
  | begins : Goes config handle s s
  | works {t : Session} {limit : Nat} (earlier : Goes config handle s t) (some_bytes : 0 < limit) :
      Goes config handle s (t.step limit config handle)
  | asked {t : Session} {entry : Blocking.Entry} {engine : Blocking.State}
      (earlier : Goes config handle s t) (performs : Blocking.Performs name t.engine entry engine)
      (spared : leaves handle entry = true) : Goes config handle s { t with engine := engine }

/-- What a poll of the run is answered. -/
def told (handle : Handle) (t : Session) : Engine.Polled :=
  (Engine.Blocking.poll name handle t.engine).1

end Session

variable {config : Job.Config} {handle : Handle} {tree now : Tree} {source : Place}
  {output : Option Place} {content : List UInt8} {stage after : Stage} {action : Action}
  {run : Blocking.Run} {entry : Blocking.Entry} {limit : Nat}

/-! ## The run of a codec at some stage -/

/-- A run stands as its codec has told it by some stage. -/
structure Tells (content : List UInt8) (stage : Stage) (run : Blocking.Run) : Prop where
  uncancelled : run.cancelled = false
  processed : run.processed = .ofNat (stage.copied content)
  total : run.total = if stage = .opening then none else some (.ofNat content.length)
  /-- A codec ends by having copied everything. -/
  ended : stage = .ended → run.phase = .ended (.completed (.ofNat content.length))
  going : stage ≠ .ended → run.known = true ∧ (run.phase = .working ∨ run.phase = .blocked)
  uninterrupted : stage ≠ .interrupted
  /-- A codec waits only at a checkpoint. -/
  waits : run.phase = .blocked → ∃ copy, stage = .copying copy

namespace Tells

theorem begins : Tells content .opening .fresh where
  uncancelled := rfl
  processed := rfl
  total := rfl
  ended := nofun
  going := fun _ => ⟨rfl, .inl rfl⟩
  uninterrupted := nofun
  waits := nofun

/-- Whatever is asked of the engine leaves the run as its codec has told it. -/
theorem asked (h : Tells content stage run) (answers : run.Answers name handle entry)
    (spared : leaves handle entry = true) : Tells content stage (run.after entry) := by
  cases answers with
  | poll =>
    unfold Blocking.Run.polled
    split
    · split
      · next ending ended =>
        refine ⟨h.uncancelled, h.processed, h.total, h.ended, fun going => ?_, h.uninterrupted,
          h.waits⟩
        obtain ⟨-, working | blocked⟩ := h.going going
        · rw [ended] at working
          cases working
        · rw [ended] at blocked
          cases blocked
      · exact h
      · exact h
    · exact h
  | suspend | resume =>
    unfold Blocking.Run.asked
    split
    · exact ⟨h.uncancelled, h.processed, h.total, h.ended, h.going, h.uninterrupted, h.waits⟩
    · exact h
  | cancel | act | wake => simp [leaves] at spared

/-- A run that is not cancelled is not interrupted. -/
theorem look (h : Tells content stage run) : run.look.1 ≠ .interrupted := by
  unfold Blocking.Run.look
  rw [h.uncancelled, if_neg Bool.false_ne_true]
  split <;> nofun

theorem act (h : Tells content stage run) (action : Action) :
    (run.act action).1 ≠ .interrupted := by
  cases action with
  | checkpoint => exact h.look
  | setTotal | advance | askCancelled | finish => nofun

/-- A codec that looks goes on or waits. -/
theorem checkpoint {copy : Copy} (h : Tells content stage run) (going : stage ≠ .ended)
    (same : copy.position = stage.copied content) (opened : stage ≠ .opening) :
    Tells content (.copying copy) run.look.2 := by
  rw [run.look_eq]
  refine ⟨h.uncancelled, ?_, ?_, nofun, fun _ => ⟨(h.going going).1, ?_⟩, nofun,
    fun _ => ⟨copy, rfl⟩⟩
  · rw [h.processed, Stage.copied, same]
  · rw [h.total, if_neg opened, if_neg nofun]
  · dsimp only
    split
    · exact .inr rfl
    · exact .inl rfl

/-- A codec that waits wakes where it waits. -/
theorem wakes (h : Tells content stage run) (waits : run.phase = .blocked) :
    Tells content stage run.look.2 := by
  obtain ⟨copy, rfl⟩ := h.waits waits
  exact h.checkpoint nofun rfl nofun

/-- What is told of the run. -/
theorem polled (h : Tells content stage run) :
    run.polled name handle =
      if stage = .ended then
        if run.known then .finished (.completed (.ofNat content.length))
        else .refused (.unknownHandle handle)
      else .running ⟨.ofNat (stage.copied content),
        if stage = .opening then none else some (.ofNat content.length)⟩ := by
  unfold Blocking.Run.polled
  by_cases ended : stage = .ended
  · rw [if_pos ended, h.ended ended]
    rfl
  · obtain ⟨known, working | blocked⟩ := h.going ended
    · rw [if_neg ended, known, working, h.processed, h.total]
      rfl
    · rw [if_neg ended, known, blocked, h.processed, h.total]
      rfl

end Tells

/-! ## Steps of the copy -/

/-- A job whose target can be copied to its output. -/
structure Copyable (config : Job.Config) (tree : Tree) (content : List UInt8) (source : Place)
    (output : Option Place) : Prop where
  opens : tree.openPath config.targetPath = .ok source
  file : tree.find? source = some (.file content)
  creates : ∃ made, createOutput config tree = .ok (output, made)
  apart : output ≠ some source
  /-- No file has as many bytes as stand for a total that is not known. -/
  counts : content.length < Engine.Blocking.unknownTotal.toNat

/-- How the files stand while a target is copied, and how far the codec is. -/
structure Copies (config : Job.Config) (tree : Tree) (content : List UInt8) (output : Option Place)
    (stage : Stage) (now : Tree) : Prop where
  tracks : Tracks config tree stage now
  bounded : stage.copied content ≤ content.length
  /-- The output holds what is copied. -/
  holds : stage.created = true → ∀ place, output = some place →
    now.find? place = some (.file (content.take (stage.copied content)))

/-- A codec goes on to another stage: less is left to be done, what was told is not taken back, and
the run knows of it. -/
structure Onward (content : List UInt8) (stage : Stage) (action : Action) (after : Stage) : Prop
    where
  left : after.left content < stage.left content
  copied : stage.copied content ≤ after.copied content
  opened : after ≠ .opening
  tells : ∀ run, Tells content stage run → run.phase = .working →
    Tells content after (run.act action).2

namespace Copyable

/-- The target stays as it is, and a read gives what follows the bytes that are copied. -/
theorem read (job : Copyable config tree content source output)
    (tracks : Tracks config tree stage now) (position limit : Nat) :
    now.read source position limit = .ok ((content.drop position).take limit) := by
  have spared : overwrites config tree source = false := by
    by_contra overwritten
    obtain ⟨made, created⟩ := overwrites_iff.1 (by simpa using overwritten)
    obtain ⟨made', created'⟩ := job.creates
    rw [created] at created'
    cases created'
    exact job.apart rfl
  rw [Tree.read, tracks.spares source spared, job.file]

theorem size (job : Copyable config tree content source output) :
    tree.sizeAt source = content.length := by
  unfold Tree.sizeAt
  rw [job.file]

theorem source_eq (job : Copyable config tree content source output)
    (tracks : Tracks config tree stage now) {place : Place} (open_ : stage.source? = some place) :
    place = source :=
  Except.ok.inj ((tracks.opened place open_).symm.trans job.opens)

theorem output_eq (job : Copyable config tree content source output)
    (tracks : Tracks config tree stage now) {copy : Copy} (made : stage.copy? = some copy) :
    copy.output = output := by
  obtain ⟨_, created⟩ := tracks.output copy made
  obtain ⟨_, created'⟩ := job.creates
  rw [created] at created'
  cases created'
  rfl

end Copyable

/-- A piece that is written to a file stands after what the file holds. -/
theorem find?_append_self {place : Place} (bytes : List UInt8)
    (file : now.find? place = some (.file content)) :
    (now.append place bytes).find? place = some (.file (content ++ bytes)) := by
  have named : place ≠ [] := by
    intro root
    rw [root] at file
    cases file
  unfold Tree.append
  rw [file]
  exact Tree.find?_put_self _ _ _ named

/-- A piece takes the copy as far as it goes. -/
theorem take_add_piece {piece : List UInt8} {position : Nat}
    (reads : (content.drop position).take limit = piece) :
    content.take (position + piece.length) = content.take position ++ piece := by
  rw [List.take_add, ← List.prefix_iff_eq_take.1 (reads ▸ List.take_prefix limit _)]

namespace Copies

variable {made : Tree}

theorem begins : Copies config tree content output .opening tree where
  tracks := .begins config tree
  bounded := Nat.zero_le _
  holds := nofun

theorem opening (h : Copies config tree content output .opening now)
    (job : Copyable config tree content source output)
    (step : Store.next limit config .opening now = some (action, after, made)) :
    Copies config tree content output after made ∧ Onward content .opening action after := by
  have tracks := h.tracks.step step
  cases h.tracks.untouched rfl
  unfold Store.next at step
  simp only [job.opens] at step
  cases step
  refine ⟨⟨tracks, Nat.zero_le _, nofun⟩, ⟨Nat.lt_succ_self _, Nat.le_refl _, nofun, ?_⟩⟩
  intro run tells working
  have known : Blocking.Run.total (run.act (.setTotal (.ofNat (tree.sizeAt source)))).2 =
      some (.ofNat content.length) := by
    have named : UInt64.ofNat content.length ≠ Engine.Blocking.unknownTotal := by
      intro same
      have counts := job.counts
      rw [← same, UInt64.toNat_ofNat'] at counts
      exact absurd counts (Nat.not_lt.2 (Nat.mod_le _ _))
    rw [job.size]
    exact if_neg named
  refine ⟨tells.uncancelled, tells.processed, known, nofun, fun _ =>
    ⟨(tells.going nofun).1, .inl working⟩, nofun, fun blocked => ?_⟩
  obtain ⟨_, stage⟩ := tells.waits blocked
  cases stage

theorem creating {place : Place} (h : Copies config tree content output (.creating place) now)
    (job : Copyable config tree content source output)
    (step : Store.next limit config (.creating place) now = some (action, after, made)) :
    Copies config tree content output after made ∧
      Onward content (.creating place) action after := by
  have tracks := h.tracks.step step
  cases h.tracks.untouched rfl
  obtain ⟨_, created⟩ := job.creates
  unfold Store.next at step
  simp only [created] at step
  cases step
  refine ⟨⟨tracks, Nat.zero_le _, ?_⟩, ⟨Nat.lt_succ_self _, Nat.le_refl _, nofun, ?_⟩⟩
  · -- a created file is empty
    intro _ place same
    obtain ⟨none, -⟩ | ⟨other, same', creates⟩ := createOutput_ok created
    · rw [none] at same
      cases same
    · rw [same'] at same
      cases same
      obtain ⟨rfl, here, name, -, at_name⟩ := Tree.create_ok creates
      exact Tree.find?_put_self _ _ _ (by simp [at_name])
  · intro run tells _
    exact tells.checkpoint nofun rfl nofun

theorem asking {copy : Copy} (h : Copies config tree content output (.asking copy) now)
    (step : Store.next limit config (.asking copy) now = some (action, after, made)) :
    Copies config tree content output after made ∧ Onward content (.asking copy) action after := by
  have tracks := h.tracks.step step
  cases step
  refine ⟨⟨tracks, h.bounded, h.holds⟩, ⟨Nat.lt_succ_self _, Nat.le_refl _, nofun, ?_⟩⟩
  intro run tells _
  exact tells.checkpoint nofun rfl nofun

theorem copying {copy : Copy} (h : Copies config tree content output (.copying copy) now)
    (job : Copyable config tree content source output) (some_bytes : 0 < limit)
    (step : Store.next limit config (.copying copy) now = some (action, after, made)) :
    Copies config tree content output after made ∧
      Onward content (.copying copy) action after := by
  have tracks := h.tracks.step step
  have bounded : copy.position ≤ content.length := h.bounded
  have source_eq := job.source_eq h.tracks rfl
  have output_eq : copy.output = output := job.output_eq h.tracks rfl
  have step : copyPiece limit copy now = (action, after, made) := Option.some.inj step
  unfold copyPiece at step
  rw [source_eq, job.read h.tracks] at step
  split at step
  · next fails => cases fails
  · next reads =>
    have rest : (content.drop copy.position).take limit = [] := Except.ok.inj reads
    have through : copy.position = content.length := by
      rw [List.take_eq_nil_iff, List.drop_eq_nil_iff] at rest
      omega
    cases step
    refine ⟨⟨tracks, Nat.le_refl _, ?_⟩, ⟨Nat.succ_pos _, bounded, nofun, ?_⟩⟩
    · intro _ place same
      rw [h.holds rfl place same]
      show some (Files.Entry.file (content.take copy.position)) = _
      rw [through]
      rfl
    · intro run tells working
      have processed := tells.processed
      refine ⟨tells.uncancelled, ?_, tells.total, fun _ => ?_, fun going => absurd rfl going,
        nofun, nofun⟩
      · show run.processed = .ofNat content.length
        rw [processed, ← through]
        rfl
      · rw [← through]
        rfl
  · next piece not_nil reads =>
    have reads : (content.drop copy.position).take limit = piece := Except.ok.inj reads
    have moved : 0 < piece.length := List.length_pos_iff.2 not_nil
    have fits : copy.position + piece.length ≤ content.length := by
      rw [← reads, List.length_take, List.length_drop]
      omega
    cases step
    refine ⟨⟨tracks, fits, ?_⟩, ⟨?_, Nat.le_add_right _ _, nofun, ?_⟩⟩
    · intro _ place same
      have holds := h.holds rfl place same
      rw [same] at output_eq
      unfold write
      rw [output_eq]
      show (now.append place piece).find? place = some (.file (content.take (_ + _)))
      rw [find?_append_self piece holds, take_add_piece reads]
      rfl
    · show 2 * (content.length - (copy.position + piece.length)) + 2 <
        2 * (content.length - copy.position) + 1
      omega
    · intro run tells working
      have processed : run.processed + .ofNat piece.length =
          .ofNat (copy.position + piece.length) := by
        rw [tells.processed, UInt64.ofNat_add]
        rfl
      refine ⟨tells.uncancelled, processed, tells.total, nofun, fun _ => tells.going nofun, nofun,
        fun blocked => ?_⟩
      cases working.symm.trans blocked

/-- Each thing that the codec does leaves less to be done. -/
theorem next (h : Copies config tree content output stage now)
    (job : Copyable config tree content source output) (some_bytes : 0 < limit)
    (uninterrupted : stage ≠ .interrupted)
    (step : Store.next limit config stage now = some (action, after, made)) :
    Copies config tree content output after made ∧ Onward content stage action after := by
  cases stage with
  | opening => exact h.opening job step
  | creating place => exact h.creating job step
  | asking copy => exact h.asking step
  | copying copy => exact h.copying job some_bytes step
  | interrupted => exact absurd rfl uninterrupted
  | ended => cases step

end Copies

/-! ## Sessions -/

variable (limit config tree) in
theorem next_isSome (h : stage ≠ .ended) : (next limit config stage tree).isSome = true := by
  cases stage with
  | opening | creating | asking | copying | interrupted => rfl
  | ended => exact absurd rfl h

theorem told_of_ne (h : reply ≠ .interrupted) : stage.told reply = stage := by
  unfold Stage.told
  split
  · exact absurd rfl h
  · rfl

namespace Session

variable {s t later : Session} {engine : Blocking.State}

variable (limit config) in
/-- The codec does nothing, or it wakes, or its run does what it does. -/
theorem step_cases (found : t.engine.run? handle = some run) :
    (t.step limit config handle = t ∧ (t.stage = .ended ∨ run.phase ≠ .working) ∧
        ¬(run.phase = .blocked ∧ run.notified = true)) ∨
      (∃ engine, run.phase = .blocked ∧ engine.run? handle = some run.look.2 ∧
        t.step limit config handle = ⟨engine, t.tree, t.stage.told run.look.1⟩) ∨
      ∃ action after now engine, next limit config t.stage t.tree = some (action, after, now) ∧
        run.phase = .working ∧ engine.run? handle = some (run.act action).2 ∧
        t.step limit config handle = ⟨engine, now, after.told (run.act action).1⟩ := by
  unfold step
  cases wakes : Engine.Blocking.wake handle t.engine with
  | some result =>
    obtain ⟨reply, engine⟩ := result
    obtain ⟨waits, -, rfl, -⟩ := Engine.Blocking.wake_eq found wakes
    have performs : Blocking.Performs name t.engine (.wake handle run.look.1) engine := .wake wakes
    have found' := performs.run? found
    have concerns : (Blocking.Entry.wake handle run.look.1).handle? = some handle := rfl
    rw [if_pos concerns] at found'
    exact .inr (.inl ⟨engine, waits, found', rfl⟩)
  | none =>
    have asleep : ¬(run.phase = .blocked ∧ run.notified = true) := by
      rw [← Engine.Blocking.isSome_wake found, wakes]
      exact Bool.false_ne_true
    cases does : next limit config t.stage t.tree with
    | none =>
      refine .inl ⟨rfl, .inl ?_, asleep⟩
      by_contra going
      have some_step := next_isSome config t.tree limit going
      rw [does] at some_step
      cases some_step
    | some step =>
      obtain ⟨action, after, now⟩ := step
      dsimp only
      cases acts : Engine.Blocking.act handle action t.engine with
      | none =>
        refine .inl ⟨rfl, .inr fun working => ?_, asleep⟩
        have some_act := (Engine.Blocking.isSome_act found action).2 working
        rw [acts] at some_act
        cases some_act
      | some result =>
        obtain ⟨reply, engine⟩ := result
        obtain ⟨working, rfl, -⟩ := Engine.Blocking.act_eq found acts
        have performs : Blocking.Performs name t.engine
          (.act handle action (run.act action).1) engine := .act acts
        have found' := performs.run? found
        have concerns :
          (Blocking.Entry.act handle action (run.act action).1).handle? = some handle := rfl
        rw [if_pos concerns] at found'
        exact .inr (.inr ⟨action, after, now, engine, rfl, working, found', rfl⟩)

/-- How a session stands while the target is copied. -/
structure Copying (config : Job.Config) (handle : Handle) (tree : Tree) (content : List UInt8)
    (output : Option Place) (t : Session) : Prop where
  copies : Copies config tree content output t.stage t.tree
  run : ∃ run, t.engine.run? handle = some run ∧ Tells content t.stage run

/-- The engine answers for a run that is not suspended. If its codec waits at a checkpoint, it was
notified. -/
def Awake (handle : Handle) (t : Session) : Prop :=
  ∃ run, t.engine.run? handle = some run ∧ run.known = true ∧ run.suspended = false ∧
    (run.phase = .blocked → run.notified = true)

/-- The session after some more things that the codec has done. -/
def steps (config : Job.Config) (handle : Handle) (limits : List Nat) (t : Session) : Session :=
  limits.foldl (fun t limit => t.step limit config handle) t

theorem steps_cons {limits : List Nat} :
    t.steps config handle (limit :: limits) =
      (t.step limit config handle).steps config handle limits := rfl

namespace Copying

theorem begins (number : handle.number.toNat = engine.runs.length + 1) :
    Copying config handle tree content output
      ⟨(Engine.Blocking.start config engine).2, tree, .opening⟩ := by
  exact ⟨.begins, .fresh, (Engine.Blocking.start_eq config number).2, .begins⟩

/-- A codec that nobody cancels does nothing, or wakes where it waits, or goes on. -/
theorem step_cases (h : Copying config handle tree content output t)
    (job : Copyable config tree content source output) (some_bytes : 0 < limit) :
    ∃ run, t.engine.run? handle = some run ∧ Tells content t.stage run ∧
      ((t.step limit config handle = t ∧ (t.stage = .ended ∨ run.phase ≠ .working) ∧
          ¬(run.phase = .blocked ∧ run.notified = true)) ∨
        (∃ engine, run.phase = .blocked ∧ engine.run? handle = some run.look.2 ∧
          t.step limit config handle = { t with engine := engine }) ∨
        ∃ action after now engine, run.phase = .working ∧
          engine.run? handle = some (run.act action).2 ∧
          t.step limit config handle = ⟨engine, now, after⟩ ∧
          Copies config tree content output after now ∧ Onward content t.stage action after) := by
  obtain ⟨run, found, tells⟩ := h.run
  refine ⟨run, found, tells, ?_⟩
  obtain idle | ⟨engine, waits, found', step⟩ |
    ⟨action, after, now, engine, does, working, found', step⟩ :=
      Session.step_cases config limit found
  · exact .inl idle
  · rw [told_of_ne tells.look] at step
    exact .inr (.inl ⟨engine, waits, found', step⟩)
  · rw [told_of_ne (tells.act action)] at step
    exact .inr (.inr ⟨action, after, now, engine, working, found', step,
      h.copies.next job some_bytes tells.uninterrupted does⟩)

theorem works (h : Copying config handle tree content output t)
    (job : Copyable config tree content source output) (some_bytes : 0 < limit) :
    Copying config handle tree content output (t.step limit config handle) := by
  obtain ⟨run, -, tells, ⟨same, -⟩ | ⟨engine, waits, found, step⟩ |
    ⟨action, after, now, engine, working, found, step, copies, onward⟩⟩ :=
      h.step_cases job some_bytes
  · rw [same]
    exact h
  · rw [step]
    exact ⟨h.copies, _, found, tells.wakes waits⟩
  · rw [step]
    exact ⟨copies, _, found, onward.tells run tells working⟩

theorem asked (h : Copying config handle tree content output t)
    (performs : Blocking.Performs name t.engine entry engine)
    (spared : leaves handle entry = true) :
    Copying config handle tree content output { t with engine := engine } := by
  obtain ⟨run, found, tells⟩ := h.run
  refine ⟨h.copies, _, performs.run? found, ?_⟩
  split
  · next concerns => exact tells.asked (performs.answers concerns found) spared
  · exact tells

/-- What a poll of the run is answered. -/
theorem told_eq (h : Copying config handle tree content output t) :
    ∃ run, t.engine.run? handle = some run ∧ Tells content t.stage run ∧
      t.told handle = run.polled name handle := by
  obtain ⟨run, found, tells⟩ := h.run
  refine ⟨run, found, tells, ?_⟩
  rw [told, Engine.Blocking.poll_eq found]

end Copying

/-! ## Codecs that are left to work -/

theorem awake_begins (number : handle.number.toNat = engine.runs.length + 1) :
    Awake handle ⟨(Engine.Blocking.start config engine).2, tree, .opening⟩ :=
  ⟨.fresh, (Engine.Blocking.start_eq config number).2, rfl, rfl, nofun⟩

/-- A codec that looks and is not suspended does not wait. -/
theorem look_awake (suspended : run.suspended = false) : run.look.2.phase ≠ .blocked := by
  unfold Blocking.Run.look
  rw [suspended]
  cases run.cancelled <;> nofun

/-- A run that is not suspended does not begin to wait. -/
theorem act_awake (known : run.known = true) (suspended : run.suspended = false)
    (working : run.phase = .working) :
    (run.act action).2.known = true ∧ (run.act action).2.suspended = false ∧
      (run.act action).2.phase ≠ .blocked := by
  cases action with
  | setTotal | advance | askCancelled =>
    have unblocked : run.phase ≠ .blocked := by
      rw [working]
      exact nofun
    exact ⟨known, suspended, unblocked⟩
  | finish => exact ⟨known, suspended, nofun⟩
  | checkpoint =>
    have awake := look_awake suspended
    rw [Blocking.Run.act]
    rw [run.look_eq] at awake ⊢
    exact ⟨known, suspended, awake⟩

/-- How many things are left to be done, at most. A codec that waits is to wake first. -/
def left (content : List UInt8) (handle : Handle) (t : Session) : Nat :=
  t.stage.left content +
    if (t.engine.run? handle).any (·.phase = .blocked) then 1 else 0

namespace Copying

/-- A codec that has ended does nothing more. -/
theorem step_of_ended (h : Copying config handle tree content output t) (ended : t.stage = .ended) :
    t.step limit config handle = t := by
  obtain ⟨run, found, tells⟩ := h.run
  have phase := tells.ended ended
  obtain ⟨same, -⟩ | ⟨_, waits, -⟩ | ⟨_, _, _, _, -, working, -⟩ :=
    Session.step_cases config limit found
  · exact same
  · rw [phase] at waits
    cases waits
  · rw [phase] at working
    cases working

theorem left_le (h : Copying config handle tree content output t) :
    t.left content handle ≤ 2 * content.length + 3 := by
  obtain ⟨run, found, tells⟩ := h.run
  unfold Session.left
  rw [found, Option.any_some]
  split
  · next waits =>
    obtain ⟨copy, stage⟩ := tells.waits (of_decide_eq_true waits)
    rw [stage, Stage.left]
    omega
  · exact Stage.left_le t.stage

/-- A codec that is neither suspended nor at its end does something. -/
theorem awake_step (h : Copying config handle tree content output t)
    (job : Copyable config tree content source output) (awake : Awake handle t)
    (some_bytes : 0 < limit) (going : t.stage ≠ .ended) :
    Awake handle (t.step limit config handle) ∧
      (t.step limit config handle).left content handle < t.left content handle := by
  obtain ⟨run, found, known, suspended, notified⟩ := awake
  obtain ⟨_, found', tells, ⟨-, ended | idle, asleep⟩ | ⟨engine, waits, acted, step⟩ |
    ⟨action, after, now, engine, working, acted, step, -, onward⟩⟩ := h.step_cases job some_bytes
  · exact absurd ended going
  · cases found.symm.trans found'
    obtain ⟨-, working | blocked⟩ := tells.going going
    · exact absurd working idle
    · exact absurd ⟨blocked, notified blocked⟩ asleep
  · cases found.symm.trans found'
    have awake := look_awake suspended
    rw [step]
    constructor
    · refine ⟨_, acted, ?_, ?_, fun blocked => absurd blocked awake⟩ <;> rw [run.look_eq]
      · exact known
      · exact suspended
    · simp [Session.left, acted, found, waits, awake]
  · cases found.symm.trans found'
    obtain ⟨known, suspended, awake⟩ := act_awake known suspended working
    rw [step]
    refine ⟨⟨_, acted, known, suspended, fun blocked => absurd blocked awake⟩, ?_⟩
    have less := onward.left
    simp [Session.left, acted, found, working, awake, less]

/-- A codec that is left to work comes to its end. -/
theorem ends {limits : List Nat} (h : Copying config handle tree content output t)
    (job : Copyable config tree content source output) (awake : Awake handle t)
    (some_bytes : ∀ limit ∈ limits, 0 < limit)
    (enough : t.left content handle ≤ limits.length) :
    Copying config handle tree content output (t.steps config handle limits) ∧
      Awake handle (t.steps config handle limits) ∧
      (t.steps config handle limits).stage = .ended := by
  induction limits generalizing t with
  | nil =>
    refine ⟨h, awake, ?_⟩
    show t.stage = .ended
    have through : t.stage.left content ≤ 0 := Nat.le_trans (Nat.le_add_right _ _) enough
    cases stage : t.stage with
    | ended => rfl
    | opening | creating | asking | copying | interrupted =>
      rw [stage] at through
      exact absurd through (Nat.not_succ_le_zero _)
  | cons limit limits ih =>
    have positive := some_bytes limit List.mem_cons_self
    have rest : ∀ limit ∈ limits, 0 < limit := fun other there =>
      some_bytes other (List.mem_cons_of_mem _ there)
    rw [steps_cons]
    by_cases ended : t.stage = .ended
    · rw [h.step_of_ended ended]
      apply ih h awake rest
      obtain ⟨run, found, tells⟩ := h.run
      simp [Session.left, ended, Stage.left, found, tells.ended ended]
    · obtain ⟨awake, less⟩ := h.awake_step job awake positive ended
      rw [List.length_cons] at enough
      exact ih (h.works job positive) awake rest (by omega)

/-- What is told at the end. -/
theorem told_of_ended (h : Copying config handle tree content output t) (awake : Awake handle t)
    (ended : t.stage = .ended) :
    t.told handle = .finished (.completed (.ofNat content.length)) := by
  obtain ⟨run, found, known, -⟩ := awake
  obtain ⟨_, found', tells, told⟩ := h.told_eq
  cases found.symm.trans found'
  rw [told, tells.polled, if_pos ended, known]
  rfl

/-- A run that is resumed is not suspended. -/
theorem awake_resumed (h : Copying config handle tree content output t)
    (going : t.stage ≠ .ended) :
    Awake handle { t with engine := (Engine.Blocking.resume handle t.engine).2 } := by
  obtain ⟨run, found, tells⟩ := h.run
  obtain ⟨known, -⟩ := tells.going going
  have performs : Blocking.Performs name t.engine _ _ := .resume handle
  refine ⟨_, performs.run? found, ?_⟩
  have concerns : Blocking.Entry.handle?
      (.resume handle (Engine.Blocking.resume handle t.engine).1) = some handle := rfl
  rw [if_pos concerns, Engine.Blocking.resume_eq found, Blocking.Run.asked, known]
  exact ⟨known, rfl, fun _ => rfl⟩

end Copying

/-! ## Whatever is asked in between -/

/-- What holds by some stage and is not taken back. -/
def Kept (content : List UInt8) (stage after : Stage) : Prop :=
  stage.copied content ≤ after.copied content ∧ (stage ≠ .opening → after ≠ .opening)

/-- A target is copied whatever is asked of the engine in between. -/
theorem Goes.copying (goes : Goes config handle s t)
    (h : Copying config handle tree content output s)
    (job : Copyable config tree content source output) :
    Copying config handle tree content output t ∧ Kept content s.stage t.stage := by
  induction goes with
  | begins => exact ⟨h, Nat.le_refl _, id⟩
  | asked earlier performs spared ih =>
    obtain ⟨copying, kept⟩ := ih
    exact ⟨copying.asked performs spared, kept⟩
  | works earlier some_bytes ih =>
    obtain ⟨copying, copied, opened⟩ := ih
    refine ⟨copying.works job some_bytes, ?_⟩
    obtain ⟨run, -, -, ⟨same, -⟩ | ⟨engine, -, -, step⟩ | ⟨_, _, _, _, -, -, step, -, onward⟩⟩ :=
      copying.step_cases job some_bytes
    · rw [same]
      exact ⟨copied, opened⟩
    · rw [step]
      exact ⟨copied, opened⟩
    · rw [step]
      exact ⟨Nat.le_trans copied onward.copied, fun _ => onward.opened⟩

/-- A run that the engine has forgotten is not known again. -/
theorem Goes.forgotten (goes : Goes config handle s t)
    (gone : ∃ run, s.engine.run? handle = some run ∧ run.known = false) :
    ∃ run, t.engine.run? handle = some run ∧ run.known = false := by
  induction goes with
  | begins => exact gone
  | asked earlier performs spared ih =>
    obtain ⟨run, found, unknown⟩ := ih
    refine ⟨_, performs.run? found, ?_⟩
    split
    · rw [(run.after_spec _).2.2.2, unknown, Bool.false_and]
    · exact unknown
  | works earlier some_bytes ih =>
    obtain ⟨run, found, unknown⟩ := ih
    have stays (entry : Blocking.Entry) : (run.after entry).known = false := by
      rw [(run.after_spec entry).2.2.2, unknown, Bool.false_and]
    obtain ⟨same, -⟩ | ⟨engine, -, woken, step⟩ | ⟨action, after, now, engine, -, -, acted, step⟩ :=
      step_cases config _ found
    · rw [same]
      exact ⟨run, found, unknown⟩
    · rw [step]
      exact ⟨_, woken, stays (.wake handle .noted)⟩
    · rw [step]
      exact ⟨_, acted, stays (.act handle action .noted)⟩

/-- What is told of a run by some stage of its codec. -/
inductive Told (content : List UInt8) (handle : Handle) : Stage → Engine.Polled → Prop
  | opening : Told content handle .opening (.running ⟨0, none⟩)
  | going {stage : Stage} (opened : stage ≠ .opening) (going : stage ≠ .ended) :
      Told content handle stage
        (.running ⟨.ofNat (stage.copied content), some (.ofNat content.length)⟩)
  | ended : Told content handle .ended (.finished (.completed (.ofNat content.length)))
  /-- The outcome was told before. -/
  | forgotten : Told content handle .ended (.refused (.unknownHandle handle))

/-- A target that is copied, or only read, by a run that nobody cancels. -/
structure Copied (config : Job.Config) (handle : Handle) (tree : Tree) (content : List UInt8)
    (output : Option Place) (t : Session) : Prop where
  told : Told content handle t.stage (t.told handle)
  bounded : t.stage.copied content ≤ content.length
  /-- The bytes that are told never become fewer, and the total stays. -/
  kept : ∀ later, Goes config handle t later → Kept content t.stage later.stage
  /-- The output holds what is copied, and every other file what it held. -/
  files : ∀ place, t.tree.find? place =
    if t.stage.created = true ∧ output = some place then
      some (.file (content.take (t.stage.copied content)))
    else tree.find? place
  whole : t.stage = .ended → ∀ place, t.tree.find? place =
    if output = some place then some (.file content) else tree.find? place
  /-- A codec that is left to work ends, however many bytes each read gives. -/
  ends : t.stage ≠ .ended → Awake handle t → ∀ limits, (∀ limit ∈ limits, 0 < limit) →
    2 * content.length + 3 ≤ limits.length →
      (t.steps config handle limits).stage = .ended ∧
        (t.steps config handle limits).told handle =
          .finished (.completed (.ofNat content.length))
  resumes : t.stage ≠ .ended →
    Awake handle { t with engine := (Engine.Blocking.resume handle t.engine).2 }
  /-- The outcome is told once. -/
  once : t.stage = .ended → ∀ later,
    Goes config handle { t with engine := (Engine.Blocking.poll name handle t.engine).2 } later →
      later.told handle = .refused (.unknownHandle handle)

theorem Copying.told (h : Copying config handle tree content output t) :
    Told content handle t.stage (t.told handle) := by
  obtain ⟨run, -, tells, told⟩ := h.told_eq
  rw [told, tells.polled]
  cases stage : t.stage with
  | opening => exact .opening
  | creating | asking | copying => exact .going nofun nofun
  | interrupted => exact absurd stage tells.uninterrupted
  | ended =>
    rw [if_pos rfl]
    split
    · exact .ended
    · exact .forgotten

theorem Copying.files (h : Copying config handle tree content output t)
    (job : Copyable config tree content source output) (place : Place) :
    t.tree.find? place =
      if t.stage.created = true ∧ output = some place then
        some (.file (content.take (t.stage.copied content)))
      else tree.find? place := by
  split
  · next both => exact h.copies.holds both.1 place both.2
  · next either =>
    by_cases created : t.stage.created = true
    · apply h.copies.tracks.spares
      by_contra overwritten
      obtain ⟨_, creates⟩ := overwrites_iff.1 (by simpa using overwritten)
      obtain ⟨_, creates'⟩ := job.creates
      rw [creates] at creates'
      cases creates'
      exact either ⟨created, rfl⟩
    · rw [h.copies.tracks.untouched (by simpa using created)]

theorem Copying.whole (h : Copying config handle tree content output t)
    (job : Copyable config tree content source output) (ended : t.stage = .ended) (place : Place) :
    t.tree.find? place =
      if output = some place then some (.file content) else tree.find? place := by
  rw [h.files job place, ended]
  simp only [Stage.created, Stage.copied, true_and, List.take_length]

theorem Copying.once (h : Copying config handle tree content output t) (ended : t.stage = .ended)
    (goes : Goes config handle
      { t with engine := (Engine.Blocking.poll name handle t.engine).2 } later) :
    later.told handle = .refused (.unknownHandle handle) := by
  obtain ⟨run, found, tells⟩ := h.run
  have performs : Blocking.Performs name t.engine _ _ := .poll handle
  have concerns : Blocking.Entry.handle? (.poll handle
    (Engine.Blocking.poll name handle t.engine).1) = some handle := rfl
  have gone : ∃ run, (Engine.Blocking.poll name handle t.engine).2.run? handle = some run ∧
      run.known = false := by
    refine ⟨_, performs.run? found, ?_⟩
    rw [if_pos concerns, Engine.Blocking.poll_eq found, tells.polled, if_pos ended]
    cases known : run.known with
    | true => rfl
    | false => exact known
  obtain ⟨run, found, unknown⟩ := goes.forgotten gone
  rw [Session.told, Engine.Blocking.poll_eq found, Blocking.Run.polled, unknown]
  rfl

/-- A run that nobody cancels, whatever else is asked of the engine: its target is copied as a
whole. -/
theorem Goes.copies_target
    (goes : Goes config handle ⟨(Engine.Blocking.start config engine).2, tree, .opening⟩ t)
    (number : handle.number.toNat = engine.runs.length + 1)
    (job : Copyable config tree content source output) :
    (Engine.Blocking.start config engine).1 = .ok handle ∧
      Awake handle ⟨(Engine.Blocking.start config engine).2, tree, .opening⟩ ∧
      Copied config handle tree content output t := by
  obtain ⟨copying, -⟩ := goes.copying (Copying.begins number) job
  refine ⟨(Engine.Blocking.start_eq config number).1, awake_begins number, ?_⟩
  refine ⟨copying.told, copying.copies.bounded, ?_, copying.files job, ?_, ?_, ?_, ?_⟩
  · intro later goes
    exact (goes.copying copying job).2
  · exact copying.whole job
  · intro going awake limits some_bytes enough
    obtain ⟨copying, awake, ended⟩ :=
      copying.ends job awake some_bytes (Nat.le_trans copying.left_le enough)
    exact ⟨ended, copying.told_of_ended awake ended⟩
  · exact copying.awake_resumed
  · intro ended later goes
    exact copying.once ended goes

theorem goes_steps {limits : List Nat} (goes : Goes config handle s t)
    (some_bytes : ∀ limit ∈ limits, 0 < limit) :
    Goes config handle s (t.steps config handle limits) := by
  induction limits generalizing t with
  | nil => exact goes
  | cons limit limits ih =>
    rw [steps_cons]
    apply ih
    · exact goes.works (some_bytes limit List.mem_cons_self)
    · intro other there
      exact some_bytes other (List.mem_cons_of_mem _ there)

/-- Five bytes are copied, two at a time. -/
theorem copies_target_of_fiveBytes :
    ∃ t, Goes { targetPath := "a" } ⟨1⟩ ⟨⟨[.fresh]⟩, fiveBytes, .opening⟩ t ∧
      t.told ⟨1⟩ = .finished (.completed 5) ∧
      t.tree.find? ["a.stored"] = some (.file [1, 2, 3, 4, 5]) := by
  have job : Copyable { targetPath := "a" } fiveBytes [1, 2, 3, 4, 5] ["a"] (some ["a.stored"]) :=
    ⟨rfl, rfl, ⟨_, rfl⟩, by decide, by decide⟩
  have number : (⟨1⟩ : Handle).number.toNat = ({} : Blocking.State).runs.length + 1 := rfl
  have some_bytes : ∀ limit ∈ List.replicate 13 2, 0 < limit := by decide
  have start : Goes { targetPath := "a" } ⟨1⟩ ⟨⟨[.fresh]⟩, fiveBytes, .opening⟩ _ := .begins
  obtain ⟨-, awake, copied⟩ := Goes.copies_target start number job
  obtain ⟨ended, told⟩ := copied.ends nofun awake (List.replicate 13 2) some_bytes (by decide)
  have goes := goes_steps start some_bytes
  obtain ⟨-, -, copied⟩ := Goes.copies_target goes number job
  exact ⟨_, goes, told, copied.whole ended _⟩

theorem advance_of_ended (n : Nat) (ended : t.stage = .ended) :
    t.advance limit config handle n = t := by
  cases n with
  | zero => rfl
  | succ n => exact if_pos ended

theorem Copying.advance_eq_steps (h : Copying config handle tree content output t)
    (job : Copyable config tree content source output) (some_bytes : 0 < limit) (n : Nat) :
    t.advance limit config handle n = t.steps config handle (List.replicate n limit) := by
  induction n generalizing t with
  | zero => rfl
  | succ n ih =>
    rw [List.replicate_succ, steps_cons, ← ih (h.works job some_bytes)]
    by_cases ended : t.stage = .ended
    · rw [h.step_of_ended ended, advance_of_ended _ ended, advance_of_ended _ ended]
    · exact if_neg ended

end Session

/-- A run that nobody asks anything of copies its target and completes. -/
theorem runToEnd_copies {engine : Blocking.State}
    (number : handle.number.toNat = engine.runs.length + 1)
    (job : Copyable config tree content source output) :
    ∃ engine' now, runToEnd config engine tree = (.ok handle, engine', now) ∧
      (Engine.Blocking.poll name handle engine').1 =
        .finished (.completed (.ofNat content.length)) ∧
      ∀ place, now.find? place =
        if output = some place then some (.file content) else tree.find? place := by
  have copying : Session.Copying config handle tree content output _ := .begins number
  have some_bytes : ∀ limit ∈ List.replicate (workOf config tree) pieceSize, 0 < limit := by
    intro limit there
    rw [List.eq_of_mem_replicate there]
    decide
  have work : workOf config tree = 2 * content.length + 4 := by
    unfold workOf
    rw [job.opens]
    show 2 * tree.sizeAt source + 4 = _
    rw [job.size]
  have enough : 2 * content.length + 3 ≤
      (List.replicate (workOf config tree) pieceSize).length := by
    rw [List.length_replicate, work]
    exact Nat.le_succ _
  obtain ⟨ends, awake, ended⟩ := copying.ends job (Session.awake_begins number) some_bytes
    (Nat.le_trans copying.left_le enough)
  have starts : Engine.Blocking.start config engine =
      (.ok handle, (Engine.Blocking.start config engine).2) :=
    Prod.ext (Engine.Blocking.start_eq config number).1 rfl
  refine ⟨_, _, ?_, ends.told_of_ended awake ended, ends.whole job ended⟩
  unfold runToEnd
  rw [starts, ← copying.advance_eq_steps job (by decide)]

end JobSwarm.Codec.Store
