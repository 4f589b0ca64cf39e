import JobSwarm.Checked
import JobSwarm.Codec.Store
import Mathlib.Data.List.Basic

/-!
# What becomes of a target

The store codec opens its target, creates the output, and copies the one to the other. Creating the
output empties the file that the output path leads to. If that is the target, nothing is left to
copy; any other file but the output stays as it is.

Results:

* `create_ok`, `find?_append_of_ne`: a file is created or written where it stands, and nowhere else.
* `overwrites_beside`: the output that stands beside the target is never the target.
* `Tracks.step`: what one step of the codec leaves of the target and of the other files.
* `Session.Reaches.spares`: a run changes no file but its output.
* `Session.Reaches.target_spared`: the target holds what it held, or was overwritten and is empty.
* `empties_own_target`: a job whose output is its target empties it, and completes.
-/

namespace JobSwarm

/-! ## Files that are opened, created and written -/

namespace Files

namespace Tree

variable {tree made : Tree} {path name : Path} {here place other : Place}

theorem find?_append_of_ne (bytes : List UInt8) (h : other ≠ place) :
    (tree.append place bytes).find? other = tree.find? other := by
  unfold append
  split
  · exact find?_put_of_ne _ _ _ _ h
  · rfl

/-- A file is created empty, under the last name of its path. -/
theorem create_ok (h : tree.create path = .ok (place, made)) :
    made = tree.put place (.file []) ∧
      ∃ here name, tree.approach path = .ok (here, some name) ∧ place = here ++ [name] := by
  unfold create at h
  obtain ⟨⟨here, last⟩, approach, h⟩ := bind_eq_ok.1 h
  cases last with
  | none => cases h
  | some name =>
    dsimp only at h
    split at h
    · cases h
    obtain ⟨found, -, h⟩ := bind_eq_ok.1 h
    split at h
    · cases h
    · cases h
      exact ⟨rfl, here, name, approach, rfl⟩

theorem look_ok {found : Option Entry} (h : tree.look here name = .ok found) :
    found = tree.find? (here ++ [name]) := by
  unfold look at h
  split at h
  · cases h
  · exact (Except.ok.inj h).symm

/-- A name that leads into a directory leads from one directory to another. -/
theorem enter_ok (h : tree.enter here name = .ok place)
    (above : ∀ other, other <+: here → tree.find? other = some .directory) :
    ∀ other, other <+: place → tree.find? other = some .directory := by
  unfold enter at h
  split at h
  · cases h
    exact above
  split at h
  · cases h
    exact fun other below => above other (below.trans (List.dropLast_prefix here))
  obtain ⟨found, look, h⟩ := bind_eq_ok.1 h
  split at h
  · cases h
  · cases h
  · cases h
    intro other below
    rcases List.prefix_concat_iff.1 below with rfl | below
    · exact (look_ok look).symm
    · exact above other below

theorem enterAll_ok {names : List Path} (h : names.foldlM tree.enter here = .ok place)
    (above : ∀ other, other <+: here → tree.find? other = some .directory) :
    ∀ other, other <+: place → tree.find? other = some .directory := by
  induction names generalizing here with
  | nil =>
    cases h
    exact above
  | cons name rest ih =>
    obtain ⟨next, enters, h⟩ := bind_eq_ok.1 h
    exact ih h (enter_ok enters above)

/-- A path that has no last name leads to a directory. -/
theorem approach_directory (h : tree.approach path = .ok (place, none)) :
    tree.find? place = some .directory := by
  have root : ∀ other, other <+: ([] : Place) → tree.find? other = some .directory := by
    intro other below
    rw [List.prefix_nil.1 below]
    rfl
  unfold approach at h
  obtain ⟨_, -, h⟩ := bind_eq_ok.1 h
  obtain ⟨here, enters, h⟩ := bind_eq_ok.1 h
  have above := enterAll_ok enters root
  split at h
  · cases h
    exact above place (List.prefix_refl place)
  split at h
  · obtain ⟨last, enters, h⟩ := bind_eq_ok.1 h
    cases h
    exact enter_ok enters above place (List.prefix_refl place)
  · cases h

theorem approach_name (h : tree.approach path = .ok (here, some name)) :
    (stepsOf path).getLast? = some name := by
  unfold approach at h
  obtain ⟨_, -, h⟩ := bind_eq_ok.1 h
  obtain ⟨_, -, h⟩ := bind_eq_ok.1 h
  split at h
  · cases h
  next last found =>
  split at h
  · obtain ⟨_, -, h⟩ := bind_eq_ok.1 h
    cases h
  · cases h
    exact found

/-- An open file stands under the last name of its path. -/
theorem openPath_file {content : List UInt8} (h : tree.openPath path = .ok place)
    (file : tree.find? place = some (.file content)) :
    meansDirectory path = false ∧
      ∃ here name, tree.approach path = .ok (here, some name) ∧ place = here ++ [name] := by
  unfold openPath at h
  obtain ⟨⟨here, last⟩, approach, h⟩ := bind_eq_ok.1 h
  cases last with
  | none =>
    cases h
    rw [approach_directory approach] at file
    cases file
  | some name =>
    obtain ⟨found, look, h⟩ := bind_eq_ok.1 h
    have found_eq := look_ok look
    split at h
    · cases h
    · split at h
      · cases h
      · next plain =>
        cases h
        exact ⟨by simpa using plain, here, name, approach, rfl⟩
    · cases h
      rw [← found_eq] at file
      cases file

end Tree

/-! ## Paths with an ending -/

theorem splitSlashes_of_not_mem {word : List UInt8} (h : slash ∉ word) :
    splitSlashes word = [word] := by
  induction word with
  | nil => rfl
  | cons c rest ih =>
    rw [List.mem_cons, not_or] at h
    rw [splitSlashes, if_neg (Ne.symm h.1), ih h.2]

/-- An ending lengthens the last piece of a row of bytes. -/
theorem exists_last_piece (bytes : List UInt8) :
    ∃ front last, splitSlashes bytes = front ++ [last] ∧
      (∀ word, slash ∉ word → splitSlashes (bytes ++ word) = front ++ [last ++ word]) ∧
      (bytes ≠ [] → bytes.getLast? ≠ some slash → last ≠ []) := by
  induction bytes with
  | nil => exact ⟨[], [], rfl, fun word h => splitSlashes_of_not_mem h, fun h => absurd rfl h⟩
  | cons byte rest ih =>
    obtain ⟨front, last, pieces, longer, named⟩ := ih
    by_cases between : byte = slash
    · refine ⟨[] :: front, last, ?_, ?_, ?_⟩
      · rw [splitSlashes, if_pos between, pieces, List.cons_append]
      · intro word h
        rw [List.cons_append, splitSlashes, if_pos between, longer word h, List.cons_append]
      · intro _ final
        cases rest with
        | nil => exact absurd (congrArg some between) final
        | cons next rest => exact named (List.cons_ne_nil next rest) final
    · cases front with
      | nil =>
        refine ⟨[], byte :: last, ?_, ?_, fun _ _ => List.cons_ne_nil byte last⟩
        · rw [splitSlashes, if_neg between, pieces]
          rfl
        · intro word h
          rw [List.cons_append, splitSlashes, if_neg between, longer word h]
          rfl
      | cons piece front =>
        refine ⟨(byte :: piece) :: front, last, ?_, ?_, ?_⟩
        · rw [splitSlashes, if_neg between, pieces]
          rfl
        · intro word h
          rw [List.cons_append, splitSlashes, if_neg between, longer word h]
          rfl
        · intro _ final
          cases rest with
          | nil => simp [splitSlashes] at pieces
          | cons next rest => exact named (List.cons_ne_nil next rest) final

namespace Tree

theorem stepsOf_last {path : Path} {front : List (List UInt8)} {last : List UInt8}
    (pieces_eq : splitSlashes path.bytes = front ++ [last]) (named : last ≠ []) :
    (stepsOf path).getLast? = some ⟨last⟩ := by
  have kept : ((⟨last⟩ : Path) != "") = true :=
    bne_iff_ne.2 fun empty => named (congrArg Path.bytes empty)
  rw [stepsOf, pieces, pieces_eq, List.map_append, List.filter_append, List.map_singleton,
    List.filter_singleton, kept, cond_true, List.getLast?_concat]

/-- The last name of a path with an ending is the last name of the path with that ending. -/
theorem stepsOf_append {path word name : Path} (noSlash : slash ∉ word.bytes)
    (plain : meansDirectory path = false) (last : (stepsOf path).getLast? = some name) :
    (stepsOf (path ++ word)).getLast? = some (name ++ word) := by
  obtain ⟨front, piece, pieces_eq, longer, named⟩ := exists_last_piece path.bytes
  have some_bytes : path.bytes ≠ [] := by
    intro none
    rw [stepsOf, pieces, none] at last
    cases last
  have final : path.bytes.getLast? ≠ some slash := by
    simpa [meansDirectory] using plain
  have piece_ne := named some_bytes final
  rw [stepsOf_last pieces_eq piece_ne] at last
  cases last
  have pieces_append : splitSlashes (path ++ word).bytes = front ++ [piece ++ word.bytes] :=
    longer word.bytes noSlash
  exact stepsOf_last pieces_append (List.append_ne_nil_of_left_ne_nil piece_ne _)

end Tree

end Files

namespace Codec.Store

open Engine (Blocking.State Handle)
open Files (Place Tree)

variable {limit : Nat} {config : Job.Config} {handle : Handle} {tree made : Tree}
  {source place : Place} {content : List UInt8}

/-! ## Overwritten files -/

/-- Whether the output of a job, when it is created, takes the place of a file. -/
def overwrites (config : Job.Config) (tree : Tree) (place : Place) : Bool :=
  match createOutput config tree with
  | .ok (some output, _) => output = place
  | _ => false

/-- A verify job has no output. -/
theorem overwrites_verify (verify : config.kind = .verify) :
    overwrites config tree place = false := by
  rw [overwrites, createOutput, verify]

theorem overwrites_iff :
    overwrites config tree place = true ↔
      ∃ made, createOutput config tree = .ok (some place, made) := by
  unfold overwrites
  split
  · next output made created => simp [created]
  · next other =>
    refine ⟨nofun, fun ⟨made, created⟩ => absurd created (other place made)⟩

/-- An output is a file that was created, or there is none. -/
theorem createOutput_ok {output : Option Place}
    (h : createOutput config tree = .ok (output, made)) :
    output = none ∧ made = tree ∨
      ∃ place, output = some place ∧ tree.create (outputPath config) = .ok (place, made) := by
  unfold createOutput at h
  split at h
  · cases h
    exact .inl ⟨rfl, rfl⟩
  all_goals
    cases created : tree.create (outputPath config) with
    | error fault =>
      rw [created] at h
      cases h
    | ok result =>
      rw [created] at h
      cases h
      exact .inr ⟨result.1, rfl, rfl⟩

/-- The output that stands beside the target is not the target. -/
theorem overwrites_beside (opens : tree.openPath config.targetPath = .ok source)
    (file : tree.find? source = some (.file content)) (beside : config.outputPath = none) :
    overwrites config tree source = false := by
  by_contra overwritten
  obtain ⟨made, created⟩ := overwrites_iff.1 (by simpa using overwritten)
  obtain ⟨none, -⟩ | ⟨output, same, created⟩ := createOutput_ok created
  · cases none
  cases same
  have path : outputPath config = config.targetPath ++ ".stored" := by
    rw [outputPath, beside, Option.getD_none]
  obtain ⟨-, here', name', approach', place'⟩ := Tree.create_ok created
  obtain ⟨plain, here, name, approach, place⟩ := Tree.openPath_file opens file
  have last' := Tree.approach_name approach'
  rw [path, Tree.stepsOf_append (by decide) plain (Tree.approach_name approach)] at last'
  rw [place, ← Option.some.inj last'] at place'
  have same : name = name ++ ".stored" := by simpa using (List.append_inj' place' rfl).2
  have bytes : name.bytes = name.bytes ++ (".stored" : Files.Path).bytes :=
    congrArg Files.Path.bytes same
  cases List.self_eq_append_right.1 bytes

/-! ## Steps of the codec -/

/-- Whether the output was to be created before this stage. -/
def Stage.created : Stage → Bool
  | .opening | .creating _ => false
  | .asking _ | .copying _ | .interrupted | .ended => true

/-- The open target. -/
def Stage.source? : Stage → Option Place
  | .creating source => some source
  | .asking copy | .copying copy => some copy.source
  | .opening | .interrupted | .ended => none

/-- The copy that is being made. -/
def Stage.copy? : Stage → Option Copy
  | .asking copy | .copying copy => some copy
  | .opening | .creating _ | .interrupted | .ended => none

/-- What a codec that started on one tree has made of it by some stage. -/
structure Tracks (config : Job.Config) (tree : Tree) (stage : Stage) (now : Tree) : Prop where
  untouched : stage.created = false → now = tree
  opened : ∀ source, stage.source? = some source → tree.openPath config.targetPath = .ok source
  output : ∀ copy, stage.copy? = some copy →
    ∃ made, createOutput config tree = .ok (copy.output, made)
  /-- No file has changed but the output. -/
  spares : ∀ place, overwrites config tree place = false → now.find? place = tree.find? place
  /-- A target that is the output is empty. -/
  empties : stage.created = true → ∀ source, tree.openPath config.targetPath = .ok source →
    overwrites config tree source = true → now.find? source = some (.file [])

namespace Tracks

variable {stage after : Stage} {now next : Tree} {action : Action}

theorem begins (config : Job.Config) (tree : Tree) : Tracks config tree .opening tree where
  untouched := fun _ => rfl
  opened := nofun
  output := nofun
  spares := fun _ _ => rfl
  empties := nofun

/-- A codec that is interrupted leaves the tree as it is. -/
theorem told (h : Tracks config tree stage now) (reply : Reply) :
    Tracks config tree (stage.told reply) now := by
  unfold Stage.told
  split
  · exact ⟨nofun, nofun, nofun, h.spares, h.empties⟩
  · exact h

/-- A codec that ends leaves the tree as it is. -/
theorem ends (h : Tracks config tree stage now)
    (created : stage.created = true ∨ ∀ source, tree.openPath config.targetPath = .ok source →
      overwrites config tree source = false) :
    Tracks config tree .ended now where
  untouched := nofun
  opened := nofun
  output := nofun
  spares := h.spares
  empties := by
    intro _ source opens overwritten
    obtain created | spared := created
    · exact h.empties created source opens overwritten
    · rw [spared source opens] at overwritten
      cases overwritten

theorem opening (h : Tracks config tree .opening now)
    (step : Store.next limit config .opening now = some (action, after, next)) :
    Tracks config tree after next := by
  cases h.untouched rfl
  unfold Store.next at step
  cases opens : tree.openPath config.targetPath with
  | error fault =>
    simp only [opens] at step
    cases step
    refine h.ends (.inr fun source opens' => ?_)
    rw [opens] at opens'
    cases opens'
  | ok source =>
    simp only [opens] at step
    cases step
    refine ⟨fun _ => rfl, ?_, nofun, h.spares, nofun⟩
    intro source same
    cases same
    exact opens

theorem creating (h : Tracks config tree (.creating source) now)
    (step : Store.next limit config (.creating source) now = some (action, after, next)) :
    Tracks config tree after next := by
  cases h.untouched rfl
  unfold Store.next at step
  cases created : createOutput config tree with
  | error fault =>
    simp only [created] at step
    cases step
    refine h.ends (.inr fun source opens => ?_)
    by_contra overwritten
    obtain ⟨made, created'⟩ := overwrites_iff.1 (by simpa using overwritten)
    rw [created] at created'
    cases created'
  | ok result =>
    obtain ⟨output, made⟩ := result
    simp only [created] at step
    cases step
    refine ⟨nofun, ?_, ?_, ?_, ?_⟩
    · intro source same
      cases same
      exact h.opened _ rfl
    · intro copy same
      cases same
      exact ⟨_, created⟩
    · intro place spared
      obtain ⟨-, rfl⟩ | ⟨output, rfl, creates⟩ := createOutput_ok created
      · rfl
      · obtain ⟨rfl, -⟩ := Tree.create_ok creates
        refine Tree.find?_put_of_ne _ _ _ _ fun same => ?_
        rw [same, overwrites_iff.2 ⟨_, created⟩] at spared
        cases spared
    · intro _ target _ overwritten
      obtain ⟨made', created'⟩ := overwrites_iff.1 overwritten
      rw [created] at created'
      cases created'
      obtain ⟨none, -⟩ | ⟨output, same, creates⟩ := createOutput_ok created
      · cases none
      · cases same
        obtain ⟨rfl, here, name, -, place⟩ := Tree.create_ok creates
        exact Tree.find?_put_self _ _ _ (by simp [place])

theorem asking {copy : Copy} (h : Tracks config tree (.asking copy) now)
    (step : Store.next limit config (.asking copy) now = some (action, after, next)) :
    Tracks config tree after next := by
  cases step
  exact ⟨nofun, h.opened, h.output, h.spares, h.empties⟩

theorem copying {copy : Copy} (h : Tracks config tree (.copying copy) now)
    (step : Store.next limit config (.copying copy) now = some (action, after, next)) :
    Tracks config tree after next := by
  have step : copyPiece limit copy now = (action, after, next) := Option.some.inj step
  unfold copyPiece at step
  split at step
  · cases step
    exact h.ends (.inl rfl)
  · cases step
    exact h.ends (.inl rfl)
  next piece some_bytes reads =>
  cases step
  obtain ⟨made, created⟩ := h.output copy rfl
  refine ⟨nofun, h.opened, ?_, ?_, ?_⟩
  · intro copy' same
    cases same
    exact ⟨made, created⟩
  · intro place spared
    rw [← h.spares place spared, write]
    split
    · rfl
    · next output found =>
      refine Tree.find?_append_of_ne _ fun same => ?_
      rw [found] at created
      rw [same, overwrites_iff.2 ⟨made, created⟩] at spared
      cases spared
  · -- nothing is left to read from a target that was emptied
    intro _ source opens overwritten
    have same : copy.source = source := Except.ok.inj ((h.opened _ rfl).symm.trans opens)
    have empty := h.empties rfl source opens overwritten
    rw [same, Tree.read, empty] at reads
    simp only [List.drop_nil, List.take_nil] at reads
    exact absurd (Except.ok.inj reads).symm some_bytes

/-- One step of the codec changes no file but the output. -/
theorem step (h : Tracks config tree stage now)
    (step : Store.next limit config stage now = some (action, after, next)) :
    Tracks config tree after next := by
  cases stage with
  | opening => exact h.opening step
  | creating source => exact h.creating step
  | asking copy => exact h.asking step
  | copying copy => exact h.copying step
  | interrupted =>
    cases step
    exact h.ends (.inl rfl)
  | ended => cases step

end Tracks

/-! ## Runs -/

namespace Session

/-- What comes of a session while the codec of a run works. Whatever is asked of the engine in
between may suspend the run, resume it or interrupt it. -/
inductive Reaches (limit : Nat) (config : Job.Config) (handle : Handle) (s : Session) :
    Session → Prop
  | begins : Reaches limit config handle s s
  | works {t : Session} (earlier : Reaches limit config handle s t) :
      Reaches limit config handle s (t.step limit config handle)
  | asked {t : Session} (engine : Blocking.State) (earlier : Reaches limit config handle s t) :
      Reaches limit config handle s { t with engine := engine }

variable {s t : Session} {engine : Blocking.State}

theorem Reaches.tracks (h : Reaches limit config handle ⟨engine, tree, .opening⟩ t) :
    Tracks config tree t.stage t.tree := by
  induction h with
  | begins => exact .begins config tree
  | asked engine earlier ih => exact ih
  | works earlier ih =>
    unfold Session.step
    split
    · exact ih.told _
    split
    · exact ih
    next action stage now step =>
    split
    · exact ih
    · exact (ih.step step).told _

theorem reaches_advance (n : Nat) (h : Reaches limit config handle s t) :
    Reaches limit config handle s (t.advance limit config handle n) := by
  induction n generalizing t with
  | zero => exact h
  | succ n ih =>
    unfold advance
    split
    · exact h
    · exact ih h.works

/-- A run that nobody asks anything of is one of these. -/
theorem reaches_of_runToEnd {after : Blocking.State} {now : Tree}
    (h : runToEnd config engine tree = (.ok handle, after, now)) :
    ∃ t, Reaches pieceSize config handle
        ⟨(Engine.Blocking.start config engine).2, tree, .opening⟩ t ∧
      t.engine = after ∧ t.tree = now := by
  cases h
  exact ⟨_, reaches_advance _ .begins, rfl, rfl⟩

/-- A run changes no file but its output. -/
theorem Reaches.spares (h : Reaches limit config handle ⟨engine, tree, .opening⟩ t)
    (spared : overwrites config tree place = false) : t.tree.find? place = tree.find? place :=
  h.tracks.spares place spared

/-- The target of a run holds what it held, however far the run is and however it ends, unless the
output takes its place. Then it is empty as soon as the output is created. A verify job and a job
without a path for its output never overwrite their target. -/
theorem Reaches.target_spared (h : Reaches limit config handle ⟨engine, tree, .opening⟩ t)
    (opens : tree.openPath config.targetPath = .ok source)
    (file : tree.find? source = some (.file content)) :
    t.tree.find? source = some (.file
        (if overwrites config tree source ∧ t.stage.created then [] else content)) ∧
      (config.kind = .verify ∨ config.outputPath = none →
        overwrites config tree source = false) := by
  refine ⟨?_, ?_⟩
  · split
    · next both => exact h.tracks.empties both.2 source opens both.1
    · next either =>
      cases overwritten : overwrites config tree source with
      | false => rw [h.spares overwritten, file]
      | true =>
        have before : t.stage.created = false := by simpa [overwritten] using either
        rw [h.tracks.untouched before, file]
  · rintro (verify | beside)
    · exact overwrites_verify verify
    · exact overwrites_beside opens file beside

/-- A tree with one file of five bytes. -/
def fiveBytes : Tree :=
  ⟨[(["a"], .file [1, 2, 3, 4, 5])]⟩

/-- The file is copied, and is still there. -/
theorem target_spared_of_copy :
    ∃ t, Reaches pieceSize { targetPath := "a" } ⟨1⟩ ⟨⟨[.fresh]⟩, fiveBytes, .opening⟩ t ∧
      t.stage = .ended ∧ t.tree.find? ["a.stored"] = some (.file [1, 2, 3, 4, 5]) ∧
      t.tree.find? ["a"] = some (.file [1, 2, 3, 4, 5]) := by
  have reaches : Reaches pieceSize { targetPath := "a" } ⟨1⟩ ⟨⟨[.fresh]⟩, fiveBytes, .opening⟩ _ :=
    reaches_advance 14 .begins
  have opens : fiveBytes.openPath "a" = .ok ["a"] := rfl
  obtain ⟨holds, never⟩ := reaches.target_spared opens rfl
  rw [never (.inr rfl)] at holds
  exact ⟨_, reaches, rfl, rfl, holds⟩

end Session

/-- A job whose output is its own target empties it, and completes as if there had been nothing to
copy. -/
theorem empties_own_target :
    runToEnd { targetPath := "a", outputPath := some "a" } {} Session.fiveBytes =
      (.ok ⟨1⟩, ⟨[{ total := some 5, phase := .ended (.completed 0) }]⟩,
        ⟨[(["a"], .file [])]⟩) := by
  rfl

end Codec.Store

end JobSwarm
