import JobSwarm.Engine.Blocking
import JobSwarm.Files.Tree

/-!
# The store codec

This codec copies its target to the output, piece by piece and unchanged; for a verify job it only
reads the target. Its work is a row of stages, each of which ends with something that the codec
does. When it is interrupted at a checkpoint it ends.
-/

namespace JobSwarm.Codec.Store

open Engine (Blocking.State Handle)
open Files (Place Tree)

def name : String := "store"

/-- How many bytes are read at once, at most. -/
def pieceSize : Nat := 65536

/-- Where the copy goes, unless the job says otherwise: beside the target (`output_path`). -/
def outputPath (config : Job.Config) : Files.Path :=
  config.outputPath.getD (config.targetPath ++ ".stored")

/-- An open target, an open output, and how much has been read. -/
structure Copy where
  source : Place
  output : Option Place
  position : Nat := 0
  deriving DecidableEq, Repr

/-- How far the codec is. -/
inductive Stage where
  /-- The target is to be opened. -/
  | opening
  /-- The output is to be created. -/
  | creating (source : Place)
  /-- A checkpoint comes before the next piece. -/
  | asking (copy : Copy)
  /-- The checkpoint is passed, and the next piece is to be copied. -/
  | copying (copy : Copy)
  /-- The codec was interrupted at the checkpoint. -/
  | interrupted
  | ended
  deriving DecidableEq, Repr

/-- Ends with an error of a file. -/
def refuse (fault : Files.Fault) (tree : Tree) : Action × Stage × Tree :=
  (.finish (.io fault.message), .ended, tree)

/-- The output of a job, created. A verify job has none. -/
def createOutput (config : Job.Config) (tree : Tree) :
    Except Files.Fault (Option Place × Tree) :=
  match config.kind with
  | .verify => .ok (none, tree)
  | .compress | .decompress =>
    (tree.create (outputPath config)).map fun (place, tree) => (some place, tree)

/-- Writes a piece to the output, if there is one. -/
def write (copy : Copy) (piece : List UInt8) (tree : Tree) : Tree :=
  match copy.output with
  | none => tree
  | some place => tree.append place piece

/-- Copies the next piece of at most `limit` bytes. A piece without bytes is the end. -/
def copyPiece (limit : Nat) (copy : Copy) (tree : Tree) : Action × Stage × Tree :=
  match tree.read copy.source copy.position limit with
  | .error fault => refuse fault tree
  | .ok [] => (.finish (.completed (.ofNat copy.position)), .ended, tree)
  | .ok piece =>
    (.advance (.ofNat piece.length),
      .asking { copy with position := copy.position + piece.length }, write copy piece tree)

/-- What the codec does next, when a read gives at most `limit` bytes (`run`). -/
def next (limit : Nat) (config : Job.Config) (stage : Stage) (tree : Tree) :
    Option (Action × Stage × Tree) :=
  match stage with
  | .opening => some <|
    match tree.openPath config.targetPath with
    | .error fault => refuse fault tree
    | .ok source => (.setTotal (.ofNat (tree.sizeAt source)), .creating source, tree)
  | .creating source => some <|
    match createOutput config tree with
    | .error fault => refuse fault tree
    | .ok (output, tree) => (.checkpoint, .copying ⟨source, output, 0⟩, tree)
  | .asking copy => some (.checkpoint, .copying copy, tree)
  | .copying copy => some (copyPiece limit copy tree)
  | .interrupted => some (.finish .interrupted, .ended, tree)
  | .ended => none

/-- Where the codec goes on when it is told something. -/
def Stage.told : Stage → Reply → Stage
  | .copying _, .interrupted => .interrupted
  | stage, _ => stage

/-! ## The codec as a run of the blocking engine -/

/-- An engine, the files, and how far the codec of one run is. -/
structure Session where
  engine : Blocking.State
  tree : Tree
  stage : Stage := .opening

/-- Lets the codec do one thing more, unless it has ended. One that waits at a checkpoint wakes if
it was notified. -/
def Session.step (limit : Nat) (config : Job.Config) (handle : Handle) (s : Session) : Session :=
  match Engine.Blocking.wake handle s.engine with
  | some (reply, engine) => ⟨engine, s.tree, s.stage.told reply⟩
  | none =>
    match next limit config s.stage s.tree with
    | none => s
    | some (action, stage, tree) =>
      match Engine.Blocking.act handle action s.engine with
      | none => s
      | some (reply, engine) => ⟨engine, tree, stage.told reply⟩

/-- Lets the codec do some things more. -/
def Session.advance (limit : Nat) (config : Job.Config) (handle : Handle) :
    Nat → Session → Session
  | 0, s => s
  | n + 1, s =>
    if s.stage = .ended then s else advance limit config handle n (s.step limit config handle)

/-- How many things the codec does, at most: two for each piece of the target, and four besides. -/
def workOf (config : Job.Config) (tree : Tree) : Nat :=
  match tree.openPath config.targetPath with
  | .error _ => 4
  | .ok source => 2 * tree.sizeAt source + 4

/-- Starts a run for a job and lets its codec work to the end. -/
def runToEnd (config : Job.Config) (engine : Blocking.State) (tree : Tree) :
    Except Engine.Error Handle × Blocking.State × Tree :=
  match Engine.Blocking.start config engine with
  | (.error e, engine) => (.error e, engine, tree)
  | (.ok handle, engine) =>
    let s := Session.advance pieceSize config handle (workOf config tree) ⟨engine, tree, .opening⟩
    (.ok handle, s.engine, s.tree)

end JobSwarm.Codec.Store
