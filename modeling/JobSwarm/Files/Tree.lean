import JobSwarm.Files.Path

/-!
# A tree of files

Files and directories below a root, and the calls that a reader or a writer makes: open, create,
read and append. A path is followed name by name. Two dots lead to the directory above; the root is
above itself. There is nothing else in the tree: no links, so that a file has one place, and no
devices. Nobody but the caller changes it, and no call fails for want of space or of a permission.

Results:

* `find?_put_self`, `find?_put_of_ne`: what is put at a place is there, and all else stays.
-/

namespace JobSwarm.Files

/-- The names that lead from the root to a file or a directory. -/
abbrev Place := List Path

/-- What stands at a place. -/
inductive Entry where
  | file (content : List UInt8)
  | directory
  deriving DecidableEq, Repr

/-- Files and directories by place; the root is always a directory. -/
structure Tree where
  entries : List (Place × Entry) := []
  deriving DecidableEq, Repr

/-- Why a call is refused. -/
inductive Fault where
  | notFound
  | notADirectory
  | isADirectory
  | nameTooLong
  | nulInPath
  deriving DecidableEq, Repr

def Fault.message : Fault → String
  | .notFound => "No such file or directory (os error 2)"
  | .notADirectory => "Not a directory (os error 20)"
  | .isADirectory => "Is a directory (os error 21)"
  | .nameTooLong => "File name too long (os error 36)"
  | .nulInPath => "file name contained an unexpected NUL byte"

namespace Tree

/-- What stands at a place. -/
def find? (tree : Tree) (place : Place) : Option Entry :=
  if place = [] then some .directory else tree.entries.lookup place

/-- Puts something at a place, instead of what was there. -/
def put (tree : Tree) (place : Place) (entry : Entry) : Tree :=
  ⟨(place, entry) :: tree.entries.filter fun other => other.1 != place⟩

/-- Makes a directory and those above it. -/
def makeDirectory (tree : Tree) (place : Place) : Tree :=
  ((List.range place.length).map fun n => place.take (n + 1)).foldl
    (fun tree place => tree.put place .directory) tree

/-- The files below a directory, with their places seen from there. -/
def filesBelow (tree : Tree) (place : Place) : List (Place × List UInt8) :=
  tree.entries.filterMap fun (other, entry) =>
    match entry with
    | .directory => none
    | .file content =>
      if place.isPrefixOf other then some (other.drop place.length, content) else none

/-! ## Following a path -/

/-- The longest name and the longest path, in bytes. -/
def maxName : Nat := 255
def maxPath : Nat := 4095

/-- The names of a path, dots included. -/
def stepsOf (path : Path) : List Path :=
  (pieces path).filter (· != "")

/-- Whether a path ends with a slash, and so means a directory. -/
def meansDirectory (path : Path) : Bool :=
  path.bytes.getLast? == some slash

/-- Looks up a name in a directory. -/
def look (tree : Tree) (here : Place) (name : Path) : Except Fault (Option Entry) :=
  if maxName < name.bytes.length then .error .nameTooLong else .ok (tree.find? (here ++ [name]))

/-- Goes from a directory to another one. -/
def enter (tree : Tree) (here : Place) (name : Path) : Except Fault Place :=
  if name = "." then .ok here
  else if name = ".." then .ok here.dropLast
  else do
    match ← tree.look here name with
    | none => .error .notFound
    | some (.file _) => .error .notADirectory
    | some .directory => .ok (here ++ [name])

/-- Whether a path can be followed at all. -/
def checkPath (path : Path) : Except Fault Unit :=
  if path.bytes.contains 0 then .error .nulInPath
  else if path.isEmpty then .error .notFound
  else if maxPath < path.bytes.length then .error .nameTooLong
  else .ok ()

/-- The directory that a path leads to before its last name, and that name. A path that ends in dots
leads to a directory and has no last name. -/
def approach (tree : Tree) (path : Path) : Except Fault (Place × Option Path) := do
  checkPath path
  let steps := stepsOf path
  let here ← steps.dropLast.foldlM tree.enter []
  match steps.getLast? with
  | none => return (here, none)
  | some name =>
    if name = "." ∨ name = ".." then return (← tree.enter here name, none)
    return (here, some name)

/-! ## Calls -/

/-- Opens what a path leads to, for reading. A directory can be opened, though not read. -/
def openPath (tree : Tree) (path : Path) : Except Fault Place := do
  match ← tree.approach path with
  | (here, none) => return here
  | (here, some name) =>
    match ← tree.look here name with
    | none => throw .notFound
    | some (.file _) => if meansDirectory path then throw .notADirectory else return here ++ [name]
    | some .directory => return here ++ [name]

/-- Makes an empty file where a path leads to; a file that is there is emptied. -/
def create (tree : Tree) (path : Path) : Except Fault (Place × Tree) := do
  match ← tree.approach path with
  | (_, none) => throw .isADirectory
  | (here, some name) =>
    if meansDirectory path then throw .isADirectory
    match ← tree.look here name with
    | some .directory => throw .isADirectory
    | _ => return (here ++ [name], tree.put (here ++ [name]) (.file []))

/-- The size of what stands at a place; a directory counts as empty. -/
def sizeAt (tree : Tree) (place : Place) : Nat :=
  match tree.find? place with
  | some (.file content) => content.length
  | _ => 0

/-- Reads from a position on, up to a limit; at the end of the file nothing is left to read. -/
def read (tree : Tree) (place : Place) (position limit : Nat) : Except Fault (List UInt8) :=
  match tree.find? place with
  | some (.file content) => .ok ((content.drop position).take limit)
  | some .directory => .error .isADirectory
  | none => .error .notFound

/-- Adds bytes to the end of a file. -/
def append (tree : Tree) (place : Place) (bytes : List UInt8) : Tree :=
  match tree.find? place with
  | some (.file content) => tree.put place (.file (content ++ bytes))
  | _ => tree

/-! ## Laws -/

theorem find?_put_self (tree : Tree) (place : Place) (entry : Entry) (h : place ≠ []) :
    (tree.put place entry).find? place = some entry := by
  simp [find?, put, h]

theorem lookup_filter_ne {α : Type} (entries : List (Place × α)) (place other : Place)
    (h : other ≠ place) :
    (entries.filter fun entry => entry.1 != place).lookup other = entries.lookup other := by
  induction entries with
  | nil => rfl
  | cons entry rest ih =>
    obtain ⟨p, value⟩ := entry
    by_cases h1 : p = place
    · subst h1
      have h2 : (other == p) = false := by simpa using h
      simp [List.lookup_cons, ih, h2]
    · simp [h1, List.lookup_cons, ih]

theorem find?_put_of_ne (tree : Tree) (place other : Place) (entry : Entry) (h : other ≠ place) :
    (tree.put place entry).find? other = tree.find? other := by
  have h1 : (other == place) = false := by simpa using h
  simp [find?, put, List.lookup_cons, h1, lookup_filter_ne _ _ _ h]

end Tree

end JobSwarm.Files
