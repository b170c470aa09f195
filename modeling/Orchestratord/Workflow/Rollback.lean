import Orchestratord.Foundation.Dict
import Orchestratord.Foundation.Text

/-!
# Stage snapshots

The rollback manager copies the workspace into a directory of its own before a stage runs and
copies it back on a rollback. A directory is the function from names to entries; the workspace
itself, which the loops iterate over, is a dictionary. The manager's own directory
`.workflow_snapshots` is kept apart from the workspace as `stored`. There are no links.
-/

namespace Orchestratord.Workflow

open Foundation

/-! ## §1 Trees -/

inductive Entry where
  | file (content : String)
  /-- A socket, a FIFO or a device. -/
  | special
  | dir (entries : String → Option Entry)

abbrev Tree := Dict String Entry

def snapshotsName : String := ".workflow_snapshots"

def isHidden (name : String) : Bool := Text.startsWith name "."

def isRegularFile : Entry → Bool
  | .file _ => true
  | .special | .dir _ => false

/-- The entries of a directory that a copy leaves out. -/
def snapshotIgnore (name : String) (entry : Entry) : Bool :=
  if isHidden name then true else ! isRegularFile entry

/-- A copy of a directory, without what is ignored. -/
def copyVisible (entries : String → Option Entry) : String → Option Entry :=
  fun name => (entries name).filter (! snapshotIgnore name ·)

/-! ## §2 Saving -/

/-- Copy one entry of the workspace to the snapshot; no result is an exception. -/
def copyItem (dest : Tree) (name : String) : Entry → Option Tree
  | .dir entries =>
    match dest.get name with
    | none | some (.dir _) => some (dest.set name (.dir (copyVisible entries)))
    -- the removal of what is no directory fails silently, and no directory can be made there
    | some (.file _) | some .special => none
  | .file content =>
    match dest.get name with
    | none | some (.file _) => some (dest.set name (.file content))
    -- a file copied to a directory goes into it
    | some (.dir entries) =>
      match entries name with
      | none | some (.file _) =>
        some (dest.set name (.dir (Function.update entries name (some (.file content)))))
      | some .special | some (.dir _) => none
    | some .special => none
  | .special => some dest

structure Copied where
  dest : Tree
  files : List String
  totalSize : ℕ

def Copied.add (c : Copied) (dest : Tree) (name : String) : Entry → Copied
  | .dir _ => { c with dest := dest, files := c.files ++ [name] }
  | .file content =>
    { dest := dest, files := c.files ++ [name], totalSize := c.totalSize + content.utf8ByteSize }
  | .special => { c with dest := dest }

/-- The loop over the workspace, and whether it came to its end. -/
def copyLoop : List (String × Entry) → Copied → Copied × Bool
  | [], c => (c, true)
  | (name, entry) :: rest, c =>
    if name = snapshotsName then copyLoop rest c
    else if isHidden name then copyLoop rest c
    else
      match copyItem c.dest name entry with
      | none => (c, false)
      | some dest => copyLoop rest (c.add dest name entry)

structure StageSnapshot where
  stageId : Int
  stageName : String
  files : List String
  sizeBytes : ℕ

structure RollbackManager where
  /-- The workspace, if its directory exists. -/
  workspace : Option Tree
  /-- The directories of the snapshots. -/
  stored : Dict Int Tree
  /-- What the manager remembers of its snapshots. -/
  snapshots : Dict Int StageSnapshot
  maxSnapshots : Int

namespace RollbackManager

variable (m : RollbackManager)

def pruneOldSnapshots : RollbackManager :=
  if (m.snapshots.size : Int) ≤ m.maxSnapshots then m
  else
    let sortedIds := (m.snapshots.entries.map Prod.fst).insertionSort (· ≤ ·)
    let toRemove := sortedIds.take (m.snapshots.size - m.maxSnapshots).toNat
    { m with
      stored := toRemove.foldl .erase m.stored
      snapshots := toRemove.foldl .erase m.snapshots }

def saveSnapshot (stageId : Int) (stageName : String) : RollbackManager × Option StageSnapshot :=
  match m.workspace with
  | none => (m, none)
  | some tree =>
    let (copied, complete) := copyLoop tree.entries ⟨(m.stored.get stageId).getD .empty, [], 0⟩
    let m := { m with stored := m.stored.set stageId copied.dest }
    if complete then
      let snapshot : StageSnapshot := ⟨stageId, stageName, copied.files, copied.totalSize⟩
      let m := { m with snapshots := m.snapshots.set stageId snapshot }
      (m.pruneOldSnapshots, some snapshot)
    else (m, none)

/-! ## §3 Restoring -/

def loadSnapshotFromDisk (stageId : Int) : Option StageSnapshot :=
  (m.stored.get stageId).map fun tree =>
    { stageId := stageId
      stageName := "stage-" ++ toString stageId
      files := tree.entries.map Prod.fst
      sizeBytes := (tree.entries.map fun e =>
        match e.2 with
        | .file content => content.utf8ByteSize
        | .special | .dir _ => 0).sum }

/-- The loop over the snapshot, and whether it came to its end. -/
def pasteLoop : List (String × Entry) → Tree → Tree × Bool
  | [], tree => (tree, true)
  | (_, .special) :: _, tree => (tree, false)
  | (name, entry) :: rest, tree => pasteLoop rest (tree.set name entry)

structure RollbackError where
  stageId : Int

def restoreSnapshot (stageId : Int) : RollbackManager × Except RollbackError Bool :=
  match (m.snapshots.get stageId).or (m.loadSnapshotFromDisk stageId), m.stored.get stageId with
  | some _, some src =>
    match m.workspace with
    | none => (m, .error ⟨stageId⟩)
    | some tree =>
      let cleared := tree.filterKeys (· = snapshotsName)
      let (restored, complete) := pasteLoop src.entries cleared
      ({ m with workspace := some restored }, if complete then .ok true else .error ⟨stageId⟩)
  | _, _ => (m, .ok false)

/-! ## §4 Runs -/

inductive Step where
  /-- The stages leave the workspace in any state; they may remove its directory. -/
  | modify (tree : Option Tree)
  | save (stageId : Int) (stageName : String)
  | restore (stageId : Int)
  | cleanup
  /-- A new process makes a new manager. -/
  | restart

def step : Step → RollbackManager
  | .modify (some tree) => { m with workspace := some tree }
  | .modify none => { m with workspace := none, stored := .empty }
  | .save stageId stageName => (m.saveSnapshot stageId stageName).1
  | .restore stageId => (m.restoreSnapshot stageId).1
  | .cleanup => { m with stored := .empty, snapshots := .empty }
  | .restart => { m with snapshots := .empty }

/-- A manager for a workspace without snapshots. -/
def start (workspace : Option Tree) (maxSnapshots : Int) : RollbackManager :=
  ⟨workspace, .empty, .empty, maxSnapshots⟩

end RollbackManager

end Orchestratord.Workflow
