import Orchestratord.Issues.Record
import Orchestratord.Workspaces.Manager

/-! # The cleanup at the start of the daemon

Before the first poll the manager removes what it takes for orphaned workspaces. It goes by the
manifest that `cleanup` leaves in a workspace it preserves, and never asks the registry. -/

namespace Orchestratord.Workspaces

open Foundation Dict

/-- An entry of the workspace root. -/
inductive RootEntry where
  | file
  /-- A directory and the paths below it. -/
  | dir (paths : List Path)
  deriving DecidableEq

abbrev Root := Dict String RootEntry

def manifestPath : Path := [".orchestrator_workspace", ".workspace_preserved.json"]

/-- What removing a directory leaves of it: nothing, unless it fails on the way. -/
abbrev Rmtree := String → List Path → Option (List Path)

section

variable (rmtree : Rmtree)

/-- What becomes of an entry; a failed removal is only logged. -/
def cleaned (name : String) : RootEntry → Option RootEntry
  | .file => some .file
  | .dir paths =>
    if manifestPath ∈ paths then some (.dir paths) else (rmtree name paths).map .dir

def cleanEntry (root : Root) (name : String) : Root :=
  match (root.get name).bind (cleaned rmtree name) with
  | some entry => root.set name entry
  | none => root.erase name

def runTerminalWorkspaceCleanup (cfg : WorkspaceConfig) (root : Root) : Root :=
  if cfg.strategy ≠ .isolated then root
  else (root.entries.map Prod.fst).foldl (cleanEntry rmtree) root

/-- Each entry is visited once and on its own. -/
theorem get_foldl_cleanEntry {names : List String} (hno : names.Nodup) (root : Root)
    (name : String) : (names.foldl (cleanEntry rmtree) root).get name =
      if name ∈ names then (root.get name).bind (cleaned rmtree name) else root.get name := by
  induction names generalizing root with
  | nil => rfl
  | cons first rest ih =>
    obtain ⟨hfi, hre⟩ := List.nodup_cons.mp hno
    have hget : (cleanEntry rmtree root first).get name =
        if name = first then (root.get first).bind (cleaned rmtree first) else root.get name := by
      unfold cleanEntry
      split
      · next entry hen => rw [get_set, hen]
      · next hnn => rw [get_erase, hnn]
    rw [List.foldl_cons, ih hre, hget]
    by_cases hna : name = first
    · subst hna
      simp [hfi]
    · simp [hna]

end

/-- The issue still needs what is in its workspace. -/
def Awaits (record : Issues.IssueRecord) : Prop :=
  record.status = .paused ∨ record.nextRetryAt.isSome ∨ record.status = .pendingReview ∨
    record.conflict.hasConflict

/-- The name belongs to no issue's workspace, or to that of an issue that still needs it. -/
def OffLimits (registry : Issues.Registry) (name : String) : Prop :=
  (∀ id record, registry.get id = some record → safeIdentifier record.issueIdentifier ≠ name) ∨
    ∃ id record, registry.get id = some record ∧ safeIdentifier record.issueIdentifier = name ∧
      Awaits record

/-- The directories that are off limits are all left alone if and only if each of them has a
manifest or is one that cannot be removed: what the registry says about them does not matter. -/
theorem offLimits_spared_iff (rmtree : Rmtree) (cfg : WorkspaceConfig) (root : Root)
    (registry : Issues.Registry) :
    (∀ name paths, root.get name = some (.dir paths) → OffLimits registry name →
      (runTerminalWorkspaceCleanup rmtree cfg root).get name = some (.dir paths)) ↔
    (cfg.strategy = .isolated → ∀ name paths, root.get name = some (.dir paths) →
      OffLimits registry name → manifestPath ∈ paths ∨ rmtree name paths = some paths) := by
  unfold runTerminalWorkspaceCleanup
  by_cases hst : cfg.strategy = .isolated
  · have hget : ∀ name paths, root.get name = some (.dir paths) →
        (((root.entries.map Prod.fst).foldl (cleanEntry rmtree) root).get name =
          some (.dir paths) ↔ manifestPath ∈ paths ∨ rmtree name paths = some paths) := by
      intro name paths hdir
      have hli : name ∈ root.entries.map Prod.fst :=
        List.mem_map_of_mem ((mem_entries_iff ..).mpr hdir)
      rw [get_foldl_cleanEntry rmtree root.nodup, if_pos hli, hdir, Option.bind_some, cleaned]
      split
      · next hfi => simp [hfi]
      · next hfi => simp [hfi]
    rw [if_neg (not_not.mpr hst)]
    constructor
    · intro hsp _ name paths hdir hoff
      exact (hget name paths hdir).mp (hsp name paths hdir hoff)
    · intro hke name paths hdir hoff
      exact (hget name paths hdir).mpr (hke hst name paths hdir hoff)
  · rw [if_pos hst]
    exact iff_of_true (fun _ _ hdir _ => hdir) fun h => absurd h hst

/-- The pending control commands and the workspace of a paused issue are removed. -/
theorem cleanup_removes_offLimits : let registry : Issues.Registry := Dict.empty.set "7" {
      issueId := "7", issueIdentifier := "ENG-7", status := .paused, createdAt := 0, updatedAt := 0 }
    let root : Root := (Dict.empty.set "ENG-7" (.dir [["notes"]])).set ".orchestrator_control"
      (.dir [["cmd.json"]])
    OffLimits registry "ENG-7" ∧ OffLimits registry ".orchestrator_control" ∧
      runTerminalWorkspaceCleanup (fun _ _ => none) {} root = Dict.empty := by
  refine ⟨.inr ⟨"7", _, rfl, by decide, .inl rfl⟩, .inl ?_, by decide⟩
  intro id record hre
  rw [get_set] at hre
  split at hre
  · cases hre
    decide
  · cases hre

end Orchestratord.Workspaces
