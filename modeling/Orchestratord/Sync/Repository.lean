import Orchestratord.Foundation.Text

/-! # The repository that a sync works on

Files that git ignores are no part of the trees. -/

namespace Orchestratord.Sync

open Foundation

/-- A path has at most one content. -/
structure Tree where
  files : Finset (String × String)
  functional : ∀ a ∈ files, ∀ b ∈ files, a.1 = b.1 → a = b
  deriving DecidableEq

namespace Tree

def empty : Tree := ⟨∅, by simp⟩

/-- The selected paths as in `tree`, the others as in `base`. -/
def select (keep : String → Bool) (tree base : Tree) : Tree where
  files := tree.files.filter (keep ·.1) ∪ base.files.filter (! keep ·.1)
  functional := by
    intro a ha b hb heq
    simp only [Finset.mem_union, Finset.mem_filter, Bool.not_eq_true'] at ha hb
    rcases ha with ⟨ha, hka⟩ | ⟨ha, hka⟩ <;> rcases hb with ⟨hb, hkb⟩ | ⟨hb, hkb⟩
    · exact tree.functional a ha b hb heq
    · rw [heq, hkb] at hka
      cases hka
    · rw [heq, hkb] at hka
      cases hka
    · exact base.functional a ha b hb heq

/-- The paths on which two trees differ. -/
def changed (tree base : Tree) : Finset String :=
  ((tree.files \ base.files) ∪ (base.files \ tree.files)).image Prod.fst

end Tree

structure Commit where
  sha : Nat
  tree : Tree
  message : String
  deriving DecidableEq

/-! ## Files that stay out of commits -/

def orchestratorArtifacts : List String :=
  [".orchestrator_control", ".orchestrator_workspace", ".reports", ".operator_hints.md",
    ".orchestratord_issue_registry.json", ".orchestratord_clarification_queue.json",
    ".orchestratord_workspace.lock", ".event_streams", ".run_control", "daemon.pid",
    "analysis.md", "changes_summary.md", "verification_report.md"]

def workflowArtifactPatterns : List String :=
  ["ANALYSE_REPORT", "ANALYSIS_REPORT", "CHANGE_SUMMARY", "WORKFLOW_REPORT", "STAGE_REPORT"]

/-- The last component without its last suffix; a dot at either end starts no suffix. -/
def stem (path : String) : String :=
  let name := (path.toList.reverse.takeWhile (· ≠ '/')).reverse
  let suffix := name.reverse.takeWhile (· ≠ '.')
  let base := name.take (name.length - suffix.length - 1)
  if suffix = [] ∨ base = [] ∨ suffix.length = name.length then String.ofList name
  else String.ofList base

def isArtifact (path : String) : Bool :=
  orchestratorArtifacts.any (fun artifact =>
    path = artifact || Text.startsWith path (artifact ++ "/")) ||
  workflowArtifactPatterns.any (Text.contains (Text.upper (stem path)))

end Orchestratord.Sync
