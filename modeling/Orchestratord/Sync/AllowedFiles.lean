import Orchestratord.Sync.VerifiedPush

/-! # Which files a push publishes

The sync filters what it stages: no artifacts of the orchestrator and, if there is a whitelist,
no file off it. Commits that the agent made by itself, the amendment after the hook and a rebase
do not pass the filter. -/

namespace Orchestratord.Sync

open Foundation

/-! ## Trees by paths -/

variable {path : String} {tree tree' : Tree}

namespace Tree

variable {base : Tree}

/-- The trees have the same file, or none, at a path. -/
def SameAt (path : String) (tree tree' : Tree) : Prop :=
  ∀ content, (path, content) ∈ tree.files ↔ (path, content) ∈ tree'.files

theorem mem_changed : path ∈ tree.changed base ↔ ¬ SameAt path tree base := by
  simp only [changed, SameAt, Finset.mem_image, Finset.mem_union, Finset.mem_sdiff, Prod.exists,
    exists_and_right, exists_eq_right, not_forall]
  constructor
  · rintro ⟨content, ⟨h, hnot⟩ | ⟨h, hnot⟩⟩
    · exact ⟨content, fun hiff => hnot (hiff.mp h)⟩
    · exact ⟨content, fun hiff => hnot (hiff.mpr h)⟩
  · rintro ⟨content, hdi⟩
    refine ⟨content, ?_⟩
    by_cases h : (path, content) ∈ tree.files
    · exact .inl ⟨h, fun hba => hdi (iff_of_true h hba)⟩
    · exact .inr ⟨by_contra fun hba => hdi (iff_of_false h hba), h⟩

theorem SameAt.mem_changed_iff (h : SameAt path tree tree') :
    path ∈ tree.changed base ↔ path ∈ tree'.changed base := by
  rw [mem_changed, mem_changed]
  exact not_congr (forall_congr' fun content => iff_congr (h content) .rfl)

theorem SameAt.trans {tree'' : Tree} (h : SameAt path tree tree') (h' : SameAt path tree' tree'') :
    SameAt path tree tree'' := fun content => (h content).trans (h' content)

variable {keep : String → Bool}

/-- A path that is not selected stays as it was. -/
theorem select_sameAt_base (h : keep path = false) : SameAt path (select keep tree base) base := by
  intro _
  simp [select, h]

theorem select_sameAt_tree (h : keep path = true) : SameAt path (select keep tree base) tree := by
  intro _
  simp [select, h]

end Tree

/-! ## Permitted changes -/

section

variable (cfg : Config) (env : Env) (start tree : Tree)

/-- All changes since the start are on the whitelist and no artifacts. -/
def OnlyPermitted : Prop :=
  ∀ path ∈ tree.changed start, allowed cfg path = true ∧ isArtifact path = false

instance : Decidable (OnlyPermitted cfg start tree) :=
  inferInstanceAs (Decidable (∀ path ∈ _, _))

/-- What is published past the filter: a rebased branch, else what the hook has left in the
working tree, else what was committed before the sync. -/
def unfilteredTree (repo : Repo) : Tree :=
  published env (if repo.dirty ∧ cfg.preCommit ≠ "" then (env.shell .preCommit repo.work).tree
    else repo.headTree)

end

section

variable {cfg : Config} {session : Session} {env : Env} {repo : Repo}

/-- The filter leaves what it does not let through as it was at the head. -/
theorem stagedTree_sameAt_head (h : ¬ (allowed cfg path = true ∧ isArtifact path = false)) :
    Tree.SameAt path (stagedTree cfg repo) repo.headTree := by
  by_cases hal : allowed cfg path = true
  · have har : (! isArtifact path) = false := by
      simpa [hal] using h
    exact (Tree.select_sameAt_tree hal).trans (Tree.select_sameAt_base har)
  · exact Tree.select_sameAt_base (by simpa using hal)

variable {start : Tree}

/-- The staged changes are permitted exactly when those of the agent's own commits are. -/
theorem stagedTree_onlyPermitted :
    OnlyPermitted cfg start (stagedTree cfg repo) ↔ OnlyPermitted cfg start repo.headTree := by
  refine forall_congr' fun path => ?_
  by_cases h : allowed cfg path = true ∧ isArtifact path = false
  · exact iff_of_true (fun _ => h) (fun _ => h)
  · rw [(stagedTree_sameAt_head h).mem_changed_iff]

end

variable (cfg : Config)

/-- An edit beside a note that is off the whitelist. -/
def editedWithNote : Repo :=
  { edited "new" with work := ⟨{("app.py", "new"), ("notes.txt", "todo")}, by simp⟩ }

theorem editedWithNote_pushed : oneFile "new" ∈ ((sync { allowedChangedFiles := ["app.py"] } {}
      (answering 0 "")).after editedWithNote).pushes := by
  decide +kernel

/-- A tree is pushed that has changes since the start which are not permitted. -/
def PublishesOthers (env : Env) (repo : Repo) (start tree : Tree) : Prop :=
  tree ∈ ((sync cfg {} env).after repo).pushes ∧ ¬ OnlyPermitted cfg start tree

instance (env : Env) (repo : Repo) (start tree : Tree) :
    Decidable (PublishesOthers cfg env repo start tree) := inferInstanceAs (Decidable (_ ∧ _))

/-- The edited file and two others that are to stay behind. -/
def withNotes : Tree :=
  ⟨{("app.py", "new"), ("notes.txt", "todo"), ("STAGE_REPORT.md", "done")}, by simp⟩

end Orchestratord.Sync
