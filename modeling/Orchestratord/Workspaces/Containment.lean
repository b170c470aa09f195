import Orchestratord.Workspaces.Manager

/-! # Containment

Every operation of the workspace manager on a directory stays inside that directory,
under each of the three strategies. The directory is assumed to be written without `..`,
so that it is the place its name shows. -/

namespace Orchestratord.Workspaces

open Foundation FsM FileTree List

variable {host : Host} {d : Path}

theorem respects_os {α : Type} {f : FsM α} (hf : Respects (KeptOutside d) f) :
    Respects (KeptOutside d) (os f) :=
  hf.mapError

theorem respects_exists (p : Path) : Respects (KeptOutside d) (exists? p) :=
  .bind .get fun _ => .pure _

theorem respects_isDir (p : Path) : Respects (KeptOutside d) (isDir p) :=
  .bind .get fun _ => .pure _

/-! ## Processes -/

theorem respects_runProcess {command : Command} {cwd : Path} (timeoutMs : Nat)
    (hsc : resolve (command.scope cwd) = d) :
    Respects (KeptOutside d) (runProcess host command cwd timeoutMs) := by
  subst hsc
  intro t
  have hke := host.confined command cwd t
  by_cases hdir : t.isDir cwd = true
  · -- whatever the exit, the tree is the one the command left
    have haf : (runProcess host command cwd timeoutMs).after t = (host.run command cwd t).1 := by
      simp only [runProcess, Eff.after, Eff.exec_bind, Eff.exec_get, hdir, if_true, Eff.exec_set]
      split
      · rfl
      · split <;> rfl
    rwa [haf]
  · have haf : (runProcess host command cwd timeoutMs).after t = t := by
      simp [runProcess, Eff.after, Eff.exec_bind, hdir]
    rw [haf]
    exact refl_of _ t

theorem respects_tryProcess {command : Command} {cwd : Path}
    (hsc : resolve (command.scope cwd) = d) :
    Respects (KeptOutside d) (tryProcess host command cwd) := by
  refine .tryCatch (.bind (respects_runProcess _ hsc) fun _ => .pure _) fun e => ?_
  rcases e with message | error
  · exact .pure _
  · exact .throw _

section Directory

variable (hplain : ".." ∉ d)

include hplain

variable (args : List String)

theorem respects_git (timeoutMs : Nat) :
    Respects (KeptOutside d) (runProcess host (.git args) d timeoutMs) :=
  respects_runProcess _ (resolve_plain hplain)

theorem respects_gitTry : Respects (KeptOutside d) (gitTry host args d) :=
  respects_tryProcess (resolve_plain hplain)

theorem respects_gitTry_ : Respects (KeptOutside d) (gitTry_ host args d) :=
  .bind (respects_gitTry hplain args) fun _ => .pure _

theorem respects_runGivenHook (config : WorkspaceConfig) (hook : Option String) (hoo : String)
    (ignoreFail : Bool) :
    Respects (KeptOutside d) (runGivenHook host config hook d hoo ignoreFail) := by
  unfold runGivenHook
  split
  · refine .tryCatch ?_ fun e => ?_
    · exact .bind (respects_runProcess _ (resolve_plain hplain)) fun _ => .pure _
    · refine .ite (.pure _) ?_
      rcases e with message | error
      all_goals exact .throw _
  · exact .pure _

namespace WorkspaceManager

variable (m : WorkspaceManager)

/-! ## Preparing -/

omit hplain in
/-- A path below the directory is written without `..` if the rest of it is. -/
theorem plain_append (hd : ".." ∉ d) {rest : Path} (hre : ".." ∉ rest) : ".." ∉ d ++ rest := by
  simp [hd, hre]

theorem respects_ensureWorkspace : Respects (KeptOutside d) (ensureWorkspace d) := by
  refine .bind (respects_isDir d) fun _ => .ite (.pure _) ?_
  refine .bind (respects_exists d) fun _ => ?_
  refine .bind (.when (respects_os (respects_rmtree hplain (prefix_refl d)))) fun _ => ?_
  exact .bind (respects_os (respects_mkdirParents hplain (.inl (prefix_refl d)))) fun _ => .pure _

theorem respects_addUpstreamRemote : Respects (KeptOutside d) (m.addUpstreamRemote host d) := by
  unfold addUpstreamRemote
  split
  · exact .pure _
  · exact .ite (.pure _) (respects_gitTry_ hplain _)

theorem respects_configureGit (key : String) (value : Option String) :
    Respects (KeptOutside d) (configureGit host key value d) := by
  unfold configureGit
  split
  · exact respects_gitTry_ hplain _
  · exact .pure _

theorem respects_ensureGitIdentity : Respects (KeptOutside d) (m.ensureGitIdentity host d) :=
  .bind (respects_configureGit hplain _ _) fun _ => respects_configureGit hplain _ _

variable (cloneUrl branch : String) (issue : Issue)

/-- The clone works in the parent directory, but on its target only; the parents made
for it are the one change above the directory. -/
theorem respects_cloneRepository :
    Respects (KeptOutside d) (m.cloneRepository host d cloneUrl) := by
  have hpa : ".." ∉ d.dropLast := fun h => hplain (mem_of_mem_dropLast h)
  refine .bind (respects_os (respects_mkdirParents hpa (.inr (List.dropLast_prefix d)))) fun _ => ?_
  refine .bind (respects_runProcess _ (resolve_plain hplain)) fun _ => ?_
  exact .bind (respects_addUpstreamRemote hplain m) fun _ => respects_ensureGitIdentity hplain m

theorem respects_syncBaseFromUpstream (base : String) :
    Respects (KeptOutside d) (syncBaseFromUpstream host d base) :=
  .bind (respects_gitTry_ hplain _) fun _ => .bind (respects_gitTry hplain _) fun _ =>
    .ite (respects_gitTry_ hplain _) (.pure _)

theorem respects_fetchBaseBranch (base : String) :
    Respects (KeptOutside d) (m.fetchBaseBranch host d base) :=
  .bind (respects_gitTry_ hplain _) fun _ => .bind (respects_gitTry hplain _) fun _ =>
    .ite (respects_gitTry_ hplain _) (respects_gitTry_ hplain _)

theorem respects_checkoutBaseBranch : Respects (KeptOutside d) (m.checkoutBaseBranch host d) := by
  unfold checkoutBaseBranch
  refine .ite (.pure _) (.bind (respects_exists _) fun _ => .ite (.pure _) ?_)
  refine .bind (respects_gitTry hplain _) fun _ => .ite (.ite ?_ (.pure _)) ?_
  · exact respects_syncBaseFromUpstream hplain _
  · exact respects_fetchBaseBranch hplain m _

theorem respects_branchFromOrigin : Respects (KeptOutside d) (branchFromOrigin host d branch) :=
  .bind (respects_gitTry_ hplain _) fun _ => .bind (respects_gitTry hplain _) fun _ =>
    .ite (respects_gitTry hplain _) (.pure _)

theorem respects_branchFromUpstream :
    Respects (KeptOutside d) (m.branchFromUpstream host d branch) :=
  .ite (.bind (respects_gitTry_ hplain _) fun _ => respects_gitTry hplain _) (.pure _)

theorem respects_checkoutBranch : Respects (KeptOutside d) (m.checkoutBranch host d branch) := by
  refine .bind (respects_gitTry hplain _) fun _ => .ite (.pure _) ?_
  refine .bind (respects_branchFromOrigin hplain _) fun _ => .ite (.pure _) ?_
  exact .bind (respects_branchFromUpstream hplain m _) fun _ =>
    .ite (.pure _) (respects_gitTry_ hplain _)

theorem respects_checkoutIssueBranch :
    Respects (KeptOutside d) (m.checkoutIssueBranch host d issue) :=
  .ite (.pure _) (.bind (respects_exists _) fun _ => .ite (.pure _)
    (.ite (.pure _) (respects_checkoutBranch hplain m _)))

theorem respects_renewClone : Respects (KeptOutside d) (m.renewClone host d cloneUrl) := by
  have hcl : Respects (KeptOutside d)
      (do m.cloneRepository host d cloneUrl; pure true : WsM Bool) :=
    .bind (respects_cloneRepository hplain m cloneUrl) fun _ => .pure _
  refine .bind (respects_exists _) fun _ => .ite hcl ?_
  refine .bind (respects_isDir _) fun _ => .ite ?_ ?_
  · exact .bind (respects_os (respects_unlink hplain (prefix_refl d))) fun _ => hcl
  · refine .bind (respects_exists _) fun _ => .ite ?_ (.pure _)
    exact .bind (.ignoreErrors (respects_rmtree hplain (prefix_refl d))) fun _ => hcl

theorem respects_prepareWorkspace : Respects (KeptOutside d) (m.prepareWorkspace host d issue) := by
  unfold prepareWorkspace
  split
  · exact respects_ensureWorkspace hplain
  refine .bind (respects_renewClone hplain m _) fun _ => ?_
  refine .bind (respects_checkoutBaseBranch hplain m) fun _ => ?_
  refine .bind (respects_checkoutIssueBranch hplain m issue) fun _ => ?_
  exact .bind (respects_ensureGitIdentity hplain m) fun _ => .pure _

/-! ## The shared and the sequential strategy -/

theorem respects_initRepository : Respects (KeptOutside d) (m.initRepository host d cloneUrl) := by
  refine .bind (respects_git hplain _ _) fun _ => .bind (respects_git hplain _ _) fun _ => ?_
  refine .bind (respects_addUpstreamRemote hplain m) fun _ => ?_
  exact .bind (respects_ensureGitIdentity hplain m) fun _ =>
    .ite (.pure _) (respects_gitTry_ hplain _)

theorem respects_prepareSharedWorkspace :
    Respects (KeptOutside d) (m.prepareSharedWorkspace host d) := by
  unfold prepareSharedWorkspace
  split
  · exact respects_ensureWorkspace hplain
  refine .bind (respects_exists _) fun _ => .ite ?_ ?_
  · exact .bind (respects_cloneRepository hplain m _) fun _ => .pure _
  · refine .bind (respects_isDir _) fun _ => .ite (.throw _) ?_
    refine .bind (respects_exists _) fun _ => .ite ?_ (.pure _)
    exact .bind (respects_initRepository hplain m _) fun _ => .pure _

theorem respects_checkoutIntegrationBranch :
    Respects (KeptOutside d) (m.checkoutIntegrationBranch host d) := by
  have hba : ∀ base, Respects (KeptOutside d) (checkoutIntegrationBase host d base) := fun base =>
    .bind (respects_gitTry hplain _) fun _ => .ite (.pure _)
      (.bind (respects_branchFromOrigin hplain _) fun _ => .ite (.pure _)
        (.bind (respects_git hplain _ _) fun _ => .pure _))
  refine .bind (respects_exists _) fun _ => .ite (.pure _) (.ite (.pure _) ?_)
  refine .bind (respects_gitTry hplain _) fun _ => .ite (.pure _) ?_
  refine .bind (respects_branchFromOrigin hplain _) fun _ => .ite (.pure _) ?_
  exact .bind (.when (hba _)) fun _ =>
    .ite (.pure _) (.bind (respects_git hplain _ _) fun _ => .pure _)

theorem respects_ensureCleanWorkspace (reason : String) :
    Respects (KeptOutside d) (ensureCleanWorkspace host d reason) :=
  .bind (respects_exists _) fun _ =>
    .ite (.bind (respects_git hplain _ _) fun _ => .ite (.pure _) (.throw _)) (.pure _)

omit hplain in
theorem lock_plain : ".." ∉ m.sequentialLockPath := plain_append m.resolved (by decide)

omit hplain in
theorem respects_releaseSequentialLock : Respects (KeptOutside m.root) m.releaseSequentialLock := by
  have hun := respects_unlink (lock_plain m) (prefix_append m.root _)
  exact .ite (.pure _) (.bind (respects_exists _) fun _ => .ite (respects_os hun) (.pure _))

omit hplain in
theorem respects_acquireSequentialLock :
    Respects (KeptOutside m.root) (m.acquireSequentialLock host issue) := by
  have hbe : m.root <+: m.sequentialLockPath := prefix_append m.root _
  have hpa : m.sequentialLockPath.dropLast = m.root := by simp [sequentialLockPath]
  have hbr : Respects (KeptOutside m.root) (breakStaleLock host m.sequentialLockPath) :=
    .bind (respects_os (respects_readText _ _)) fun _ =>
      .ite (.throw _) (respects_os (respects_unlink (lock_plain m) hbe))
  dsimp only [acquireSequentialLock]
  rw [hpa]
  refine .ite (.pure _) ?_
  refine .bind (respects_os (respects_mkdirParents m.resolved (.inl (prefix_refl _)))) fun _ => ?_
  refine .bind (respects_exists _) fun _ => .bind (.when hbr) fun _ => ?_
  exact respects_os (respects_writeText _ (lock_plain m) hbe)

omit hplain in
theorem respects_prepareSequentialWorkspace :
    Respects (KeptOutside m.root) (m.prepareSequentialWorkspace host m.root issue) := by
  refine .bind (respects_checkoutIntegrationBranch m.resolved m) fun _ => ?_
  refine .bind (.when (respects_ensureCleanWorkspace m.resolved _)) fun _ => ?_
  exact respects_acquireSequentialLock m issue

/-! ## The entry points -/

theorem respects_excludeOrchestratorFiles :
    Respects (KeptOutside d) (m.excludeOrchestratorFiles d) := by
  refine .bind (respects_exists _) fun _ => .ite ?_ (.pure _)
  refine .bind (respects_os (respects_readText _ _)) fun _ => .ite (.pure _) ?_
  exact respects_os (respects_writeText _ (plain_append hplain (by decide)) (prefix_append d _))

theorem respects_preserve (texts : Preservation) : Respects (KeptOutside d) (preserve d texts) := by
  have hco : ".." ∉ controlDir d := plain_append hplain (by decide)
  have hbe : d <+: controlDir d := prefix_append d _
  have hmk := respects_mkdirExistOk hco (.inl hbe)
  have hwr : ∀ name content, name ≠ ".." →
      Respects (KeptOutside d) (writeText (controlDir d ++ [name]) content) := by
    intro name content hna
    apply respects_writeText content
    · exact plain_append hco (by simpa using hna.symm)
    · exact hbe.trans (prefix_append _ _)
  have hge : ∀ name content, name ≠ ".." →
      Respects (KeptOutside d) (generate d name content) := fun name content hna =>
    .ignoreErrors (.bind hmk fun _ => hwr name content hna)
  refine .bind (.when (hge _ _ (by decide))) fun _ => ?_
  refine .bind (hge _ _ (by decide)) fun _ => ?_
  exact .bind (respects_os hmk) fun _ => .ignoreErrors (hwr _ _ (by decide))

theorem respects_retire (endStatus endReason : Option String) (texts : Preservation) :
    Respects (KeptOutside d) (m.retire host d endStatus endReason texts) := by
  refine .bind (respects_runGivenHook hplain _ _ _ _) fun _ => .ite ?_ (.pure _)
  exact .ite (respects_preserve hplain texts)
    (.ignoreErrors (respects_rmtree hplain (prefix_refl d)))

end WorkspaceManager

end Directory

namespace WorkspaceManager

variable (m : WorkspaceManager) (issue : Issue)

theorem workspacePath_eq_root (hst : m.config.strategy ≠ .isolated) :
    m.workspacePath issue = m.root := by
  unfold workspacePath
  split
  · next h => exact absurd h hst
  · rfl

variable (hplain : ".." ∉ m.workspacePath issue)

include hplain

theorem respects_prepare : Respects (KeptOutside (m.workspacePath issue))
      (m.prepare host (m.workspacePath issue) issue) := by
  unfold prepare
  split
  · exact respects_prepareWorkspace hplain m issue
  · exact respects_prepareSharedWorkspace hplain m
  next hseq =>
  rw [workspacePath_eq_root m issue (by simp [hseq])]
  refine .bind (respects_prepareSharedWorkspace m.resolved m) fun _ => ?_
  refine .bind (.tryCatch (respects_prepareSequentialWorkspace m issue) fun _ => ?_)
    fun _ => .pure _
  exact .bind (respects_releaseSequentialLock m) fun _ => .throw _

/-- Creating a workspace changes nothing outside of its directory. -/
theorem respects_createForIssue :
    Respects (KeptOutside (m.workspacePath issue)) (m.createForIssue host issue) := by
  refine .bind (respects_prepare m issue hplain) fun _ => ?_
  refine .bind (.when (respects_runGivenHook hplain _ _ _ _)) fun _ => ?_
  exact .bind (respects_excludeOrchestratorFiles hplain m) fun _ => .pure _

/-- Neither does cleaning it up, whether it is kept or removed. -/
theorem respects_cleanup (endStatus endReason : Option String) (texts : Preservation) :
    Respects (KeptOutside (m.workspacePath issue))
      (m.cleanup host issue endStatus endReason texts) := by
  refine .bind (respects_exists _) fun _ => ?_
  refine .bind (.when (respects_retire hplain m _ _ _)) fun _ => ?_
  by_cases hseq : m.config.strategy = .sequential
  · rw [workspacePath_eq_root m issue (by simp [hseq])]
    exact .when (respects_releaseSequentialLock m)
  · simpa [Eff.when, hseq] using .pure ()

end WorkspaceManager

end Orchestratord.Workspaces
