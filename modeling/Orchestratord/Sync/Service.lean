import Orchestratord.Sync.Verification

/-! # The sync after a run

Commit what the agent left, gate it and push it. The pull request and the reports that follow
are reduced to what the result says about them. -/

namespace Orchestratord.Sync

open Foundation

section

variable (cfg : Config) (session : Session) (env : Env)

/-! ## The commit -/

/-- Take paths out of the index again. -/
def unstage (step : GitStep) (keep : String → Bool) : SyncM Unit := do
  let s ← get
  let index := s.index.select keep s.headTree
  if index ≠ s.index then gitChecked env step fun s => { s with index }

def allowed (path : String) : Bool :=
  cfg.allowedChangedFiles = [] || cfg.allowedChangedFiles.any (cfg.fnmatch path)

def stageChanges : SyncM Unit := do
  gitChecked env .addAll fun s => { s with index := s.work }
  unstage env .unstage (! isArtifact ·)
  unstage env .whitelist (allowed cfg)

def reviewMetadata (message pr : String) : String :=
  let body := Text.strip session.feedbackCommitBody
  String.intercalate "\n" ([Text.strip message, "", "review-pr: #" ++ pr] ++
    session.feedbackIds.map ("review-id: " ++ ·) ++
    (if body = "" then [] else ["review-body: " ++ body]))

def ensureReviewMetadata (pr : String) : SyncM Unit := do
  let s ← get
  if ¬ Text.contains s.headMessage "review-pr:" then
    gitChecked env .metadata fun s => s.amend (reviewMetadata session s.headMessage pr)

structure Prepared where
  /-- The sync started with something to commit. -/
  changed : Bool
  committed : Bool := false
  /-- The agent has committed by itself. -/
  hasRunCommit : Bool := false
  commitSha : Option Nat := none
  deriving DecidableEq

def hasRunCommit (s : Repo) : Bool := session.startCommitSha.any fun start => s.headSha ≠ some start

/-- The agent's own commit gets the review's metadata in a follow-up. -/
def adoptRunCommit : SyncM Unit :=
  match session.pullRequest with
  | some pr => ensureReviewMetadata session env pr
  | none => pure ()

def commitChanges : SyncM Prepared := do
  let s ← get
  if s.index = s.headTree then
    if hasRunCommit session s then
      adoptRunCommit session env
      let s ← get
      pure { changed := true, hasRunCommit := true, commitSha := s.headSha }
    else pure { changed := true }
  else
    gitChecked env .commit (·.commit session.commitMessage)
    let s ← get
    pure { changed := true, committed := true, commitSha := s.headSha }

/-! ## The gates -/

/-- Undo the sync's own commit; a failure to do so is ignored. -/
def rollback (committed : Bool) : SyncM Unit :=
  modify fun s =>
    if committed ∧ env.gitFails .rollback = none ∧ s.history.tail ≠ [] then
      let s := { s with history := s.history.tail }
      { s with index := s.headTree }
    else s

/-- A failed gate ends the sync. -/
def gateFailed (committed rollsBack : Bool) : SyncError → SyncM Unit
  | .verificationFailed message _ | .hookFailed _ message _ => do
    rollback env rollsBack
    throw (.postCommit message committed)
  | e => throw e

def gateChanges (committed : Bool) : SyncM Unit :=
  tryCatch (do
    if session.strategy ≠ .sequential then runPreCommitHook cfg session env
    runPrePushVerification cfg session env) (gateFailed env false committed)

def prepareChanged : SyncM Prepared := do
  gitChecked env .configure id
  if session.strategy = .sequential then runPreCommitHook cfg session env
  stageChanges cfg env
  let prepared ← commitChanges session env
  gateChanges cfg session env prepared.committed
  let s ← get
  pure (if session.strategy = .sequential then prepared
    else { prepared with commitSha := s.headSha })

/-- Nothing to commit: only the checks before the push are made. -/
def prepareUnchanged : SyncM Prepared := do
  let s ← get
  let runCommit := hasRunCommit session s
  tryCatch (runPrePushVerification cfg session env) (gateFailed env runCommit false)
  pure { changed := false, hasRunCommit := runCommit,
         commitSha := if runCommit then s.headSha else none }

def prepare : SyncM Prepared := do
  let s ← get
  if s.dirty then prepareChanged cfg session env else prepareUnchanged cfg session env

/-! ## The push -/

structure Pushed where
  pushed : Bool
  hasConflict : Bool := false
  conflictFiles : List String := []
  deriving DecidableEq

def isNonFastForward (stderr : String) : Bool :=
  let lowered := Text.lower stderr
  stderr ≠ "" && (Text.contains lowered "non-fast-forward" || Text.contains lowered "fetch first" ||
    Text.contains stderr "Updates were rejected" || Text.contains lowered "shallow update" ||
    Text.contains lowered "deny updating a hidden branch")

def recordPush : SyncM Pushed := do
  modify fun s => { s with pushes := s.pushes ++ [s.headTree] }
  pure { pushed := true }

def remoteChecked (action : String) (output : GitOutput) : SyncM Unit :=
  if output.rc = 0 then pure ()
  else throw (.git ("git " ++ action ++ " failed: " ++
    (if output.stderr = "" then output.stdout else output.stderr)))

/-- A follow-up is pushed as it is. -/
def pushDirectly : SyncM Pushed :=
  if env.push.rc = 0 then recordPush else pure { pushed := false }

/-- After a rebase the branch is pushed again as git has left it. -/
def rebaseAndPush : SyncM Pushed := do
  remoteChecked "fetch origin" env.fetch
  if env.rebase.rc = 0 then
    modify fun s =>
      let s := { s with history := env.rebased, work := env.rebasedWork }
      { s with index := s.headTree }
    remoteChecked ("push -u origin " ++ session.branchName) env.retryPush
    recordPush
  else if Text.contains env.rebase.stderr "fatal: invalid upstream" ∨
      Text.contains env.rebase.stderr "couldn't find remote ref" then
    remoteChecked ("push -u origin " ++ session.branchName ++ " --force") env.forcePush
    recordPush
  else if env.conflicts ≠ [] then
    modify fun s => { s with work := env.rebasedWork }
    pure { pushed := false, hasConflict := true, conflictFiles := env.conflicts }
  else do
    remoteChecked "rebase" env.rebase
    pure { pushed := false }

def pushWithRecovery : SyncM Pushed :=
  if env.push.rc = 0 then recordPush
  else if isNonFastForward env.push.stderr then rebaseAndPush session env
  else do
    remoteChecked "push" env.push
    pure { pushed := false }

/-- Local trackers have no remote, and a sequential workspace is never pushed. -/
def noPush : Bool := cfg.localTracker || session.strategy = .sequential

variable (prepared : Prepared)

def deliver : SyncM Pushed :=
  if noPush cfg session then pure { pushed := false }
  else if prepared.changed then pushWithRecovery session env
  else if session.branchName = "" then pure { pushed := false }
  else if session.pullRequest.isSome then pushDirectly env
  else pushWithRecovery session env

/-! ## The result -/

structure GitSyncResult where
  branchName : String
  baseBranch : String
  commitSha : Option Nat
  pullRequest : Option String
  committed : Bool
  pushed : Bool
  hasConflict : Bool
  conflictFiles : List String
  pendingReview : Bool
  sessionEndReason : Option String
  deriving DecidableEq

/-- The rest of the sync: the pull request and the hook after the push. -/
def finish (pushed : Pushed) : SyncM GitSyncResult := do
  let reviewable := prepared.committed || prepared.hasRunCommit
  let pullRequest := match session.pullRequest with
    | some pr => some pr
    | none =>
      if session.branchName ≠ session.baseBranch ∧ ¬ noPush cfg session ∧ reviewable then
        env.ensuredPullRequest
      else none
  tryCatch (runGuardedHook cfg session env "post_sync" .postSync) fun
    | .hookFailed hook message output =>
      if reviewable then throw (.postCommit message reviewable)
      else throw (.hookFailed hook message output)
    | e => throw e
  pure {
    branchName := session.branchName
    baseBranch := session.baseBranch
    commitSha := prepared.commitSha
    pullRequest
    committed := reviewable
    pushed := pushed.pushed
    hasConflict := pushed.hasConflict
    conflictFiles := pushed.conflictFiles
    pendingReview := (cfg.localTracker || cfg.reviewRequired) && reviewable
    sessionEndReason :=
      if ¬ reviewable ∧ pullRequest = none then some "empty_branch_no_commits" else none }

def sync : SyncM GitSyncResult := do
  let prepared ← prepare cfg session env
  let pushed ← deliver cfg session env prepared
  finish cfg session env prepared pushed

end

end Orchestratord.Sync
