import Orchestratord.Foundation.FileTree
import Orchestratord.Foundation.Text

/-! # The workspace manager

One workspace directory per issue under the isolated strategy, the root itself under the
shared and the sequential one. Processes are run by the host; what a command may touch
is a field of the host, since `git` and the hooks are not part of the program. -/

namespace Orchestratord.Workspaces

open Foundation

inductive Strategy where
  | isolated
  | shared
  | sequential
  deriving DecidableEq, Repr

structure Hooks where
  afterCreate : Option String := none
  beforeRemove : Option String := none
  beforeRun : Option String := none
  afterRun : Option String := none
  timeoutMs : Nat := 60000

structure WorkspaceConfig where
  hooks : Hooks := {}
  repoCloneUrl : Option String := none
  upstreamCloneUrl : Option String := none
  cloneDepth : Option Int := some 1
  checkoutIssueBranch : Bool := true
  gitUsername : Option String := none
  gitEmail : Option String := none
  gitToken : Option String := none
  gitignorePatterns : List String := []
  strategy : Strategy := .isolated
  baseBranch : Option String := none
  integrationBranch : Option String := none
  requireCleanStart : Bool := true
  preserveOnTerminal : Bool := true
  preserveOnFailure : Bool := true
  preserveOnAbandoned : Bool := true
  preserveOnTimeout : Bool := true
  sequentialLock : Bool := true

structure Issue where
  id : Option String := none
  identifier : Option String := none
  branchName : Option String := none

structure Workspace where
  path : Path
  issueIdentifier : String
  issueId : Option String

/-- `hook` is the manager's own exception, `os` any other one. -/
inductive WorkspaceError where
  | hook (message : String)
  | os (error : OsError)
  deriving DecidableEq, Repr

/-! ## Processes -/

inductive Command where
  | gitClone (depth : Option Nat) (url : String) (target : Path)
  | git (args : List String)
  | shell (script : String)

/-- The directory a command works on: a clone its target, any other its working directory. -/
def Command.scope (cwd : Path) : Command → Path
  | .gitClone _ _ target => target
  | .git _ => cwd
  | .shell _ => cwd

inductive Exit where
  | done (code : Int) (stdout : String)
  | timedOut

structure Host where
  run : Command → Path → FileTree → FileTree × Exit
  /-- A command changes nothing outside of the directory it works on. -/
  confined : ∀ command cwd t,
    KeptOutside (FileTree.resolve (command.scope cwd)) t (run command cwd t).1
  pid : Nat
  /-- Whether signal 0 can be sent to a process. -/
  canSignal : Int → Bool
  now : String

abbrev WsM := Eff WorkspaceError FileTree

def os {α : Type} (m : FsM α) : WsM α := m.mapError .os

def exists? (path : Path) : WsM Bool := do
  let t ← get
  pure (t.exists? path)

def isDir (path : Path) : WsM Bool := do
  let t ← get
  pure (t.isDir path)

variable (host : Host) (command : Command) (cwd : Path)

/-- Run a command; a non-zero exit and a timeout raise, and so does a working
directory that is not there. -/
def runProcess (timeoutMs : Nat := 60000) : WsM String := do
  let t ← get
  if t.isDir cwd then
    let outcome := host.run command cwd t
    set outcome.1
    match outcome.2 with
    | .timedOut => throw (.hook s!"Workspace command timed out after {timeoutMs}ms")
    | .done code stdout =>
      if code = 0 then pure stdout
      else throw (.hook s!"Workspace command failed with exit code {code}")
  else throw (.os .notFound)

/-- Only the manager's own exception is turned into `false`. -/
def tryProcess : WsM Bool :=
  tryCatch (do let _ ← runProcess host command cwd 30000; pure true) fun
    | .hook _ => pure false
    | .os e => throw (.os e)

def gitTry (args : List String) (path : Path) : WsM Bool := tryProcess host (.git args) path

/-- Run a git command whose failure is ignored. -/
def gitTry_ (args : List String) (path : Path) : WsM Unit := do
  let _ ← gitTry host args path
  pure ()

variable (config : WorkspaceConfig)

def runHook (command : String) (workspace : Path)
    (hookName : String) (ignoreFail : Bool) : WsM Unit :=
  tryCatch (do let _ ← runProcess host (.shell command) workspace config.hooks.timeoutMs; pure ())
    fun e =>
      if ignoreFail then pure ()
      else match e with
        | .hook message => throw (.hook message)
        | .os err => throw (.hook s!"Hook {hookName} error: {err.text}")

/-- A configured text counts only when it is not empty. -/
def given (o : Option String) : Option String := o.filter (· ≠ "")

def runGivenHook (hook : Option String)
    (workspace : Path) (hookName : String) (ignoreFail : Bool) : WsM Unit :=
  match given hook with
  | some command => runHook host config command workspace hookName ignoreFail
  | none => pure ()

/-! ## Configuration -/

namespace WorkspaceConfig

variable (c : WorkspaceConfig)

def withCredentials (url : String) : String :=
  match given c.gitUsername, given c.gitToken with
  | some user, some token => Text.replace url "https://" s!"https://{user}:{token}@"
  | _, _ => url

def sameUrl (a b : String) : Bool := Text.rstripWhere (· = '/') a = Text.rstripWhere (· = '/') b

def upstreamConfigured : Bool :=
  match given c.upstreamCloneUrl, given c.repoCloneUrl with
  | some upstream, some repo => !sameUrl upstream repo
  | _, _ => false

def base : String := Text.strip (c.baseBranch.getD "")

def integration : String :=
  Text.strip (((given c.integrationBranch).orElse fun _ => c.baseBranch).getD "")

def depth : Option Nat := (c.cloneDepth.filter (0 < ·)).map Int.toNat

/-- The matrix of the preservation flags, in the order of the source. -/
def shouldPreserve (endStatus endReason : Option String) : Bool :=
  let status := Text.lower (endStatus.getD "")
  let reason := Text.lower (endReason.getD "")
  if reason = "budget_exhausted" ∨ reason = "timeout" then c.preserveOnTimeout
  else if status = "abandoned" then c.preserveOnAbandoned
  else if status = "failed" ∨ status = "verification_failed" then c.preserveOnFailure
  else c.preserveOnTerminal

end WorkspaceConfig

/-! ## Paths -/

/-- The class `[a-zA-Z0-9._-]`. -/
def safeChar (c : Char) : Bool :=
  ('a' ≤ c && c ≤ 'z') || ('A' ≤ c && c ≤ 'Z') || ('0' ≤ c && c ≤ '9') ||
    c = '.' || c = '_' || c = '-'

def sanitize (c : Char) : Char := if safeChar c then c else '_'

def safeIdentifier (identifier : String) : String :=
  if identifier = "" then "issue" else String.ofList (identifier.toList.map sanitize)

/-- Joining a path with one component drops the component `.` and keeps `..`. -/
def joinPath (p : Path) (name : String) : Path := if name = "." then p else p ++ [name]

/-- A path as the messages show it. -/
def showPath (p : Path) : String := "/" ++ "/".intercalate p

def Issue.name (issue : Issue) : String := (given issue.identifier).getD "issue"

structure WorkspaceManager where
  config : WorkspaceConfig
  root : Path
  /-- The root was resolved when the manager was made. -/
  resolved : ".." ∉ root

namespace WorkspaceManager

variable (m : WorkspaceManager) (host : Host)

def buildPath (safeId : String) : Path := joinPath m.root safeId

def workspacePath (issue : Issue) : Path :=
  match m.config.strategy with
  | .isolated => m.buildPath (safeIdentifier issue.name)
  | _ => m.root

/-! ## Preparing a workspace -/

variable (path : Path)

def ensureWorkspace : WsM Bool := do
  if ← isDir path then pure false
  else
    (os (.rmtree path)).when (← exists? path)
    os (.mkdirParents path)
    pure true

def addUpstreamRemote : WsM Unit :=
  match given m.config.upstreamCloneUrl with
  | none => pure ()
  | some upstream =>
    if (given m.config.repoCloneUrl).any (WorkspaceConfig.sameUrl upstream) then pure ()
    else gitTry_ host ["remote", "add", "upstream", m.config.withCredentials upstream] path

def configureGit (key : String) (value : Option String) (path : Path) : WsM Unit :=
  match value with
  | some text => gitTry_ host ["config", key, text] path
  | none => pure ()

/-- The address is the configured one, or one made of the user name. -/
def ensureGitIdentity : WsM Unit := do
  let user := given m.config.gitUsername
  configureGit host "user.name" user path
  configureGit host "user.email"
    ((given m.config.gitEmail).orElse fun _ => user.map (· ++ "@gitcode.com")) path

def cloneRepository (cloneUrl : String) : WsM Unit := do
  os (.mkdirParents path.dropLast)
  let _ ← runProcess host
    (.gitClone m.config.depth (m.config.withCredentials cloneUrl) path) path.dropLast
  m.addUpstreamRemote host path
  m.ensureGitIdentity host path

def syncBaseFromUpstream (baseBranch : String) : WsM Unit := do
  let ref := s!"refs/remotes/upstream/{baseBranch}"
  gitTry_ host ["fetch", "upstream", s!"{baseBranch}:{ref}"] path
  if ← gitTry host ["show-ref", "--verify", "--quiet", ref] path then
    gitTry_ host ["merge", "--ff-only", s!"upstream/{baseBranch}"] path
  else pure ()

/-- Fetch the base branch and check it out from the remote, or make it from the head. -/
def fetchBaseBranch (base : String) : WsM Unit := do
  let remote := if m.config.upstreamConfigured then "upstream" else "origin"
  let ref := s!"refs/remotes/{remote}/{base}"
  gitTry_ host ["fetch", remote, s!"{base}:{ref}"] path
  if ← gitTry host ["show-ref", "--verify", "--quiet", ref] path then
    gitTry_ host ["checkout", "-b", base, ref] path
  else gitTry_ host ["checkout", "-b", base] path

def checkoutBaseBranch : WsM Unit := do
  let base := m.config.base
  if base = "" then pure ()
  else if !(← exists? (path ++ [".git"])) then pure ()
  else if ← gitTry host ["checkout", base] path then
    if m.config.upstreamConfigured then syncBaseFromUpstream host path base else pure ()
  else m.fetchBaseBranch host path base

/-- A new issue branch in a fork starts at the upstream base, not at the head. -/
def branchFromUpstream (branch : String) : WsM Bool := do
  let base := m.config.base
  if m.config.upstreamConfigured && base ≠ "" then
    gitTry_ host ["fetch", "upstream", s!"{base}:refs/remotes/upstream/{base}"] path
    gitTry host ["checkout", "-b", branch, s!"upstream/{base}"] path
  else pure false

def branchFromOrigin (branch : String) : WsM Bool := do
  let ref := s!"refs/remotes/origin/{branch}"
  gitTry_ host ["fetch", "origin", s!"{branch}:{ref}"] path
  if ← gitTry host ["show-ref", "--verify", "--quiet", ref] path then
    gitTry host ["checkout", "-b", branch, "--track", s!"origin/{branch}"] path
  else pure false

def checkoutBranch (branch : String) : WsM Unit := do
  if ← gitTry host ["checkout", branch] path then pure ()
  else if ← branchFromOrigin host path branch then pure ()
  else if ← m.branchFromUpstream host path branch then pure ()
  else gitTry_ host ["checkout", "-b", branch] path

def checkoutIssueBranch (path : Path) (issue : Issue) : WsM Unit := do
  let branch := Text.strip (issue.branchName.getD "")
  if !m.config.checkoutIssueBranch then pure ()
  else if !(← exists? (path ++ [".git"])) then pure ()
  else if branch = "" then pure ()
  else m.checkoutBranch host path branch

/-- Clone again unless the directory holds a repository; tells whether it cloned. -/
def renewClone (cloneUrl : String) : WsM Bool := do
  if !(← exists? path) then
    m.cloneRepository host path cloneUrl
    pure true
  else if !(← isDir path) then
    os (.unlink path)
    m.cloneRepository host path cloneUrl
    pure true
  else if !(← exists? (path ++ [".git"])) then
    (FsM.rmtree path).ignoreErrors
    m.cloneRepository host path cloneUrl
    pure true
  else pure false

def prepareWorkspace (issue : Issue) : WsM Bool :=
  match given m.config.repoCloneUrl with
  | none => ensureWorkspace path
  | some cloneUrl => do
    let created ← m.renewClone host path cloneUrl
    m.checkoutBaseBranch host path
    m.checkoutIssueBranch host path issue
    m.ensureGitIdentity host path
    pure created

/-! ## The shared and the sequential strategy -/

/-- Turn a directory into a repository with the configured remotes. -/
def initRepository (cloneUrl : String) : WsM Unit := do
  let _ ← runProcess host (.git ["init"]) path
  let _ ← runProcess host (.git ["remote", "add", "origin", m.config.withCredentials cloneUrl]) path
  m.addUpstreamRemote host path
  m.ensureGitIdentity host path
  let branch := m.config.integration
  if branch = "" then pure ()
  else
    let remote := if m.config.upstreamConfigured then "upstream" else "origin"
    gitTry_ host ["fetch", remote, s!"{branch}:refs/remotes/{remote}/{branch}"] path

def prepareSharedWorkspace : WsM Bool :=
  match given m.config.repoCloneUrl with
  | none => ensureWorkspace path
  | some cloneUrl => do
    if !(← exists? path) then
      m.cloneRepository host path cloneUrl
      pure true
    else if !(← isDir path) then
      let shown := showPath path
      throw (.hook s!"Shared workspace path exists and is not a directory: {shown}")
    else if !(← exists? (path ++ [".git"])) then
      m.initRepository host path cloneUrl
      pure true
    else pure false

/-- Check out the base branch the integration branch is cut from. -/
def checkoutIntegrationBase (base : String) : WsM Unit := do
  if ← gitTry host ["checkout", base] path then pure ()
  else if ← branchFromOrigin host path base then pure ()
  else
    let _ ← runProcess host (.git ["checkout", base]) path
    pure ()

def checkoutIntegrationBranch : WsM Unit := do
  let branch := m.config.integration
  let base := m.config.base
  if !(← exists? (path ++ [".git"])) then pure ()
  else if branch = "" then pure ()
  else if ← gitTry host ["checkout", branch] path then pure ()
  else if ← branchFromOrigin host path branch then pure ()
  else
    (checkoutIntegrationBase host path base).when (base ≠ "")
    if base ≠ "" ∧ branch = base then pure ()
    else
      let _ ← runProcess host (.git ["checkout", "-b", branch]) path
      pure ()

def ensureCleanWorkspace (reason : String) : WsM Unit := do
  if ← exists? (path ++ [".git"]) then
    let output ← runProcess host (.git ["status", "--porcelain"]) path
    if Text.strip output = "" then pure () else throw (.hook reason)
  else pure ()

def sequentialLockPath : Path := m.root ++ [".orchestratord_workspace.lock"]

def lockContent (host : Host) (issue : Issue) : String :=
  let issueId := issue.id.getD ""
  let identifier := issue.name
  let pid := host.pid
  let stamp := host.now
  s!"pid={pid}\nissue_id={issueId}\nissue_identifier={identifier}\ntimestamp={stamp}\n"

/-- The first `pid=` line that names something decides. -/
def lockPidAlive (host : Host) (content : String) : Bool :=
  let pids := ((Text.splitLines content).filter (Text.startsWith · "pid=")).map fun line =>
    Text.strip (String.ofList (line.toList.drop 4))
  match (pids.filter (· ≠ "")).head? with
  | none => false
  | some pid => (pid.toInt?).any host.canSignal

/-- Remove the lock of a dead process; the lock of a live one is an error. -/
def breakStaleLock (host : Host) (lock : Path) : WsM Unit := do
  let content ← os (.readText lock)
  let shown := showPath lock
  if lockPidAlive host content then
    throw (.hook s!"Sequential workspace lock already held by live process: {shown}")
  else os (.unlink lock)

variable (issue : Issue)

def acquireSequentialLock : WsM Unit := do
  if !m.config.sequentialLock then pure ()
  else
    let lock := m.sequentialLockPath
    os (.mkdirParents lock.dropLast)
    (breakStaleLock host lock).when (← exists? lock)
    os (.writeText lock (lockContent host issue))

/-- Remove the lock file; a missing one is accepted. -/
def releaseSequentialLock : WsM Unit := do
  if !m.config.sequentialLock then pure ()
  else if ← exists? m.sequentialLockPath then os (.unlink m.sequentialLockPath)
  else pure ()

def prepareSequentialWorkspace : WsM Unit := do
  m.checkoutIntegrationBranch host path
  (ensureCleanWorkspace host path
    "sequential workspace must be clean before starting an issue").when m.config.requireCleanStart
  m.acquireSequentialLock host issue

/-! ## The two entry points -/

/-- Add the missing patterns to the repository's local exclude file. -/
def excludeOrchestratorFiles : WsM Unit := do
  let exclude := path ++ [".git", "info", "exclude"]
  if ← exists? exclude then
    let existing ← os (.readText exclude)
    let known := (Text.splitLines existing).map Text.strip
    let patterns := m.config.gitignorePatterns.filter fun p => !known.contains p
    let suffix := if Text.endsWith existing "\n" || existing = "" then "" else "\n"
    let lines := "\n".intercalate patterns
    if patterns = [] then pure ()
    else os (.writeText exclude s!"{existing}{suffix}# Orchestratord managed\n{lines}\n")
  else pure ()

/-- A failed preparation gives the lock back, whoever holds it. -/
def abortSequential (e : WorkspaceError) : WsM Unit := do
  m.releaseSequentialLock
  throw e

/-- Bring the directory of the chosen strategy into shape; tells whether it is new. -/
def prepare : WsM Bool :=
  match m.config.strategy with
  | .isolated => m.prepareWorkspace host path issue
  | .shared => m.prepareSharedWorkspace host path
  | .sequential => do
    let created ← m.prepareSharedWorkspace host path
    tryCatch (m.prepareSequentialWorkspace host path issue) m.abortSequential
    pure created

def createForIssue : WsM Workspace := do
  let path := m.workspacePath issue
  let created ← m.prepare host path issue
  (runGivenHook host m.config m.config.hooks.afterCreate path "after_create" false).when created
  m.excludeOrchestratorFiles path
  pure { path, issueIdentifier := safeIdentifier issue.name, issueId := issue.id }

/-- The texts a preserved workspace is given: the verify script when there are commands
to verify with, the readme and the manifest. -/
structure Preservation where
  verify : Option String
  readme : String
  manifest : String

def controlDir : Path := path ++ [".orchestrator_workspace"]

/-- Write one generated file; its failure is only logged. -/
def generate (name content : String) : WsM Unit :=
  .ignoreErrors (do
    FsM.mkdirExistOk (controlDir path)
    FsM.writeText (controlDir path ++ [name]) content)

def writePreservationManifest (manifest : String) : WsM Unit := do
  os (.mkdirExistOk (controlDir path))
  .ignoreErrors (FsM.writeText (controlDir path ++ [".workspace_preserved.json"]) manifest)

def preserve (texts : Preservation) : WsM Unit := do
  (generate path "verify.sh" (texts.verify.getD "")).when texts.verify.isSome
  generate path "README.md" texts.readme
  writePreservationManifest path texts.manifest

variable (endStatus endReason : Option String) (texts : Preservation)

/-- Keep an isolated workspace or remove it. A failed removal is only logged. -/
def retire : WsM Unit := do
  runGivenHook host m.config m.config.hooks.beforeRemove path "before_remove" true
  if m.config.strategy = .isolated then
    if m.config.shouldPreserve endStatus endReason then preserve path texts
    else .ignoreErrors (FsM.rmtree path)
  else pure ()

def cleanup : WsM Unit := do
  let path := m.workspacePath issue
  (m.retire host path endStatus endReason texts).when (← exists? path)
  m.releaseSequentialLock.when (m.config.strategy = .sequential)

end WorkspaceManager

end Orchestratord.Workspaces
