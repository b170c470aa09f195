import Orchestratord.Sync.Repository
import Orchestratord.Workspaces.Manager

/-! # Gates

The commands a sync runs before it pushes. They run in the working tree and may change it;
which result a command has on which tree is up to the outside. -/

namespace Orchestratord.Sync

open Foundation

inductive Gate where
  | preCommit
  | test
  | build
  | lint
  /-- The fallback test run of the regression guard. -/
  | guard
  | repro
  | prePush
  | postSync
  deriving DecidableEq, Repr

/-- The commands whose failure is never to be waved through. -/
def Gate.isCommand : Gate → Bool
  | .test | .build | .lint | .repro => true
  | _ => false

/-- The local writes of git, each of which may fail. -/
inductive GitStep where
  | configure
  | addAll
  | unstage
  | whitelist
  | commit
  | metadata
  | hookAdd
  | hookAmend
  | rollback
  deriving DecidableEq, Repr

structure GitOutput where
  rc : Int := 0
  stdout : String := ""
  stderr : String := ""
  deriving DecidableEq, Repr

/-- No exit code stands for a timeout. -/
structure ShellRun where
  rc : Option Int
  output : String
  tree : Tree

/-- The outside of one sync. -/
structure Env where
  shell : Gate → Tree → ShellRun
  /-- What git has to say about a write that fails. -/
  gitFails : GitStep → Option String := fun _ => none
  /-- The fallback test command that is configured or detected. -/
  fallbackTestCommand : String := ""
  /-- The fallback test run at the start commit, if there is one. -/
  baseline : Option (Int × String) := none
  push : GitOutput := {}
  fetch : GitOutput := {}
  rebase : GitOutput := {}
  retryPush : GitOutput := {}
  forcePush : GitOutput := {}
  /-- The branch and the working tree that a rebase leaves. -/
  rebased : List Commit := []
  rebasedWork : Tree := .empty
  conflicts : List String := []
  /-- The pull request of the tracker, if it has or makes one. -/
  ensuredPullRequest : Option String := none

structure Config where
  localTracker : Bool := false
  testCommand : String := ""
  buildCommand : String := ""
  lintCommand : String := ""
  preCommit : String := ""
  prePush : String := ""
  postSync : String := ""
  verificationTimeoutMs : Nat := 600000
  hooksTimeoutMs : Nat := 60000
  regressionGuard : Bool := true
  reviewRequired : Bool := false
  allowedChangedFiles : List String := []
  /-- Whether a path matches a pattern of the shell. -/
  fnmatch : String → String → Bool := fun path pattern => path = pattern

structure Session where
  strategy : Workspaces.Strategy := .isolated
  branchName : String := "work"
  baseBranch : String := "main"
  startCommitSha : Option Nat := none
  pullRequest : Option String := none
  feedbackIds : List String := []
  feedbackCommitBody : String := ""
  commitMessage : String := ""
  reproCommand : String := ""

/-- The command of a gate, empty if there is none. -/
def command (cfg : Config) (session : Session) (env : Env) : Gate → String
  | .preCommit => cfg.preCommit
  | .test => cfg.testCommand
  | .build => cfg.buildCommand
  | .lint => cfg.lintCommand
  | .guard => env.fallbackTestCommand
  | .repro => session.reproCommand
  | .prePush => cfg.prePush
  | .postSync => cfg.postSync

def timeoutMs (cfg : Config) : Gate → Nat
  | .preCommit | .prePush | .postSync => cfg.hooksTimeoutMs
  | _ => cfg.verificationTimeoutMs

inductive VerificationStatus where
  | passed
  | passedPreexistingFailures
  | skippedNoTests
  deriving DecidableEq, Repr

/-- A run of a gate: the tree it started on and what came of it. -/
structure Run where
  gate : Gate
  tree : Tree
  rc : Option Int
  output : String
  deriving DecidableEq

structure Repo where
  work : Tree
  index : Tree
  /-- The work branch, its newest commit first. -/
  history : List Commit
  nextSha : Nat
  log : List Run := []
  /-- The trees that were pushed to the work branch. -/
  pushes : List Tree := []
  verificationStatus : Option VerificationStatus := none

namespace Repo

variable (s : Repo)

def headTree : Tree := (s.history.head?.map (·.tree)).getD .empty

def headSha : Option Nat := s.history.head?.map (·.sha)

/-- `git status` has something to report. -/
def dirty : Bool := s.work ≠ s.headTree || s.index ≠ s.headTree

/-- The paths that `git status` reports. -/
def statusSnapshot : Finset String := s.work.changed s.index ∪ s.index.changed s.headTree

def commit (message : String) : Repo :=
  { s with
    history := { sha := s.nextSha, tree := s.index, message } :: s.history
    nextSha := s.nextSha + 1 }

def amend (message : String) : Repo :=
  { s with
    history := { sha := s.nextSha, tree := s.index, message } :: s.history.tail
    nextSha := s.nextSha + 1 }

def headMessage : String := (s.history.head?.map (·.message)).getD ""

end Repo

inductive SyncError where
  | verificationFailed (message output : String)
  | hookFailed (hook message output : String)
  | git (message : String)
  /-- A gate failed after a commit existed. -/
  | postCommit (message : String) (committed : Bool)
  deriving DecidableEq, Repr

abbrev SyncM := Eff SyncError Repo

/-! ## Running a command -/

def envFailureMarkers : List String :=
  ["command not found", "ModuleNotFoundError", "ImportError", "No such file or directory",
    "is not installed", "Executable "]

/-- The output says that a tool is missing. -/
def environmentGap (output : String) : Bool := envFailureMarkers.any (Text.contains output)

section

variable (cfg : Config) (session : Session) (env : Env) (gate : Gate)

def runShellResult : SyncM (Int × String) := do
  let s ← get
  let run := env.shell gate s.work
  set ({ s with
    work := run.tree
    log := s.log ++ [{ gate, tree := s.work, rc := run.rc, output := run.output }] } : Repo)
  match run.rc with
  | some rc => pure (rc, run.output)
  | none => throw (.verificationFailed ("command timed out after " ++
      toString (timeoutMs cfg gate) ++ "ms: " ++ command cfg session env gate) "")

/-- A failure that looks like a missing tool is passed over. -/
def runShell : SyncM String := do
  let (rc, output) ← runShellResult cfg session env gate
  if rc = 0 ∨ environmentGap output then pure output
  else throw (.verificationFailed ("command failed with exit code " ++ toString rc ++ ": " ++
    command cfg session env gate) output)

def gitChecked (step : GitStep) (f : Repo → Repo) : SyncM Unit :=
  match env.gitFails step with
  | some message => throw (.git message)
  | none => modify f

/-! ## The hook before the commit -/

/-- What the hook changes goes into the commit, with everything else that is not there yet. -/
def amendHookChanges : SyncM Unit := do
  let s ← get
  if s.dirty ∧ session.strategy ≠ .sequential then do
    gitChecked env .hookAdd fun s => { s with index := s.work }
    gitChecked env .hookAmend fun s => s.amend s.headMessage

def runPreCommitHook : SyncM Unit := do
  if cfg.preCommit ≠ "" then
    let _ ← runShell cfg session env .preCommit
    amendHookChanges session env

/-! ## The regression guard -/

/-- The failing test a line of the summary names, with the length of what is read. -/
def failureAt (line : List Char) : Option (String × Nat) :=
  ["FAILED", "ERROR"].findSome? fun word =>
    if word.toList.isPrefixOf line then
      let rest := line.drop word.length
      let spaces := rest.takeWhile Text.isSpace
      let name := (rest.drop spaces.length).takeWhile (! Text.isSpace ·)
      if spaces = [] ∨ name = [] then none
      else some (String.ofList name, word.length + spaces.length + name.length)
    else none

/-- All failing tests; the number counts characters that were read already. -/
def failuresFrom : Nat → Bool → List Char → List String
  | _, _, [] => []
  | skip + 1, _, c :: cs => failuresFrom skip (c = '\n') cs
  | 0, lineStart, c :: cs =>
    match if lineStart then failureAt (c :: cs) else none with
    | some (name, length) => name :: failuresFrom (length - 1) (c = '\n') cs
    | none => failuresFrom 0 (c = '\n') cs

def pytestFailures (output : String) : List String := failuresFrom 0 true output.toList

example : pytestFailures "..F\nFAILED tests/a.py::b - assert\nERROR  c.py\nnot FAILED d" =
    ["tests/a.py::b", "c.py"] := by decide +kernel

def looksLikeMissingRunner (rc : Int) (output : String) : Bool :=
  rc = 5 || rc = 127 || Text.contains (Text.lower output) "no module named pytest" ||
    Text.contains (Text.lower output) "not recognized as"

/-- The tests that fail at the start commit. -/
def baselineFailures : Option (List String) :=
  match session.startCommitSha, env.baseline with
  | some _, some (rc, output) => some (if rc = 0 then [] else pytestFailures output)
  | _, _ => none

def runRegressionGuard : SyncM VerificationStatus := do
  if env.fallbackTestCommand = "" then pure .skippedNoTests
  else
    let (rc, output) ← runShellResult cfg session env .guard
    if rc = 0 then pure .passed
    else if looksLikeMissingRunner rc output then pure .skippedNoTests
    else match baselineFailures session env, pytestFailures output with
      | some baseline, failures@(_ :: _) =>
        let netNew := (failures.filter (· ∉ baseline)).dedup
        if netNew = [] then pure .passedPreexistingFailures
        else throw (.verificationFailed ("regression guard: " ++ toString netNew.length ++
          " net-new failing test(s) introduced by this change") output)
      | _, _ => throw (.verificationFailed ("regression guard: test suite failed (rc=" ++
          toString rc ++ ") and no baseline was available for comparison") output)

/-! ## Verification before the push -/

/-- One of the configured commands, with its failure under the command's name. -/
def runCheck (label : String) (gate : Gate) : SyncM Unit := do
  if command cfg session env gate ≠ "" then
    let _ ← (runShell cfg session env gate).mapError fun
      | .verificationFailed _ output => .verificationFailed (label ++ " verification failed") output
      | e => e

def runGuard : SyncM VerificationStatus :=
  if cfg.testCommand = "" ∧ cfg.regressionGuard then runRegressionGuard cfg session env
  else pure .passed

/-- A green reproduction verifies the bug when there are no tests. -/
def runRepro (status : VerificationStatus) : SyncM VerificationStatus := do
  if session.reproCommand = "" then pure status
  else
    let _ ← (runShell cfg session env .repro).mapError fun
      | .verificationFailed _ output => .verificationFailed
          ("repro verification failed: the reproduction command " ++
            "still exits non-zero after the fix") output
      | e => e
    pure (if status = .skippedNoTests then .passed else status)

/-- A hook that must leave the paths that git reports as they are. -/
def runGuardedHook (name : String) (gate : Gate) : SyncM Unit := do
  if command cfg session env gate ≠ "" then
    let before ← get
    let output ← (runShell cfg session env gate).mapError fun
      | .verificationFailed _ output => .hookFailed name (name ++ " hook failed") output
      | e => e
    let after ← get
    if after.statusSnapshot ≠ before.statusSnapshot then
      throw (.hookFailed name (name ++ " hook modified the workspace") output)

def runPrePushVerification : SyncM Unit := do
  runCheck cfg session env "test" .test
  runCheck cfg session env "build" .build
  runCheck cfg session env "lint" .lint
  let status ← runGuard cfg session env
  let status ← runRepro cfg session env status
  runGuardedHook cfg session env "pre_push" .prePush
  modify fun s => { s with verificationStatus := some status }

end

end Orchestratord.Sync
