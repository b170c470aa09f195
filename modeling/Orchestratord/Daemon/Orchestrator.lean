import Orchestratord.Daemon.Registry
import Orchestratord.Foundation.Runs

/-! # The orchestrator daemon

One event loop runs the daemon's poll cycle, one task for each session, and the handlers
of operator commands. A step of the model is what runs between two awaits; the outside
world (trackers, workspaces, agents, the clock) answers the awaited call, and its answer is
the step's input. `Phase` is where the poll cycle waits. -/

namespace Orchestratord.Daemon

open Foundation

structure Config where
  /-- Zero switches the limit off. -/
  maxRetryAttempts : Nat := 5
  maxRetryBackoffMs : Nat := 300000
  maxTurnsRetryDelayMs : Nat := 30000
  rateLimitMaxBackoffMs : Nat := 600000
  maxConcurrentAgents : Nat := 10
  /-- The state journal could be opened at startup. -/
  journal : Bool := true

/-! ## Sessions -/

inductive RunKind where
  | issue
  | reviewFollowup
  | agentRebase
  deriving DecidableEq, Repr

inductive EndReason where
  | operatorStop
  | operatorTakeover
  | operatorStopped
  | other (text : String)
  deriving DecidableEq, Repr

/-- End reasons the retry loop must not revive. -/
def EndReason.nonRetryable : EndReason → Bool
  | .operatorStop | .operatorTakeover | .operatorStopped => true
  | .other _ => false

inductive RunStatus where
  | completed
  | pendingReview
  | verificationFailed
  | agentTimeout
  | maxTurnsExceeded
  | rateLimitCircuitOpen
  | stagnation
  | loopDetected
  | cancelled
  | failed
  | beforeRunFailed
  deriving DecidableEq, Repr

abbrev TaskId := Nat

/-- A session whose run has not ended. `cancelled` says that its task was cancelled and the
cancellation has yet to be thrown into it. -/
structure Session where
  task : TaskId
  issueId : IssueId
  runKind : RunKind
  cancelled : Bool := false
  deriving DecidableEq, Repr

/-! ## The daemon's state -/

/-- Who launches an issue. A retry carries the queue processing it interrupts. -/
inductive Source where
  | retry (now : Nat) (item : RetryItem) (rest : List RetryItem)
  | poll (cli : Bool)
  | feedback
  deriving DecidableEq, Repr

/-- The call a launch waits for. -/
inductive Stage where
  /-- Labels, comment command and CLI intent of a polled candidate. -/
  | resolve
  /-- Dependencies and clarification gate of a polled candidate. -/
  | admission
  | dependencies
  | closePullRequest
  /-- Workspace creation and its current head. -/
  | workspace
  | refresh
  | findPullRequest
  | reviewFeedback
  | followupWorkspace
  deriving DecidableEq, Repr

inductive Phase where
  | idle
  | fetching (now : Nat) (item : RetryItem) (rest : List RetryItem)
  | launching (source : Source) (id : IssueId) (stage : Stage)
  deriving DecidableEq, Repr

/-- A review follow-up an operator asked for, run beside the poll cycle. -/
inductive FollowupStage where
  | feedback
  | workspace
  deriving DecidableEq, Repr

/-- What the daemon reports about retries. -/
inductive Event where
  | retryScheduled (id : IssueId) (attempt : Nat)
  | staleRecovered (id : IssueId)
  | retryLaunched (id : IssueId)
  deriving DecidableEq, Repr

structure Orchestrator where
  /-- The only part that survives the process, with the log. -/
  registry : Registry
  running : Dict IssueId TaskId := .empty
  sessions : List Session := []
  issueTasks : Dict IssueId TaskId := .empty
  /-- Issues of session tasks whose result is interpreted but which still clean up. -/
  finishing : List IssueId := []
  completed : Finset IssueId := ∅
  pendingReview : Finset IssueId := ∅
  claimed : Finset IssueId := ∅
  retryQueue : List RetryItem := []
  retryAttempts : IssueId → Nat := fun _ => 0
  phase : Phase := .idle
  followups : List (IssueId × FollowupStage) := []
  nextTask : TaskId := 0
  log : List Event := []

namespace Orchestrator

variable (cfg : Config) (d : Orchestrator) (id : IssueId)

def isRunning : Bool := (d.running.get id).isSome

/-! ## Scheduling a retry -/

variable (now : Nat)

def scheduleRetry (id : IssueId) (reason : Option EndReason) (baseMs : Nat) : Orchestrator :=
  if reason.any (·.nonRetryable) then { d with claimed := d.claimed.erase id }
  else
    let attempt := d.retryAttempts id + 1
    let retryAttempts := Function.update d.retryAttempts id attempt
    if cfg.maxRetryAttempts ≠ 0 ∧ cfg.maxRetryAttempts < attempt then
      { d with
        retryAttempts
        claimed := d.claimed.erase id
        registry := d.registry.mark id .abandoned }
    else
      let delay := computeRetryDelay attempt baseMs cfg.maxRetryBackoffMs
      { d with
        retryAttempts
        retryQueue := d.retryQueue ++ [{ dedupKey := id, attempt, delay, scheduledAt := now }]
        registry := d.registry.persistRetryPlan id attempt (now + delay)
        log := d.log ++ [.retryScheduled id attempt] }

/-! ## The end of a session -/

/-- The record's status after a run, and the base delay if the run may be retried. A run
held for review is left as it is. -/
def verdict : RunStatus → Option (IssueStatus × Option Nat)
  | .completed => some (.completed, none)
  | .pendingReview => none
  | .verificationFailed => some (.verificationFailed, some failureRetryBaseMs)
  | .agentTimeout => some (.failed, some failureRetryBaseMs)
  | .maxTurnsExceeded => some (.failed, some cfg.maxTurnsRetryDelayMs)
  | .rateLimitCircuitOpen => some (.failed, some cfg.rateLimitMaxBackoffMs)
  | .stagnation | .loopDetected | .cancelled => some (.failed, none)
  | .failed | .beforeRunFailed => some (.failed, some failureRetryBaseMs)

def interpret (id : IssueId) (status : RunStatus) (reason : Option EndReason) : Orchestrator :=
  if id ∈ d.pendingReview then d
  else match verdict cfg status with
    | none => d
    | some (mark, base) =>
      let d := { d with
        registry := d.registry.mark id mark
        completed := if status = .completed then insert id d.completed else d.completed }
      match base with
      | none => d
      | some baseMs => d.scheduleRetry cfg now id reason baseMs

/-- A run that ends with a review gate. -/
def holdForReview : Orchestrator :=
  { d with
    registry := d.registry.mark id .pendingReview
    pendingReview := insert id d.pendingReview }

/-- Drop a session from the running map and from the live tasks. -/
def dropSession (s : Session) : Orchestrator :=
  { d with
    sessions := d.sessions.erase s
    running := d.running.erase s.issueId }

/-- The tail of `run_issue_body`. The result is interpreted only inside the block that
writes the state journal. -/
def finishRun (id : IssueId) (status : RunStatus) (reason : Option EndReason) : Orchestrator :=
  let d := { d with finishing := d.finishing ++ [id] }
  let d := if status = .pendingReview then d.holdForReview id else d
  if cfg.journal then d.interpret cfg now id status reason else d

variable (task : TaskId)

/-- A session's run ends. A cancelled one ends with the cancellation, whatever it was
about to return; a rebase run is dropped without an interpretation. -/
def sessionEnds (status : RunStatus) (reason : Option EndReason) : Orchestrator :=
  match d.sessions.find? (·.task = task) with
  | none => d
  | some s =>
    let d := d.dropSession s
    if s.runKind = .agentRebase then d
    else if s.cancelled then d.finishRun cfg now s.issueId .cancelled (some .operatorStopped)
    else d.finishRun cfg now s.issueId status reason

/-- The end of the session's task, with its done callback. -/
def settle : Orchestrator :=
  if id ∈ d.finishing then
    { d with
      finishing := d.finishing.erase id
      claimed := d.claimed.erase id
      issueTasks := d.issueTasks.erase id }
  else d

/-- The git sync of a running session is recorded. -/
def synced (prNumber : Option Nat) : Orchestrator :=
  match d.sessions.find? (·.task = task) with
  | none => d
  | some s => { d with registry := d.registry.markSynced s.issueId prNumber }

/-! ## The start of a session -/

/-- A rebase run is neither marked in the registry nor registered as the issue's task. -/
def startSession (runKind : RunKind) : Orchestrator :=
  { d with
    nextTask := d.nextTask + 1
    sessions := d.sessions ++ [{ task := d.nextTask, issueId := id, runKind }]
    running := d.running.set id d.nextTask
    registry := if runKind = .agentRebase then d.registry else d.registry.mark id .running
    issueTasks := if runKind = .agentRebase then d.issueTasks else d.issueTasks.set id d.nextTask }

/-! ## Processing the retry queue -/

/-- Go through the ready items up to the first one whose issue is to be fetched. Items of
running or completed issues are dropped, the others wait if there is no free slot. -/
def processReady (d : Orchestrator) (now : Nat) : List RetryItem → Orchestrator
  | [] => { d with phase := .idle }
  | item :: rest =>
    if d.isRunning item.dedupKey ∨ item.dedupKey ∈ d.completed then d.processReady now rest
    else if cfg.maxConcurrentAgents ≤ d.running.size then
      { d with retryQueue := d.retryQueue ++ [item] }.processReady now rest
    else { d with phase := .fetching now item rest }

def processRetryQueue : Orchestrator :=
  let (ready, notReady) := splitReadyRetries d.retryQueue now
  { d with retryQueue := notReady }.processReady cfg now ready

def retryRequeueLimit : Nat := max 1 (if cfg.maxRetryAttempts = 0 then 5 else cfg.maxRetryAttempts)

variable (item : RetryItem)

/-- Put an item back with a longer delay, or give it up with its plan. -/
def requeueRetry : Orchestrator :=
  match requeueRetryItem item now (retryRequeueLimit cfg) cfg.maxRetryBackoffMs with
  | none => { d with registry := d.registry.clearRetryPlan item.dedupKey }
  | some item => { d with retryQueue := d.retryQueue ++ [item] }

/-- What the tracker says about a queued issue. -/
inductive Fetched where
  | missing
  | error
  | inactive
  | active
  deriving DecidableEq, Repr

variable (rest : List RetryItem)

def issueFetched : Fetched → Orchestrator
  | .missing | .error => (d.requeueRetry cfg now item).processReady cfg now rest
  | .inactive =>
    { d with registry := d.registry.clearRetryPlan item.dedupKey }.processReady cfg now rest
  | .active => { d with
      claimed := insert item.dedupKey d.claimed
      phase := .launching (.retry now item rest) item.dedupKey .dependencies }

/-! ## Launching -/

/-- The queue's launch returns. The running map tells a launch from one that was gated,
whose item goes back to the queue. -/
def retryReturned : Orchestrator :=
  if d.isRunning id then
    let d := { d with
      registry := d.registry.clearRetryPlan item.dedupKey
      log := d.log ++ [Event.retryLaunched item.dedupKey] }
    d.processReady cfg now rest
  else
    let d := { d with retryQueue := d.retryQueue ++ [item] }
    d.processReady cfg now rest

/-- The poll's launch returns. An intent of the CLI is used up by a launch. -/
def pollReturned (cli : Bool) : Orchestrator :=
  { d with
    registry := if cli ∧ d.isRunning id then d.registry.clearIntent id else d.registry
    phase := .idle }

/-- What the launcher does when `_launch_issue` returns. -/
def launchReturned : Source → Orchestrator
  | .retry now item rest => d.retryReturned cfg id now item rest
  | .poll cli => d.pollReturned id cli
  | .feedback => { d with phase := .idle }

variable (source : Source) (id : IssueId)

/-- A launch that is given up releases its claim. -/
def gated : Orchestrator :=
  { d with claimed := d.claimed.erase id }.launchReturned cfg id source

/-- The issue turns out to be handled already. -/
def alreadyHandled : Orchestrator :=
  { d with completed := insert id d.completed }.gated cfg source id

def waitFor (stage : Stage) : Orchestrator :=
  { d with phase := .launching source id stage }

/-- A follow-up on command handles review feedback instead of running the issue again. -/
def usesReviewFeedbackFollowup : Bool :=
  (d.registry.get id).any fun rec => rec.intent = .followup ∧ rec.intentSource ≠ some .chat

variable (id : IssueId)

/-- Collect the feedback on the issue's pull request, if it has one. -/
def collectFeedback : Orchestrator :=
  if d.registry.hasPr id then d.waitFor source id .reviewFeedback
  else d.launchReturned cfg id source

/-- All checks are passed: hand over to the review follow-up, or start the session. -/
def enter : Orchestrator :=
  if d.usesReviewFeedbackFollowup id then d.collectFeedback cfg source id
  else (d.startSession id .issue).launchReturned cfg id source

/-- The guard against issues that are handled according to the registry. -/
def registryGuard : Orchestrator :=
  if (d.registry.hasPr id ∨ d.registry.isTerminal id) ∧ ¬ d.registry.intentIs id (·.reopens) then
    d.alreadyHandled cfg source id
  else d.enter cfg source id

/-- The tracker's view of the issue just before the run. -/
inductive Refreshed where
  | missing
  | inactive
  | error
  | active (branch : Bool)
  deriving DecidableEq, Repr

/-- The answer to the call a launch waits for. -/
inductive Reply where
  | fetched (answer : Fetched)
  /-- `allowed` is the rate limit's answer for the intents that have one. -/
  | resolved (intent : Intent) (origin : IntentSource) (allowed unblock : Bool)
  | admitted (ok : Bool)
  | dependencies (satisfied : Bool)
  | pullRequestClosed
  | workspace (created : Bool)
  | refreshed (answer : Refreshed)
  /-- Whether a pull request exists; `none` if the lookup failed. -/
  | pullRequest (found : Option Bool)
  | reviewFeedback (pending : Bool)
  | followupWorkspace (created : Bool)
  deriving DecidableEq, Repr

variable (intent : Intent)
variable (origin : IntentSource)

/-- The poll acts on a candidate's intent. -/
def actOnIntent (allowed : Bool) : Orchestrator :=
  let marked := { d with registry := d.registry.markIntent id intent origin }
  let cli : Bool := origin = .cli
  match intent with
  | .blocked => { marked with
      registry := marked.registry.mark id .abandoned
      completed := insert id d.completed
      phase := .idle }
  | .rebase => { marked with
      registry := if allowed ∧ cli then marked.registry.clearIntent id else marked.registry
      phase := .idle }
  | .retry => marked.waitFor (.poll cli) id .admission
  | .followup =>
    if marked.usesReviewFeedbackFollowup id then marked.collectFeedback cfg (.poll false) id
    else marked.waitFor (.poll cli) id .admission
  | .none =>
    if d.registry.isTerminal id ∨ d.registry.hasPr id then { d with phase := .idle }
    else d.waitFor (.poll cli) id .admission

/-- The checks before that, and the `unblock` command. -/
def dispatchCandidate (allowed unblock : Bool) : Orchestrator :=
  if (id ∈ d.completed ∨ id ∈ d.pendingReview) ∧ ¬ intent.reopens then { d with phase := .idle }
  else if intent = .retry ∧ ¬ allowed then { d with phase := .idle }
  else if unblock then
    { d with registry := d.registry.unblock id }.actOnIntent cfg id intent origin allowed
  else d.actOnIntent cfg id intent origin allowed

/-- A retry intent resets the record, after its pull request is closed. -/
def prepareIntentReset (id : IssueId) : Orchestrator :=
  if d.registry.intentIs id (· = .retry) then
    if d.registry.hasPr id then d.waitFor source id .closePullRequest
    else { d with registry := d.registry.resetForRetry id }.waitFor source id .workspace
  else d.waitFor source id .workspace

/-- Continue a launch with the answer it waited for. -/
def launchStep (id : IssueId) : Stage → Reply → Orchestrator
  | .resolve, .resolved intent origin allowed unblock =>
    d.dispatchCandidate cfg id intent origin allowed unblock
  | .admission, .admitted ok =>
    if ok then { d with claimed := insert id d.claimed }.waitFor source id .dependencies
    else { d with phase := .idle }
  | .dependencies, .dependencies satisfied =>
    if satisfied then d.prepareIntentReset source id else d.gated cfg source id
  | .closePullRequest, .pullRequestClosed =>
    { d with registry := d.registry.resetForRetry id }.waitFor source id .workspace
  | .workspace, .workspace created =>
    if created then { d with registry := d.registry.register id }.waitFor source id .refresh
    else d.gated cfg source id
  | .refresh, .refreshed answer =>
    match answer with
    | .missing | .inactive => d.gated cfg source id
    | .error => d.enter cfg source id
    | .active branch =>
      if branch then d.waitFor source id .findPullRequest else d.registryGuard cfg source id
  | .findPullRequest, .pullRequest found =>
    match found with
    | none => d.enter cfg source id
    | some found =>
      if found ∧ ¬ d.registry.intentIs id (·.reopens) then d.alreadyHandled cfg source id
      else d.registryGuard cfg source id
  | .reviewFeedback, .reviewFeedback pending =>
    if pending then d.waitFor source id .followupWorkspace else d.launchReturned cfg id source
  | .followupWorkspace, .followupWorkspace created =>
    if created then (d.startSession id .reviewFollowup).launchReturned cfg id source
    else d.gated cfg source id
  | _, _ => d

/-- The poll cycle goes on when its awaited call answers. -/
def resume (reply : Reply) : Orchestrator :=
  match d.phase, reply with
  | .fetching now item rest, .fetched answer => d.issueFetched cfg now item rest answer
  | .launching source id stage, reply => d.launchStep cfg source id stage reply
  | _, _ => d

/-! ## The poll cycle's own starts -/

/-- Unknown candidates are registered before any is looked at. -/
def preRegister : Orchestrator :=
  if (d.registry.get id).isNone then { d with registry := d.registry.register id .queued } else d

def consider : Orchestrator :=
  if d.isRunning id ∨ id ∈ d.claimed then d else d.waitFor (.poll false) id .resolve

/-- The poll looks at a candidate. -/
def candidate : Orchestrator := (d.preRegister id).consider id

/-- New review feedback starts a follow-up on its own. -/
def feedbackFound : Orchestrator :=
  if d.isRunning id ∨ id ∈ d.claimed ∨ ¬ d.registry.hasPr id then d
  else { d with claimed := insert id d.claimed }.waitFor .feedback id .followupWorkspace

/-- A record with a rebase conflict gets a run of its own. -/
def rebaseConflict : Orchestrator :=
  if d.isRunning id ∨ id ∈ d.claimed ∨ (d.registry.get id).isNone then d
  else d.startSession id .agentRebase

/-- The clarification of an issue is exhausted; the policy decides on the status. -/
def escalated (abandon : Bool) : Orchestrator :=
  if id ∈ d.completed ∨ id ∈ d.claimed then d
  else { d with
    registry := d.registry.mark id (if abandon then .abandoned else .failed)
    completed := insert id d.completed }

/-! ## Operator commands -/

inductive Command where
  | stop
  | takeover
  | pause
  | resume
  /-- `resetCount` tells the control file from the message of a chat gateway. -/
  | retry (resetCount : Bool)
  | followup
  | reviewRetry
  | reviewApprove
  | reviewFollowup
  deriving DecidableEq, Repr

/-- Forget the retries of an issue that wait in the queue. -/
def dropQueued : Orchestrator :=
  { d with retryQueue := d.retryQueue.filter (·.dedupKey ≠ id) }

/-- A retry of the issue waits in the queue or in its record. -/
def retryPending : Bool := d.retryQueue.any (·.dedupKey = id) || (d.registry.plan id).isSome

def cancelPendingRetry : Orchestrator :=
  let d := d.dropQueued id
  { d with registry := d.registry.clearRetryPlan id }

/-- Cancel the task registered for the issue, if there is one. -/
def cancelTask : Orchestrator :=
  match d.issueTasks.get id with
  | none => d
  | some task => { d with
      sessions := d.sessions.map fun s => if s.task = task then { s with cancelled := true } else s }

/-- `stop` and `takeover`. A pending retry is cancelled and the command is done; only
without one the running session is looked at. -/
def stopIssue : Orchestrator :=
  if d.retryPending id then
    let d := d.cancelPendingRetry id
    { d with claimed := d.claimed.erase id, retryAttempts := Function.update d.retryAttempts id 0 }
  else if d.isRunning id then d.cancelTask id
  else d

def isKnown : Bool :=
  (d.registry.get id).isSome || d.isRunning id || id ∈ d.pendingReview || id ∈ d.completed ||
    id ∈ d.claimed

/-- Make the issue eligible for the poll again. -/
def reopen (source : IntentSource) (resetCount : Bool) : Orchestrator :=
  let d := d.dropQueued id
  { d with
    completed := d.completed.erase id
    claimed := d.claimed.erase id
    pendingReview := d.pendingReview.erase id
    registry := d.registry.modify id fun rec => { rec with
      status := .pending
      intent
      intentSource := some source
      retryCount := if resetCount then 0 else rec.retryCount } }

def resetIssueForRetry (resetCount : Bool) : Orchestrator :=
  if d.isKnown id then
    let d := d.reopen id intent .cli resetCount
    { d with retryAttempts := Function.update d.retryAttempts id 0 }
  else d

/-- A follow-up for a running issue waits for the end of the run. -/
def followupControl : Orchestrator :=
  if d.isKnown id ∧ ¬ d.isRunning id then d.reopen id .followup .chat false else d

def reviewApprove : Orchestrator :=
  if (d.registry.get id).isNone then d
  else { d with
    registry := d.registry.mark id .completed
    pendingReview := d.pendingReview.erase id
    claimed := d.claimed.erase id
    completed := insert id d.completed }

def applyCommand (command : Command) : Orchestrator :=
  if id = "" then d
  else match command with
    | .stop | .takeover => d.stopIssue id
    | .pause => if d.isRunning id then { d with registry := d.registry.mark id .paused } else d
    | .resume => if d.isRunning id then { d with registry := d.registry.mark id .running } else d
    | .retry resetCount => d.resetIssueForRetry id .retry resetCount
    | .followup => d.followupControl id
    | .reviewRetry => d.resetIssueForRetry id .followup false
    | .reviewApprove => d.reviewApprove id
    | .reviewFollowup =>
      if (d.registry.get id).isNone ∨ d.isRunning id then d
      else { d with followups := d.followups ++ [(id, .feedback)] }

/-- A review follow-up on command goes on: its feedback is there, or its workspace. -/
def followupStep (stage : FollowupStage) (ok : Bool) : Orchestrator :=
  if (id, stage) ∈ d.followups then
    let d := { d with followups := d.followups.erase (id, stage) }
    match stage, ok with
    | .feedback, true => { d with
        claimed := insert id d.claimed
        followups := d.followups ++ [(id, .workspace)] }
    | .feedback, false => d
    | .workspace, true => d.startSession id .reviewFollowup
    | .workspace, false => { d with claimed := d.claimed.erase id }
  else d

/-! ## Startup and shutdown -/

variable (rec : IssueRecord)

/-- A record left running by a dead process gets a first retry. -/
def recoverStale : IssueRecord :=
  if rec.status = .running then { rec with
    status := .failed
    retryCount := 1
    nextRetryAt := some (now + computeRetryDelay 1 failureRetryBaseMs cfg.maxRetryBackoffMs) }
  else rec

/-- The attempt a persisted plan stands for: `retry_count or 1`. -/
def plannedAttempt : Nat := if rec.retryCount = 0 then 1 else rec.retryCount

def recoverItem (entry : IssueId × IssueRecord) : Option RetryItem :=
  entry.2.nextRetryAt.map fun due =>
    { dedupKey := entry.1
      attempt := plannedAttempt entry.2
      delay := due - now
      scheduledAt := now }

variable (r : Registry)

def idsWith (status : IssueStatus) : Finset IssueId :=
  ((r.entries.filter (·.2.status = status)).map Prod.fst).toFinset

/-- The issues whose run a dead process left behind. -/
def staleIds : List IssueId :=
  r.entries.filterMap fun e => if e.2.status = .running then some e.1 else none

/-- The state after startup on a registry, with the log so far. -/
def startup (registry : Registry) (log : List Event) : Orchestrator :=
  let recovered := registry.mapValues fun _ rec => recoverStale cfg now rec
  { registry := recovered
    completed := idsWith recovered .completed
    pendingReview := idsWith recovered .pendingReview
    retryQueue := recovered.entries.filterMap (recoverItem now)
    retryAttempts := fun id => match recovered.get id with
      | some rec => if rec.nextRetryAt.isSome then plannedAttempt rec else 0
      | none => 0
    log := log ++ (staleIds registry).map .staleRecovered }

/-- What the shutdown leaves in the registry: running issues are released. -/
def release : Registry :=
  (d.sessions.filter (·.runKind ≠ .agentRebase)).foldl
    (fun r s => .mark r s.issueId .pending) d.registry

/-! ## Steps -/

inductive Input where
  /-- The poll cycle turns to its retry queue. -/
  | retryTick (now : Nat)
  | candidate (id : IssueId)
  | feedbackFound (id : IssueId)
  | rebaseConflict (id : IssueId)
  | escalated (id : IssueId) (abandon : Bool)
  | reply (answer : Reply)
  | synced (task : TaskId) (prNumber : Option Nat)
  | sessionEnds (now : Nat) (task : TaskId) (status : RunStatus) (reason : Option EndReason)
  | settle (id : IssueId)
  | command (id : IssueId) (command : Command)
  | followupStep (id : IssueId) (stage : FollowupStage) (ok : Bool)
  /-- The process dies and a new one starts. -/
  | crash (now : Nat)
  /-- The process shuts down and a new one starts. -/
  | shutdown (now : Nat)
  deriving DecidableEq, Repr

/-- The poll cycle starts something new only when it waits for nothing. -/
def whenIdle (act : Orchestrator → Orchestrator) : Orchestrator :=
  if d.phase = .idle then act d else d

def step : Input → Orchestrator
  | .retryTick now => d.whenIdle (·.processRetryQueue cfg now)
  | .candidate id => d.whenIdle (·.candidate id)
  | .feedbackFound id => d.whenIdle (·.feedbackFound id)
  | .rebaseConflict id => d.whenIdle (·.rebaseConflict id)
  | .escalated id abandon => d.whenIdle (·.escalated id abandon)
  | .reply answer => d.resume cfg answer
  | .synced task prNumber => d.synced task prNumber
  | .sessionEnds now task status reason => d.sessionEnds cfg now task status reason
  | .settle id => d.settle id
  | .command id command => d.applyCommand id command
  | .followupStep id stage ok => d.followupStep id stage ok
  | .crash now => startup cfg now d.registry d.log
  | .shutdown now => startup cfg now d.release d.log

/-! ## Two stretches of a run -/

/-- The poll dispatches a fresh issue. -/
def dispatched : List Input :=
  [.candidate id, .reply (.resolved .none .label true false), .reply (.admitted true)]

/-- The launch of an issue passes all its checks. -/
def launched : List Input :=
  [.reply (.dependencies true), .reply (.workspace true), .reply (.refreshed (.active false))]

end Orchestrator

end Orchestratord.Daemon
