import Orchestratord.Commands.Host

/-! # The dispatch cycle with its slots and its exceptions

The daemon's cycle works through four loops: the retries that are due, new review feedback,
records with a rebase conflict, and the tracker's candidates. Every call to the outside is a
step of its own: while a loop waits, sessions end and background tasks start, and the call
answers or raises. What an exception does depends on where it is raised; one that no handler
catches ends the cycle and with it the daemon.

The retry queue is modelled with the daemon; here the items that are due come from outside. -/

namespace Orchestratord.Dispatch

open Foundation
open Daemon (IssueId IssueStatus Intent IntentSource Registry RunKind TaskId Session)
open Commands (Command commandToIntent mergeIntentsWithCli intentSource cliIntent)

structure Config where
  maxConcurrentAgents : Nat := 10
  /-- The workspace strategy is `sequential`. -/
  sequential : Bool := false
  maxRetriesPerIssue : Nat := 3
  maxRebaseAttemptsPerIssue : Nat := 3
  useForcePush : Bool := false
  /-- There is a clarification gate. -/
  clarifier : Bool := false
  failOpen : Bool := true
  /-- Review feedback is collected, … -/
  reviewFeedback : Bool := true
  /-- … and answered by a follow-up without an operator. -/
  auto : Bool := true

structure Issue where
  id : IssueId
  labels : List String := []
  dependsOn : List IssueId := []
  deriving DecidableEq, Repr

/-- A command found in the comments. -/
structure Found where
  command : Command
  /-- The role check of its author. -/
  eligible : Bool
  deriving DecidableEq, Repr

/-! ## Where the cycle waits -/

/-- The slots a loop has found free, those it has used, and what it has yet to look at. -/
structure Loop (α : Type) where
  availableSlots : Nat := 0
  launched : Nat := 0
  rest : List α := []
  deriving DecidableEq, Repr

/-- Who launches an issue. -/
inductive Caller where
  | retry (rest : List IssueId)
  | feedback (rest : List Issue)
  | poll (origin : IntentSource)
  /-- The poll, which hands a follow-up on command to the review follow-ups. -/
  | followup
  deriving DecidableEq, Repr

/-- The launch is one of the poll's. -/
def Caller.polls : Caller → Bool
  | .poll _ | .followup => true
  | .retry _ | .feedback _ => false

/-- The poll's call for a candidate. -/
inductive CandidateStage where
  | labels
  | command (label : Intent)
  | rejection
  | acknowledgement (command : Command) (intent : Intent) (origin : IntentSource)
  | abandonment
  | rebase (origin : IntentSource)
  | gate (origin : IntentSource)
  deriving DecidableEq, Repr

/-- The call of a launch. -/
inductive LaunchStage where
  | closePullRequest
  | workspace
  | head
  | refresh
  | findPullRequest
  | reviewFeedback
  /-- Replies to reviews that are given up; `left` more follow. -/
  | replies (left : Nat) (pending : Bool)
  | followupWorkspace
  | followupHead
  /-- The exclude file of the workspace is written. Nothing is awaited here, but it can fail. -/
  | exclude (runKind : RunKind)
  deriving DecidableEq, Repr

inductive Phase where
  | resting
  | fetchingRetry (id : IssueId) (rest : List IssueId)
  | collecting (slots : Nat)
  | fetchingConflict (id : IssueId) (loop : Loop IssueId)
  | conflictWorkspace (id : IssueId) (loop : Loop IssueId)
  | fetchingCandidates
  | considering (issue : Issue) (stage : CandidateStage)
  | launching (caller : Caller) (issue : Issue) (stage : LaunchStage)
  /-- An exception has left the cycle. -/
  | stopped
  deriving DecidableEq, Repr

/-! ## The state -/

structure Host where
  registry : Registry
  running : Finset IssueId := ∅
  /-- The sessions whose agent runs. -/
  sessions : List Session := []
  /-- Issues whose session is over and whose task still has to clean up. -/
  finishing : List IssueId := []
  completed : Finset IssueId := ∅
  pendingReview : Finset IssueId := ∅
  claimed : Finset IssueId := ∅
  /-- Background tasks of rebase runs that have been created and have not started. -/
  rebases : List IssueId := []
  conflicts : Finset IssueId := ∅
  rebaseAttempts : IssueId → Nat := fun _ => 0
  /-- The variables of the last poll. -/
  poll : Loop Issue := {}
  phase : Phase := .resting
  nextTask : TaskId := 0

namespace Host

variable (cfg : Config) (d : Host) (id : IssueId)

def busy : Bool := id ∈ d.running ∨ id ∈ d.claimed

/-! ## The four loops, up to their next call -/

/-- Items of running or completed issues are dropped, the others wait for a free slot. -/
def nextRetry (d : Host) : List IssueId → Host
  | [] => { d with phase := .resting }
  | id :: rest =>
    if id ∈ d.running ∨ id ∈ d.completed then d.nextRetry rest
    else if cfg.maxConcurrentAgents ≤ d.running.card then d.nextRetry rest
    else { d with phase := .fetchingRetry id rest }

/-- Without an operator a follow-up is launched at once; otherwise it is only recorded. -/
def nextFollowup (d : Host) : List Issue → Host
  | [] => { d with phase := .resting }
  | issue :: rest =>
    if d.busy issue.id ∨ ¬ cfg.auto then d.nextFollowup rest
    else { d with
      claimed := insert issue.id d.claimed
      phase := .launching (.feedback rest) issue .followupWorkspace }

def checkRebaseRateLimit : Bool := d.rebaseAttempts id < cfg.maxRebaseAttemptsPerIssue

def countRebase : Host :=
  if (d.registry.get id).isSome then
    { d with rebaseAttempts := Function.update d.rebaseAttempts id (d.rebaseAttempts id + 1) }
  else d

def nextConflict (d : Host) (loop : Loop IssueId) : List IssueId → Host
  | [] => { d with phase := .resting }
  | id :: rest =>
    if loop.availableSlots ≤ loop.launched then { d with phase := .resting }
    else if id = "" ∨ d.busy id ∨ id ∉ d.conflicts ∨ ¬ d.checkRebaseRateLimit cfg id then
      d.nextConflict loop rest
    else { d.countRebase id with phase := .fetchingConflict id { loop with rest } }

/-- The poll's loop ends with the candidates or with the slots. -/
def nextCandidate (d : Host) : List Issue → Host
  | [] => { d with poll := { d.poll with rest := [] }, phase := .resting }
  | issue :: rest =>
    if d.poll.availableSlots ≤ d.poll.launched then
      { d with poll := { d.poll with rest := issue :: rest }, phase := .resting }
    else if d.busy issue.id then d.nextCandidate rest
    else { d with
      poll := { d.poll with rest }
      phase := .considering issue (if issue.labels = [] then .command .none else .labels) }

def continuePoll : Host := d.nextCandidate d.poll.rest

/-! ## Launching -/

/-- A launch uses up a slot, and an intent of the command line. -/
def countLaunch (origin : IntentSource) : Host :=
  { d with
    poll := { d.poll with launched := d.poll.launched + 1 }
    registry := if origin = .cli then d.registry.clearIntent id else d.registry }

variable (issue : Issue)

/-- What the caller does when the launch returns. Only the running set tells it whether a
session was started. -/
def returned : Caller → Host
  | .retry rest => d.nextRetry cfg rest
  | .feedback rest => d.nextFollowup cfg rest
  | .followup => d.continuePoll
  | .poll origin =>
    if issue.id ∈ d.running then (d.countLaunch issue.id origin).continuePoll else d.continuePoll

variable (caller : Caller) (issue : Issue)

def waitFor (stage : LaunchStage) : Host :=
  { d with phase := .launching caller issue stage }

/-- A launch that is given up releases its claim. -/
def gated : Host :=
  { d with claimed := d.claimed.erase issue.id }.returned cfg issue caller

def alreadyHandled : Host :=
  { d with completed := insert issue.id d.completed }.gated cfg caller issue

/-- The session enters the running set before its task exists. -/
def enroll (runKind : RunKind) : Host :=
  { d with
    running := insert issue.id d.running
    registry := d.registry.mark issue.id .running
    phase := .launching caller issue (.exclude runKind) }

def createTask (runKind : RunKind) : Host :=
  { d with
    sessions := d.sessions ++ [{ task := d.nextTask, issueId := id, runKind }]
    nextTask := d.nextTask + 1 }

/-- A follow-up on command handles review feedback instead of running the issue again. -/
def usesReviewFeedbackFollowup : Bool :=
  (d.registry.get id).any fun rec => rec.intent = .followup ∧ rec.intentSource ≠ some .chat

def launchFollowupWithPendingReviews : Host :=
  if d.registry.hasPr issue.id then d.waitFor caller issue .reviewFeedback
  else d.returned cfg issue caller

/-- The replies to the reviews that are given up, then the follow-up if there is work left. -/
def sendReplies (pending : Bool) : Nat → Host
  | 0 => if pending then d.waitFor caller issue .followupWorkspace else d.returned cfg issue caller
  | left + 1 => d.waitFor caller issue (.replies left pending)

/-- All checks are passed: the session is prepared, or handed over to the review follow-ups. -/
def enter : Host :=
  if d.usesReviewFeedbackFollowup issue.id then d.launchFollowupWithPendingReviews cfg caller issue
  else d.enroll caller issue .issue

/-- The guard against issues that are handled according to the registry. -/
def registryGuard : Host :=
  if (d.registry.hasPr issue.id ∨ d.registry.isTerminal issue.id) ∧
      ¬ d.registry.intentIs issue.id (·.reopens) then
    d.alreadyHandled cfg caller issue
  else d.enter cfg caller issue

def dependenciesSatisfied : Bool :=
  (issue.dependsOn.filter (· ≠ "")).all fun id =>
    (d.registry.get id).any (·.status = .completed) || d.registry.hasPr id

/-- A retry intent resets the record, after its pull request is closed. -/
def prepareIntentReset (issue : Issue) : Host :=
  if d.registry.intentIs issue.id (· = .retry) then
    if d.registry.hasPr issue.id then d.waitFor caller issue .closePullRequest
    else { d with registry := d.registry.resetForRetry issue.id }.waitFor caller issue .workspace
  else d.waitFor caller issue .workspace

/-- The caller has claimed the issue. -/
def launchIssue (issue : Issue) : Host :=
  if d.dependenciesSatisfied issue then d.prepareIntentReset caller issue
  else d.gated cfg caller issue

def claim : Host := { d with claimed := insert id d.claimed }

/-! ## A candidate of the poll -/

/-- What remains to be checked once the intent is known. -/
def admission (origin : IntentSource) : Host :=
  if d.dependenciesSatisfied issue then
    if cfg.clarifier then { d with phase := .considering issue (.gate origin) }
    else (d.claim issue.id).launchIssue cfg (.poll origin) issue
  else d.continuePoll

def actOnIntent (intent : Intent) (origin : IntentSource) : Host :=
  let marked := { d with registry := d.registry.markIntent issue.id intent origin }
  match intent with
  | .blocked => { marked with
      registry := marked.registry.mark issue.id .abandoned
      phase := .considering issue .abandonment }
  | .retry => marked.admission cfg issue origin
  | .followup =>
    if marked.usesReviewFeedbackFollowup issue.id then
      marked.launchFollowupWithPendingReviews cfg .followup issue
    else marked.admission cfg issue origin
  | .rebase =>
    if marked.checkRebaseRateLimit cfg issue.id then
      { marked.countRebase issue.id with phase := .considering issue (.rebase origin) }
    else marked.continuePoll
  | .none =>
    if d.registry.isTerminal issue.id ∨ d.registry.hasPr issue.id then d.continuePoll
    else d.admission cfg issue origin

variable (label : Intent) (found : Option Found)

/-- The merged intent of an issue and the source that is recorded with it. -/
def resolveIntent : Intent × IntentSource :=
  let command := (found.map (commandToIntent ·.command)).getD .none
  let cli := cliIntent (d.registry.get id)
  let merged := mergeIntentsWithCli label command cli
  let fallback := if found.isSome then .command else .label
  (merged, (intentSource label command cli merged).getD fallback)

/-- The role check and the rate limit, before a command is acknowledged. -/
def dispatch : Host :=
  let (intent, origin) := d.resolveIntent issue.id label found
  if (issue.id ∈ d.completed ∨ issue.id ∈ d.pendingReview) ∧ ¬ intent.reopens then d.continuePoll
  else if intent.reopens ∧ found.any (¬ ·.eligible) then
    { d with phase := .considering issue .rejection }
  else if intent = .retry ∧ cfg.maxRetriesPerIssue ≤ d.registry.retryCount issue.id then
    d.continuePoll
  else match found with
    | some found =>
      { d with phase := .considering issue (.acknowledgement found.command intent origin) }
    | none => d.actOnIntent cfg issue intent origin

/-- The command is acknowledged; `unblock` acts on the record. -/
def honour (command : Command) (intent : Intent) (origin : IntentSource) : Host :=
  if command = .unblock then
    { d with registry := d.registry.unblock issue.id }.actOnIntent cfg issue intent origin
  else d.actOnIntent cfg issue intent origin

/-- The built-in rebase returns: whether it left a conflict and whether it is done; `none` if
there was nothing to rebase. An intent of the command line is used up. -/
def rebased (origin : IntentSource) (result : Option (Bool × Bool)) : Host :=
  let registry := if origin = .cli then d.registry.clearIntent issue.id else d.registry
  match result with
  | some (true, _) => { d with
      registry
      conflicts := insert issue.id d.conflicts
      rebaseAttempts := if cfg.useForcePush then Function.update d.rebaseAttempts issue.id 0
        else d.rebaseAttempts }.continuePoll
  | some (false, true) =>
    { d with registry, conflicts := d.conflicts.erase issue.id }.continuePoll
  | _ => { d with registry }.continuePoll

/-! ## Answers -/

/-- The tracker's view of the issue just before the run. -/
inductive Refreshed where
  | missing
  | inactive
  | active (branch : Bool)
  deriving DecidableEq, Repr

inductive Reply where
  /-- A call whose result is not looked at. -/
  | done
  | retry (issue : Option Issue) (active : Bool)
  | followups (issues : List Issue)
  | candidates (issues : List Issue)
  | labels (intent : Intent)
  | command (found : Option Found)
  | gate (clear : Bool)
  | rebased (result : Option (Bool × Bool))
  | refreshed (answer : Refreshed)
  | pullRequest (found : Bool)
  | feedback (pending : Bool) (abandoned : Nat)
  deriving DecidableEq, Repr

/-- Unknown candidates are registered before any is looked at. -/
def preRegister (r : Registry) (issues : List Issue) : Registry :=
  issues.foldl (fun r issue =>
    if (r.get issue.id).isNone then r.register issue.id .queued else r) r

def freeSlots : Nat := cfg.maxConcurrentAgents - d.running.card

/-- The slots are counted once. While the sequential workspace is in use the poll looks at no
candidate, as if there were none. -/
def dispatchCandidates (issues : List Issue) : Host :=
  { d with
    registry := preRegister d.registry issues
    poll := { availableSlots := if cfg.sequential ∧ d.running ≠ ∅ then 0 else d.freeSlots cfg
              rest := issues } }.continuePoll

def considerStep : CandidateStage → Reply → Host
  | .labels, .labels intent => { d with phase := .considering issue (.command intent) }
  | .command label, .command found => d.dispatch cfg issue label found
  | .rejection, .done => d.continuePoll
  | .acknowledgement command intent origin, .done => d.honour cfg issue command intent origin
  | .abandonment, .done => { d with completed := insert issue.id d.completed }.continuePoll
  | .rebase origin, .rebased result => d.rebased cfg issue origin result
  | .gate origin, .gate clear =>
    if clear then (d.claim issue.id).launchIssue cfg (.poll origin) issue else d.continuePoll
  | _, _ => d

def launchStep (issue : Issue) : LaunchStage → Reply → Host
  | .closePullRequest, .done =>
    { d with registry := d.registry.resetForRetry issue.id }.waitFor caller issue .workspace
  | .workspace, .done => d.waitFor caller issue .head
  | .head, .done =>
    { d with registry := d.registry.register issue.id }.waitFor caller issue .refresh
  | .refresh, .refreshed answer =>
    match answer with
    | .missing | .inactive => d.gated cfg caller issue
    | .active branch =>
      if branch then d.waitFor caller issue .findPullRequest else d.registryGuard cfg caller issue
  | .findPullRequest, .pullRequest found =>
    if found ∧ ¬ d.registry.intentIs issue.id (·.reopens) then d.alreadyHandled cfg caller issue
    else d.registryGuard cfg caller issue
  | .reviewFeedback, .feedback pending abandoned => d.sendReplies cfg caller issue pending abandoned
  | .replies left pending, .done => d.sendReplies cfg caller issue pending left
  | .followupWorkspace, .done => d.waitFor caller issue .followupHead
  | .followupHead, .done => d.enroll caller issue .reviewFollowup
  | .exclude runKind, .done => (d.createTask issue.id runKind).returned cfg issue caller
  | _, _ => d

/-- A workspace for the rebase run is tried for, then its task is created. -/
def createRebase (loop : Loop IssueId) : Host :=
  { d with rebases := d.rebases ++ [id] }.nextConflict cfg
    { loop with launched := loop.launched + 1 } loop.rest

/-- The cycle goes on when its call answers. -/
def answer (reply : Reply) : Host :=
  match d.phase, reply with
  | .fetchingRetry id rest, .retry (some issue) true =>
    (d.claim id).launchIssue cfg (.retry rest) { issue with id }
  | .fetchingRetry _ rest, .retry _ _ => d.nextRetry cfg rest
  | .collecting slots, .followups issues => d.nextFollowup cfg (issues.take slots)
  | .fetchingConflict id loop, .done => { d with phase := .conflictWorkspace id loop }
  | .conflictWorkspace id loop, .done => d.createRebase cfg id loop
  | .fetchingCandidates, .candidates issues => d.dispatchCandidates cfg issues
  | .considering issue stage, reply => d.considerStep cfg issue stage reply
  | .launching caller issue stage, reply => d.launchStep cfg caller issue stage reply
  | _, _ => d

/-! ## Exceptions -/

/-- No handler between the call and the cycle catches the exception. -/
def stop : Host := { d with phase := .stopped }

def considerRaise : CandidateStage → Host
  | .labels => { d with phase := .considering issue (.command .none) }
  | .command label => d.dispatch cfg issue label none
  | .rejection => d.continuePoll
  | .acknowledgement command intent origin => d.honour cfg issue command intent origin
  | .abandonment => { d with completed := insert issue.id d.completed }.continuePoll
  | .rebase _ => d.stop
  | .gate origin =>
    if cfg.failOpen then (d.claim issue.id).launchIssue cfg (.poll origin) issue else d.continuePoll

def launchRaise (issue : Issue) : LaunchStage → Host
  | .closePullRequest =>
    { d with registry := d.registry.resetForRetry issue.id }.waitFor caller issue .workspace
  | .workspace => d.gated cfg caller issue
  | .head => d.stop
  -- the checks just before the run are dropped, not the run
  | .refresh | .findPullRequest => d.enter cfg caller issue
  | .reviewFeedback => d.returned cfg issue caller
  | .replies left pending => d.sendReplies cfg caller issue pending left
  | .followupWorkspace => d.gated cfg caller issue
  | .followupHead | .exclude _ => d.stop

/-- The call the cycle waits for raises. -/
def raise : Host :=
  match d.phase with
  | .resting | .stopped => d
  | .fetchingRetry _ rest => d.nextRetry cfg rest
  | .collecting _ => { d with phase := .resting }
  | .fetchingConflict _ _ => d.stop
  | .conflictWorkspace id loop => d.createRebase cfg id loop
  | .fetchingCandidates => { d with phase := .resting }
  | .considering issue stage => d.considerRaise cfg issue stage
  | .launching caller issue stage => d.launchRaise cfg caller issue stage

/-! ## Beside the cycle -/

/-- The background task of a rebase run starts. It checks nothing. -/
def rebaseStarts : Host :=
  if id ∈ d.rebases then
    let d := { d with rebases := d.rebases.erase id, running := insert id d.running }
    d.createTask id .agentRebase
  else d

/-- What a run leaves in the record. -/
def recordOutcome (status : IssueStatus) (prNumber : Option Nat) : Host :=
  { d with
    registry := d.registry.modify id fun rec =>
      { rec with status, prNumber := prNumber.or rec.prNumber }
    completed := if status = .completed then insert id d.completed else d.completed
    pendingReview :=
      if status = .pendingReview then insert id d.pendingReview else d.pendingReview }

/-- An agent's run ends. The claim outlives the session until the task is done; a rebase run
has none. -/
def sessionEnds (task : TaskId) (status : IssueStatus) (prNumber : Option Nat) : Host :=
  match d.sessions.find? (·.task = task) with
  | none => d
  | some s =>
    let d := { d with sessions := d.sessions.erase s, running := d.running.erase s.issueId }
    if s.runKind = .agentRebase then d
    else { d.recordOutcome s.issueId status prNumber with finishing := d.finishing ++ [s.issueId] }

def settle : Host :=
  if id ∈ d.finishing then
    { d with finishing := d.finishing.erase id, claimed := d.claimed.erase id }
  else d

/-- The operator commands that touch the sets of the dispatch. -/
inductive OperatorCommand where
  /-- The pending retry of an issue is cancelled. -/
  | stop
  | reopen (intent : Intent) (source : IntentSource)
  | approve
  deriving DecidableEq, Repr

def applyCommand : OperatorCommand → Host
  | .stop => { d with claimed := d.claimed.erase id }
  | .reopen intent source => { d with
      completed := d.completed.erase id
      claimed := d.claimed.erase id
      pendingReview := d.pendingReview.erase id
      registry := d.registry.modify id fun rec =>
        { rec with status := .pending, intent, intentSource := some source } }
  | .approve => { d with
      completed := insert id d.completed
      claimed := d.claimed.erase id
      pendingReview := d.pendingReview.erase id
      registry := d.registry.mark id .completed }

/-! ## Steps -/

inductive Input where
  | retries (ready : List IssueId)
  | reviewFeedback
  | rebaseConflicts
  | poll
  | answered (reply : Reply)
  | raised
  | rebaseStarts (id : IssueId)
  | sessionEnds (task : TaskId) (status : IssueStatus) (prNumber : Option Nat)
  | settle (id : IssueId)
  | command (id : IssueId) (command : OperatorCommand)
  deriving DecidableEq, Repr

def whenResting (act : Host → Host) : Host := if d.phase = .resting then act d else d

def processReviewFeedback : Host :=
  if cfg.reviewFeedback ∧ 0 < d.freeSlots cfg then { d with phase := .collecting (d.freeSlots cfg) }
  else d

def processPendingRebaseConflicts : Host :=
  d.nextConflict cfg { availableSlots := d.freeSlots cfg } (d.registry.entries.map Prod.fst)

def step : Input → Host
  | .retries ready => d.whenResting (·.nextRetry cfg ready)
  | .reviewFeedback => d.whenResting (·.processReviewFeedback cfg)
  | .rebaseConflicts => d.whenResting (·.processPendingRebaseConflicts cfg)
  | .poll => d.whenResting fun d => { d with phase := .fetchingCandidates }
  | .answered reply => d.answer cfg reply
  | .raised => d.raise cfg
  | .rebaseStarts id => d.rebaseStarts id
  | .sessionEnds task status prNumber => d.sessionEnds task status prNumber
  | .settle id => d.settle id
  | .command id command => d.applyCommand id command

/-- The state after startup. The conflicts and the rebase attempts are fields of the records. -/
def startup (registry : Registry) (conflicts : Finset IssueId) (rebaseAttempts : IssueId → Nat) :
    Host :=
  { registry
    conflicts
    rebaseAttempts
    completed := Daemon.Orchestrator.idsWith registry .completed
    pendingReview := Daemon.Orchestrator.idsWith registry .pendingReview }

/-- A candidate without intent passes all checks and gets its session. -/
def launches : List Input :=
  [.answered (.command none), .answered .done, .answered .done,
    .answered (.refreshed (.active false)), .answered .done]

end Host

end Orchestratord.Dispatch
