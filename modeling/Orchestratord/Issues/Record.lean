import Orchestratord.Daemon.Registry
import Orchestratord.Foundation.Runs

/-! # The issue registry

The whole record of an issue and every operation of the registry on it. Fields that belong
together are grouped; a field keeps its name. Every operation but `register` changes a known
record in place and ignores an unknown one. Times are in milliseconds, and the clock's answer is
an argument. -/

namespace Orchestratord.Issues

open Foundation
open Daemon (IssueStatus Intent IntentSource)

abbrev IssueId := String

abbrev Time := ℕ

/-! ## §1 Records -/

/-- What the current or last run reports about itself. -/
structure RunDiagnostics where
  runId : Option String := none
  debugLogPath : Option String := none
  turnCount : ℕ := 0
  toolCount : ℕ := 0
  lastEvent : Option String := none
  lastTool : Option String := none
  outputLen : ℕ := 0
  timeoutDeadlineAt : Option Time := none
  workspaceDirty : Option Bool := none
  costUsd : ℚ := 0
  tokenUsage : Dict String ℕ := .empty
  startedAt : Option Time := none
  completedAt : Option Time := none
  durationMs : Option ℚ := none
  backend : Option String := none
  model : Option String := none

/-- The clarification of the issue's text. -/
structure Clarification where
  status : Option String := none
  questionHistory : List String := []
  openQuestions : List String := []
  round : Int := 0
  fingerprint : Option String := none
  replies : List String := []
  commentCursor : Option String := none
  localAnswer : Option String := none
  localAnswerSource : Option String := none
  firstResponseSource : Option String := none
  staleAnswers : List String := []

/-- Review feedback on the issue's pull request. -/
structure Feedback where
  processedIds : List String := []
  pendingIds : List String := []
  pendingUrls : Dict String String := .empty
  pendingSince : Option Time := none
  cursor : Option String := none
  followupAttemptCount : ℕ := 0
  failureCounts : Dict String ℕ := .empty
  lastFollowupCommitSha : Option String := none
  lastCheckedAt : Option Time := none

structure Conflict where
  hasConflict : Bool := false
  files : List String := []
  rebaseAttemptCount : ℕ := 0
  lastRebaseAttemptAt : Option Time := none

structure IssueRecord where
  issueId : IssueId
  issueIdentifier : String
  branchName : Option String := none
  commitSha : Option String := none
  prNumber : Option String := none
  prUrl : Option String := none
  /-- The time of the first pull request of the issue. -/
  prCreatedAt : Option Time := none
  baseBranch : String := "main"
  workspaceStrategy : Option String := none
  workspacePath : Option String := none
  baseCommitSha : Option String := none
  startCommitSha : Option String := none
  previousIssueId : Option String := none
  sequenceIndex : Option ℕ := none
  status : IssueStatus := .pending
  reportPath : Option String := none
  verificationStatus : Option String := none
  verificationOutput : Option String := none
  lastHookError : Option String := none
  summaryCommentId : Option String := none
  sessionEndReason : Option String := none
  sessionEndSummary : String := ""
  createdAt : Time
  updatedAt : Time
  attemptCount : ℕ := 0
  clarification : Clarification := {}
  authorLogin : Option String := none
  feedback : Feedback := {}
  intent : Intent := .none
  retryCount : ℕ := 0
  nextRetryAt : Option Time := none
  lastCommand : Option String := none
  intentSource : Option IntentSource := none
  commandCursor : Option String := none
  conversationId : Option String := none
  run : RunDiagnostics := {}
  previousRunIds : List String := []
  collaborationMode : String := "single"
  modeDecisionReason : Option String := none
  /-- The remote state of the pull request, as last seen. -/
  prState : Option String := none
  conflict : Conflict := {}
  pauseReason : String := ""

abbrev Registry := Dict IssueId IssueRecord

/-- A text that counts as true. -/
def truthy (text : Option String) : Option String := text.filter (· ≠ "")

/-! ## §2 Registering an issue -/

structure Registration where
  issueId : IssueId
  issueIdentifier : String
  branchName : Option String := none
  baseBranch : String := "main"
  workspaceStrategy : Option String := none
  workspacePath : Option String := none
  baseCommitSha : Option String := none
  startCommitSha : Option String := none
  previousIssueId : Option String := none
  sequenceIndex : Option ℕ := none
  status : Option IssueStatus := none
  authorLogin : Option String := none

/-- The record that is made of the arguments alone. -/
def Registration.record (args : Registration) (conversationId : Option String) (now : Time) :
    IssueRecord where
  issueId := args.issueId
  issueIdentifier := args.issueIdentifier
  branchName := args.branchName
  baseBranch := args.baseBranch
  workspaceStrategy := args.workspaceStrategy
  workspacePath := args.workspacePath
  baseCommitSha := args.baseCommitSha
  startCommitSha := args.startCommitSha
  previousIssueId := args.previousIssueId
  sequenceIndex := args.sequenceIndex
  status := args.status.getD .pending
  authorLogin := args.authorLogin
  conversationId := conversationId
  createdAt := now
  updatedAt := now

/-- The fields that are copied from the record of an earlier launch. -/
def IssueRecord.carryOver (record existing : IssueRecord) : IssueRecord :=
  { record with
    commitSha := existing.commitSha
    prNumber := existing.prNumber
    prUrl := existing.prUrl
    prCreatedAt := existing.prCreatedAt
    reportPath := existing.reportPath
    verificationStatus := existing.verificationStatus
    verificationOutput := existing.verificationOutput
    lastHookError := existing.lastHookError
    summaryCommentId := existing.summaryCommentId
    authorLogin := record.authorLogin.or (truthy existing.authorLogin)
    branchName := (truthy existing.branchName).or record.branchName
    intent := existing.intent
    intentSource := existing.intentSource
    retryCount := existing.retryCount
    lastCommand := existing.lastCommand
    commandCursor := existing.commandCursor
    -- every field of the feedback is copied but the failure counts
    feedback := { existing.feedback with failureCounts := record.feedback.failureCounts }
    conflict := existing.conflict
    clarification := existing.clarification }

variable (r : Registry) (id : IssueId) (now : Time)

namespace Registry

def statusOf : Option IssueStatus := (r.get id).map (·.status)

/-- `fresh` is the conversation id that a new record gets. -/
def register (args : Registration) (fresh : String) (now : Time) : Registry :=
  match r.get args.issueId with
  | none => r.set args.issueId (args.record (some fresh) now)
  | some existing =>
    r.set args.issueId ((args.record existing.conversationId now).carryOver existing)

/-! ## §3 Changes in place -/

/-- Change a known record and stamp it. -/
def edit (f : IssueRecord → IssueRecord) : Registry :=
  r.modify id fun record => { f record with updatedAt := now }

def persistRetryPlan (retryCount : ℕ) (nextRetryAt now : Time) : Registry :=
  r.edit id now fun record => { record with retryCount, nextRetryAt := some nextRetryAt }

/-- A record without a plan is not stamped. -/
def clearRetryPlan : Registry :=
  r.modify id fun record =>
    if record.nextRetryAt.isNone then record
    else { record with nextRetryAt := none, updatedAt := now }

structure SyncUpdate where
  branchName : Option String := none
  commitSha : Option String := none
  prNumber : Option String := none
  prUrl : Option String := none

def markSynced (u : SyncUpdate) (now : Time) : Registry :=
  r.edit id now fun record =>
    { record with
      branchName := u.branchName.or record.branchName
      commitSha := u.commitSha.or record.commitSha
      -- the clock of the first pull request is started once
      prCreatedAt :=
        if u.prNumber.isSome ∧ record.prNumber.isNone ∧ record.prCreatedAt.isNone then some now
        else record.prCreatedAt
      prNumber := u.prNumber.or record.prNumber
      prUrl := u.prUrl.or record.prUrl
      status := .synced }

def markRunning : Registry :=
  r.edit id now fun record => { record with status := .running, run := {} }

structure DiagnosticsUpdate where
  runId : Option String := none
  debugLogPath : Option String := none
  turnCount : Option ℕ := none
  toolCount : Option ℕ := none
  lastEvent : Option String := none
  lastTool : Option String := none
  outputLen : Option ℕ := none
  timeoutDeadlineAt : Option Time := none
  workspaceDirty : Option Bool := none
  costUsd : Option ℚ := none
  tokenUsage : Option (Dict String ℕ) := none
  startedAt : Option Time := none
  completedAt : Option Time := none
  durationMs : Option ℚ := none
  backend : Option String := none
  model : Option String := none
  sessionEndReason : Option String := none
  sessionEndSummary : Option String := none
  pauseReason : Option String := none

def RunDiagnostics.update (run : RunDiagnostics) (u : DiagnosticsUpdate) : RunDiagnostics where
  runId := u.runId.or run.runId
  debugLogPath := u.debugLogPath.or run.debugLogPath
  turnCount := u.turnCount.getD run.turnCount
  toolCount := u.toolCount.getD run.toolCount
  lastEvent := u.lastEvent.or run.lastEvent
  lastTool := u.lastTool.or run.lastTool
  outputLen := u.outputLen.getD run.outputLen
  -- a paused run has no deadline
  timeoutDeadlineAt :=
    if (truthy u.pauseReason).isSome then none else u.timeoutDeadlineAt.or run.timeoutDeadlineAt
  workspaceDirty := u.workspaceDirty.or run.workspaceDirty
  costUsd := u.costUsd.getD run.costUsd
  tokenUsage := u.tokenUsage.getD run.tokenUsage
  startedAt := u.startedAt.or run.startedAt
  completedAt := u.completedAt.or run.completedAt
  durationMs := u.durationMs.or run.durationMs
  backend := u.backend.or run.backend
  model := u.model.or run.model

def updateRunDiagnostics (u : DiagnosticsUpdate) (now : Time) : Registry :=
  r.edit id now fun record =>
    { record with
      run := RunDiagnostics.update record.run u
      sessionEndReason := u.sessionEndReason.or record.sessionEndReason
      sessionEndSummary := u.sessionEndSummary.getD record.sessionEndSummary
      pauseReason := u.pauseReason.getD record.pauseReason }

/-- The operations that set the status and nothing else. -/
def mark (status : IssueStatus) (now : Time) : Registry :=
  r.edit id now fun record => { record with status }

def markPendingReview : Registry := r.mark id .pendingReview now

def markAbandoned : Registry := r.mark id .abandoned now

/-- A verification that failed before is forgotten, one that passed is kept. -/
def markCompleted : Registry :=
  r.edit id now fun record =>
    let failed := record.verificationStatus = some "failed"
    { record with
      status := .completed
      verificationStatus := if failed then none else record.verificationStatus
      verificationOutput := if failed then none else record.verificationOutput
      lastHookError := if (truthy record.lastHookError).isSome then none else record.lastHookError }

def markPending : Registry :=
  r.edit id now fun record => { record with status := .pending, pauseReason := "" }

def markFailed : Registry :=
  r.edit id now fun record =>
    { record with status := .failed, attemptCount := record.attemptCount + 1 }

/-- The two marks that say why an attempt failed. -/
def markFailure (status : IssueStatus) (output hookError : Option String) (now : Time) : Registry :=
  r.edit id now fun record =>
    { record with
      status
      verificationStatus := some "failed"
      verificationOutput := output
      lastHookError := hookError
      attemptCount := record.attemptCount + 1 }

variable (reason : String)

def markFailedWithReason (now : Time) : Registry :=
  r.markFailure id .failed (some reason) (some reason) now

def markVerificationFailed (output hookError : Option String) (now : Time) : Registry :=
  r.markFailure id .verificationFailed output hookError now

def markPaused (now : Time) : Registry :=
  r.edit id now fun record => { record with status := .paused, pauseReason := reason }

def markResumed : Registry :=
  r.edit id now fun record => { record with status := .running, pauseReason := "" }

def updateBranch (branchName : String) (now : Time) : Registry :=
  r.edit id now fun record => { record with branchName := some branchName }

structure ReportUpdate where
  reportPath : Option String := none
  verificationStatus : Option String := none
  verificationOutput : Option String := none
  summaryCommentId : Option String := none
  sessionEndReason : Option String := none
  sessionEndSummary : Option String := none

def updateReport (u : ReportUpdate) (now : Time) : Registry :=
  r.edit id now fun record =>
    { record with
      reportPath := u.reportPath.or record.reportPath
      verificationStatus := u.verificationStatus.or record.verificationStatus
      verificationOutput := u.verificationOutput.or record.verificationOutput
      summaryCommentId := u.summaryCommentId.or record.summaryCommentId
      sessionEndReason := u.sessionEndReason.or record.sessionEndReason
      sessionEndSummary := u.sessionEndSummary.getD record.sessionEndSummary }

/-! ## §4 Review feedback -/

/-- One id of newly found feedback. -/
def addPending (urls : Dict String String) (feedback : Feedback) (feedbackId : String) : Feedback :=
  if feedbackId ∈ feedback.processedIds then feedback
  else
    { feedback with
      pendingIds :=
        if feedbackId ∈ feedback.pendingIds then feedback.pendingIds
        else feedback.pendingIds ++ [feedbackId]
      pendingUrls := match truthy (urls.get feedbackId) with
        | none => feedback.pendingUrls
        | some url => feedback.pendingUrls.set feedbackId url }

variable (feedbackIds : List String)

def markFeedbackPending
    (cursor : Option String) (urls : Dict String String) (now : Time) : Registry :=
  r.edit id now fun record =>
    let since := if record.feedback.pendingIds = [] then some now else record.feedback.pendingSince
    let feedback := feedbackIds.foldl (addPending urls) { record.feedback with pendingSince := since }
    { record with
      feedback := { feedback with
        cursor := cursor.or feedback.cursor
        lastCheckedAt := some now } }

def markFeedbackProcessed (commitSha cursor : Option String) (now : Time) : Registry :=
  r.edit id now fun record =>
    let processed := feedbackIds.foldl
      (fun ids feedbackId => if feedbackId ∈ ids then ids else ids ++ [feedbackId])
      record.feedback.processedIds
    let pending := record.feedback.pendingIds.filter (· ∉ processed)
    { record with
      feedback := { record.feedback with
        processedIds := processed
        pendingIds := pending
        pendingUrls := feedbackIds.foldl .erase record.feedback.pendingUrls
        pendingSince := if pending = [] then none else record.feedback.pendingSince
        lastFollowupCommitSha := commitSha.or record.feedback.lastFollowupCommitSha
        cursor := cursor.or record.feedback.cursor
        lastCheckedAt := some now } }

def incrementFollowupAttempt : Registry :=
  r.edit id now fun record =>
    { record with feedback := { record.feedback with
        followupAttemptCount := record.feedback.followupAttemptCount + 1 } }

def incrementFeedbackFailure (now : Time) : Registry :=
  r.edit id now fun record =>
    { record with feedback := { record.feedback with
        failureCounts := feedbackIds.foldl
          (fun counts feedbackId => counts.set feedbackId ((counts.get feedbackId).getD 0 + 1))
          record.feedback.failureCounts } }

def feedbackAbandoned (feedbackId : String) (maxFailures : ℕ := 2) : Bool :=
  (r.get id).any fun record => maxFailures ≤ (record.feedback.failureCounts.get feedbackId).getD 0

def clearStalePending (timeoutMs : ℕ) (now : Time) : Registry :=
  r.modify id fun record =>
    match record.feedback.pendingIds, record.feedback.pendingSince with
    | [], _ | _, none => record
    | _ :: _, some since =>
      if now < since + timeoutMs then record
      else { record with
        feedback := { record.feedback with
          pendingIds := []
          pendingUrls := .empty
          pendingSince := none }
        updatedAt := now }

def markFeedbackChecked : Registry :=
  r.edit id now fun record =>
    { record with feedback := { record.feedback with lastCheckedAt := some now } }

/-! ## §5 Intents and conflicts -/

def markIntent (intent : Intent) (source : Option IntentSource)
    (command : Option String) (now : Time) : Registry :=
  r.edit id now fun record =>
    { record with
      intent
      intentSource := source.or record.intentSource
      lastCommand := command.or record.lastCommand }

def clearIntent (recordIntentHistory : Bool) (now : Time) : Registry :=
  r.edit id now fun record =>
    { record with
      intent := .none
      intentSource := if recordIntentHistory then record.intentSource else none }

def incrementRetryCount : Registry :=
  r.edit id now fun record => { record with retryCount := record.retryCount + 1 }

def markConflict (files : List String) (now : Time) : Registry :=
  r.edit id now fun record =>
    { record with conflict := { record.conflict with
        hasConflict := true
        files := files
        lastRebaseAttemptAt := some now } }

def clearConflict : Registry :=
  r.edit id now fun record =>
    { record with conflict := { record.conflict with hasConflict := false, files := [] } }

def incrementRebaseAttempt : Registry :=
  r.edit id now fun record =>
    { record with conflict := { record.conflict with
        rebaseAttemptCount := record.conflict.rebaseAttemptCount + 1
        lastRebaseAttemptAt := some now } }

def resetForRetry (incrementRetry resetRetryCount : Bool) (now : Time) : Registry :=
  r.edit id now fun record =>
    { record with
      status := .pending
      commitSha := none
      prNumber := none
      prUrl := none
      prCreatedAt := none
      prState := none
      reportPath := none
      summaryCommentId := none
      verificationStatus := none
      verificationOutput := none
      lastHookError := none
      -- the questions asked and the answers given stay on the record
      clarification := { record.clarification with
        status := none
        openQuestions := []
        round := 0
        fingerprint := none
        replies := []
        commentCursor := none }
      retryCount :=
        if resetRetryCount then 0
        else if incrementRetry then record.retryCount + 1
        else record.retryCount }

def unblock : Registry :=
  r.edit id now fun record =>
    { record with
      status := if record.status = .abandoned then .pending else record.status
      intent := .none
      intentSource := none
      lastCommand := none }

/-! ## §6 Clarification -/

structure ClarificationUpdate where
  status : Option String := none
  question : Option String := none
  authorLogin : Option String := none
  localAnswer : Option String := none
  localAnswerSource : Option String := none
  firstResponseSource : Option String := none
  openQuestions : Option (List String) := none
  round : Option Int := none
  fingerprint : Option String := none
  replies : Option (List String) := none
  commentCursor : Option String := none

def updateClarification (u : ClarificationUpdate) (now : Time) : Registry :=
  r.edit id now fun record =>
    let c := record.clarification
    { record with
      authorLogin := u.authorLogin.or record.authorLogin
      clarification := { c with
        status := u.status.or c.status
        questionHistory := c.questionHistory ++ u.question.toList
        localAnswer := u.localAnswer.or c.localAnswer
        localAnswerSource := u.localAnswerSource.or c.localAnswerSource
        firstResponseSource := u.firstResponseSource.or c.firstResponseSource
        openQuestions := u.openQuestions.getD c.openQuestions
        round := (u.round.map (max 0)).getD c.round
        fingerprint := u.fingerprint.or c.fingerprint
        replies := u.replies.getD c.replies
        commentCursor := u.commentCursor.or c.commentCursor } }

variable (questions : List String) (fingerprint : String)

/-- A wait for an answer reopens an issue that had come to its end. -/
def markClarificationBlocked (roundNumber : Int) (now : Time) : Registry :=
  r.edit id now fun record =>
    { record with
      status := if record.status.isTerminal then .pending else record.status
      clarification := { record.clarification with
        status := some "awaiting_author"
        openQuestions := questions
        round := max 1 roundNumber
        fingerprint := some fingerprint
        questionHistory := questions.foldl
          (fun history question => if question ∈ history then history else history ++ [question])
          record.clarification.questionHistory } }

structure Resolution where
  fingerprint : String
  answer : Option String := none
  source : Option String := none
  status : String := "resolved"
  replies : Option (List String) := none

def markClarificationResolved (u : Resolution) (now : Time) : Registry :=
  r.edit id now fun record =>
    let c := record.clarification
    { record with clarification := { c with
        status := some u.status
        openQuestions := []
        fingerprint := some u.fingerprint
        localAnswer := u.answer.or c.localAnswer
        localAnswerSource := u.source.or c.localAnswerSource
        firstResponseSource := u.source.or c.firstResponseSource
        replies := u.replies.getD c.replies } }

def markClarificationManualRequired (now : Time) : Registry :=
  r.edit id now fun record =>
    { record with clarification := { record.clarification with
        status := some "manual_required"
        openQuestions := questions
        fingerprint := some fingerprint } }

def addStaleAnswer (answer : String) (now : Time) : Registry :=
  r.edit id now fun record =>
    { record with clarification := { record.clarification with
        staleAnswers := record.clarification.staleAnswers ++ [answer] } }

end Registry

/-! ## §7 Runs of operations -/

/-- The operations that change a known record in place. -/
inductive InPlace where
  | persistRetryPlan (retryCount : ℕ) (nextRetryAt : Time)
  | clearRetryPlan
  | markSynced (u : Registry.SyncUpdate)
  | markRunning
  | updateRunDiagnostics (u : Registry.DiagnosticsUpdate)
  | markPendingReview
  | markCompleted
  | markPending
  | markFailed
  | markFailedWithReason (reason : String)
  | markVerificationFailed (output hookError : Option String)
  | markPaused (reason : String)
  | markResumed
  | markAbandoned
  | updateBranch (branchName : String)
  | updateReport (u : Registry.ReportUpdate)
  | markFeedbackPending (feedbackIds : List String) (cursor : Option String)
      (urls : Dict String String)
  | markFeedbackProcessed (feedbackIds : List String) (commitSha cursor : Option String)
  | incrementFollowupAttempt
  | incrementFeedbackFailure (feedbackIds : List String)
  | clearStalePending (timeoutMs : ℕ)
  | markFeedbackChecked
  | markIntent (intent : Intent) (source : Option IntentSource) (command : Option String)
  | clearIntent (recordIntentHistory : Bool)
  | incrementRetryCount
  | markConflict (files : List String)
  | clearConflict
  | incrementRebaseAttempt
  | resetForRetry (incrementRetry resetRetryCount : Bool)
  | unblock
  | updateClarification (u : Registry.ClarificationUpdate)
  | markClarificationBlocked (questions : List String) (fingerprint : String) (roundNumber : Int)
  | markClarificationResolved (u : Registry.Resolution)
  | markClarificationManualRequired (questions : List String) (fingerprint : String)
  | addStaleAnswer (answer : String)

inductive Operation where
  | register (args : Registration) (fresh : String)
  | inPlace (id : IssueId) (operation : InPlace)

namespace Registry

def changeInPlace : InPlace → Registry
  | .persistRetryPlan retryCount nextRetryAt => r.persistRetryPlan id retryCount nextRetryAt now
  | .clearRetryPlan => r.clearRetryPlan id now
  | .markSynced u => r.markSynced id u now
  | .markRunning => r.markRunning id now
  | .updateRunDiagnostics u => r.updateRunDiagnostics id u now
  | .markPendingReview => r.markPendingReview id now
  | .markCompleted => r.markCompleted id now
  | .markPending => r.markPending id now
  | .markFailed => r.markFailed id now
  | .markFailedWithReason reason => r.markFailedWithReason id reason now
  | .markVerificationFailed output hookError => r.markVerificationFailed id output hookError now
  | .markPaused reason => r.markPaused id reason now
  | .markResumed => r.markResumed id now
  | .markAbandoned => r.markAbandoned id now
  | .updateBranch branchName => r.updateBranch id branchName now
  | .updateReport u => r.updateReport id u now
  | .markFeedbackPending feedbackIds cursor urls =>
    r.markFeedbackPending id feedbackIds cursor urls now
  | .markFeedbackProcessed feedbackIds commitSha cursor =>
    r.markFeedbackProcessed id feedbackIds commitSha cursor now
  | .incrementFollowupAttempt => r.incrementFollowupAttempt id now
  | .incrementFeedbackFailure feedbackIds => r.incrementFeedbackFailure id feedbackIds now
  | .clearStalePending timeoutMs => r.clearStalePending id timeoutMs now
  | .markFeedbackChecked => r.markFeedbackChecked id now
  | .markIntent intent source command => r.markIntent id intent source command now
  | .clearIntent recordIntentHistory => r.clearIntent id recordIntentHistory now
  | .incrementRetryCount => r.incrementRetryCount id now
  | .markConflict files => r.markConflict id files now
  | .clearConflict => r.clearConflict id now
  | .incrementRebaseAttempt => r.incrementRebaseAttempt id now
  | .resetForRetry incrementRetry resetRetryCount =>
    r.resetForRetry id incrementRetry resetRetryCount now
  | .unblock => r.unblock id now
  | .updateClarification u => r.updateClarification id u now
  | .markClarificationBlocked questions fingerprint roundNumber =>
    r.markClarificationBlocked id questions fingerprint roundNumber now
  | .markClarificationResolved u => r.markClarificationResolved id u now
  | .markClarificationManualRequired questions fingerprint =>
    r.markClarificationManualRequired id questions fingerprint now
  | .addStaleAnswer answer => r.addStaleAnswer id answer now

/-- An operation at a time of the clock. -/
def operate : Operation → Registry
  | .register args fresh => r.register args fresh now
  | .inPlace id operation => r.changeInPlace id now operation

end Registry

end Orchestratord.Issues
