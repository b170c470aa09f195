import Orchestratord.Issues.Host

/-! # The end of a run

`run_issue_body` is one try statement. How its body ends is an input of the model, together with
what the body and the other tasks have done to the registry by then; the exception handlers, the
final block and the interpretation of the result are as in the source. -/

namespace Orchestratord.Issues

open Foundation
open Daemon (IssueStatus EndReason failureRetryBaseMs)

/-! ## §1 Interpretation -/

/-- The result of an interpretation. All it does to the host is done before its first await;
`awaits` says whether there is one. -/
structure Interpreted where
  host : Host
  outcome : Outcome
  awaits : Bool

variable (session : AgentSession)

namespace Host

variable (cfg : Daemon.Config) (h : Host) (session : AgentSession)

/-- The tail that the branches with a retry share. -/
def retryOrDispose (baseMs : ℕ) (now : Time) : Interpreted :=
  let (h, scheduled) := h.scheduleRetry cfg session baseMs now
  { host := h
    outcome :=
      if scheduled then .retry session.status.text else .dispose session.status.text
    awaits := true }

/-- The tail of the branches without one. -/
def disposed : Interpreted :=
  { host := h, outcome := .dispose session.status.text, awaits := true }

/-- The end reason and summary for the record. -/
def endReport : Registry.ReportUpdate where
  sessionEndReason := session.sessionEndReason.map endReasonText
  sessionEndSummary := some session.sessionEndSummary

/-- The marks of a failure that has no branch of its own. -/
def markGenericFailure (r : Registry) (session : AgentSession) (now : Time) : Registry :=
  let id := session.issueId
  let r := match truthy session.operatorFailureDetail with
    | some detail => (r.markFailedWithReason id detail now).updateReport id (endReport session) now
    | none => r.markFailed id now
  r.updateReport id (endReport session) now

def interpret (session : AgentSession) (now : Time) : Interpreted :=
  let id := session.issueId
  let marked := fun (r : Registry) => { h with registry := r }
  if id ∈ h.pendingReview then
    { host := h, outcome := .waitExternal "pending_review", awaits := false }
  else match session.status with
    | .completed =>
      { marked (h.registry.markCompleted id now) with completed := insert id h.completed }.disposed
        session
    | .verificationFailed =>
      (marked (h.registry.markVerificationFailed id session.verificationOutput
        session.lastHookError now)).retryOrDispose cfg session failureRetryBaseMs now
    | .agentTimeout =>
      let reason := ((truthy session.lastHookError).or (truthy session.verificationOutput)).getD
        "Agent run timed out"
      (marked (h.registry.markFailedWithReason id reason now)).retryOrDispose cfg session
        failureRetryBaseMs now
    | .maxTurnsExceeded =>
      (marked (h.registry.markFailed id now)).retryOrDispose cfg session cfg.maxTurnsRetryDelayMs now
    | .rateLimitCircuitOpen =>
      (marked (h.registry.markFailed id now)).retryOrDispose cfg session cfg.rateLimitMaxBackoffMs now
    -- the same agent would run into the same loop again, and an operator's stop is final
    | .stagnation | .loopDetected | .cancelled =>
      (marked (h.registry.markFailed id now)).disposed session
    | .released => { host := h, outcome := .dispose "released", awaits := false }
    | .running | .failed | .beforeRunFailed | .other _ =>
      (marked (markGenericFailure h.registry session now)).retryOrDispose cfg session
        failureRetryBaseMs now

end Host

/-! ## §2 Exceptions -/

/-- How the body of the try statement ends. -/
inductive Exit where
  | returned
  /-- The commit was made and what follows it failed; the cause, if a hook was to blame. -/
  | postCommitError (result : Registry.SyncUpdate) (output : Option String) (cause : Option String)
  | verificationFailed (output : Option String)
  | hookFailed (output : Option String) (error : String)
  /-- The handler looks at the workspace; no answer if that fails or is cancelled. -/
  | timeout (dirty : Option Bool) (reason : String)
  | cancelled
  | raised (ranAgent : Bool) (detail : String)

/-- The session in the exception handler. -/
def Exit.handle (shutdown : Bool) : Exit → AgentSession
  | .returned => session
  | .postCommitError _ output cause =>
    { session with
      status := .verificationFailed
      verificationStatus := some "failed"
      verificationOutput := output
      lastHookError := cause.or session.lastHookError }
  | .verificationFailed output =>
    { session with
      status := .verificationFailed
      verificationStatus := some "failed"
      verificationOutput := output }
  | .hookFailed output error =>
    { session with
      status := .verificationFailed
      verificationStatus := some "failed"
      verificationOutput := output
      lastHookError := some error }
  | .timeout none _ => session
  | .timeout (some dirty) reason =>
    { session with
      status := .agentTimeout
      verificationStatus := some "failed"
      verificationOutput := some reason
      diagnostics := { session.diagnostics with workspaceDirty := some dirty } }
  | .cancelled =>
    if shutdown then
      { session with
        status := .released
        sessionEndReason := some (.other "shutdown_released")
        sessionEndSummary := "daemon shutdown interrupted the run; issue requeued"
        verificationStatus := none
        verificationOutput := none }
    else
      { session with
        status := .cancelled
        sessionEndReason := some .operatorStopped
        sessionEndSummary := "cancelled by operator"
        verificationStatus := some "cancelled"
        verificationOutput := some "Operator requested stop" }
  | .raised ranAgent detail =>
    let status := if ranAgent then .failed else .beforeRunFailed
    { session with
      status := status
      sessionEndReason := some (.other status.text)
      sessionEndSummary := detail
      verificationStatus := some "failed"
      verificationOutput := some detail
      lastHookError := some detail
      operatorFailureDetail := some detail }

/-- The report that goes to the record after a commit. -/
def syncReport : Registry.ReportUpdate where
  reportPath := session.reportPath
  verificationStatus := session.verificationStatus
  verificationOutput := session.verificationOutput
  summaryCommentId := session.summaryCommentId
  sessionEndReason := session.sessionEndReason.map endReasonText
  sessionEndSummary := some session.sessionEndSummary

/-- What the exception handler does to the registry. -/
def Exit.record (session : AgentSession) (shutdown : Bool) (now : Time) (r : Registry) :
    Exit → Registry
  | .postCommitError result _ _ =>
    let id := session.issueId
    let r := r.updateReport id (syncReport session) now
    match session.runKind with
    | .agentFollowup | .reviewRetry =>
      match truthy result.commitSha with
      | none => r
      | some commitSha => r.modify id fun record =>
        { record with feedback := { record.feedback with
            lastFollowupCommitSha := some commitSha } }
    | .reviewFollowup => r
    | .issue => r.markSynced id result now
  | .verificationFailed _ =>
    if session.runKind = .reviewFollowup then
      r.incrementFeedbackFailure session.issueId session.feedbackIds now
    else r
  | .cancelled => if shutdown then r.markPending session.issueId now else r
  | .returned | .hookFailed _ _ | .timeout _ _ | .raised _ _ => r

/-! ## §3 The run -/

structure Run where
  /-- The task was not cancelled before it got the semaphore. -/
  entered : Bool := true
  /-- What the body and the other tasks have done to the registry. -/
  operations : List (Time × Operation) := []
  /-- The body left the issue for a human to review. -/
  holdsForReview : Bool := false
  /-- The session at the end of the body. -/
  session : AgentSession
  exit : Exit := .returned
  endedAt : Time
  /-- The task is cancelled at an await of the interpretation. -/
  cutOff : Bool := false

namespace Host

variable (cfg : Daemon.Config) (h : Host) (run : Run)

/-- The host and the session at the final block: the body is over, its exception is handled and
the diagnostics are written. -/
def reachFinally : Host × AgentSession :=
  let id := run.session.issueId
  let h := h.operate run.operations
  let h := if run.holdsForReview then
    { h with pendingReview := insert id h.pendingReview } else h
  let session := run.exit.handle run.session h.shutdown
  let registry := run.exit.record run.session h.shutdown run.endedAt h.registry
  let diagnostics := { session.diagnostics with
    runId := session.runId
    sessionEndReason := session.sessionEndReason.map endReasonText
    sessionEndSummary := some session.sessionEndSummary }
  ({ h with
    registry := registry.updateRunDiagnostics id diagnostics run.endedAt
    running := h.running.erase id }, session)

/-- Clean up the workspace and release the claim. -/
def release (id : IssueId) : Host := { h with claimed := h.claimed.erase id }

/-- Interpret the result and hand the outcome to the kernel. A cancellation ends the run. -/
def conclude (session : AgentSession) (now : Time) (cutOff : Bool) : Host :=
  let result := h.interpret cfg session now
  if result.awaits ∧ cutOff then result.host
  else
    { result.host with
      handed := result.host.handed ++ [(session.issueId, result.outcome)] }.release session.issueId

/-- The interpretation stands in the block that is only entered with a journal. -/
def runIssueBody : Host :=
  if run.entered then
    let (h, session) := h.reachFinally run
    if cfg.journal then h.conclude cfg session run.endedAt run.cutOff
    else h.release session.issueId
  else h

end Host

end Orchestratord.Issues
