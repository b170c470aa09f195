import Orchestratord.Daemon.Orchestrator
import Orchestratord.Issues.Record

/-! # Sessions and their host

The state that the end of a run and its relaunch work on: the registry, the retry queue and the
sets of issues the daemon keeps in memory. Events, telemetry and the dashboard are left out. -/

namespace Orchestratord.Issues

open Foundation
open Daemon (IssueStatus RetryItem EndReason computeRetryDelay failureRetryBaseMs)

/-! ## §1 Sessions -/

inductive RunKind where
  | issue
  | agentFollowup
  | reviewFollowup
  | reviewRetry
  deriving DecidableEq

inductive SessionStatus where
  | running
  | completed
  | verificationFailed
  | agentTimeout
  | maxTurnsExceeded
  | rateLimitCircuitOpen
  | stagnation
  | loopDetected
  | cancelled
  | released
  | failed
  | beforeRunFailed
  /-- A status that only a runner knows. -/
  | other (text : String)
  deriving DecidableEq

def SessionStatus.text : SessionStatus → String
  | .running => "running"
  | .completed => "completed"
  | .verificationFailed => "verification_failed"
  | .agentTimeout => "agent_timeout"
  | .maxTurnsExceeded => "max_turns_exceeded"
  | .rateLimitCircuitOpen => "rate_limit_circuit_open"
  | .stagnation => "stagnation"
  | .loopDetected => "loop_detected"
  | .cancelled => "cancelled"
  | .released => "released"
  | .failed => "failed"
  | .beforeRunFailed => "before_run_failed"
  | .other text => text

def endReasonText : EndReason → String
  | .operatorStop => "operator_stop"
  | .operatorTakeover => "operator_takeover"
  | .operatorStopped => "operator_stopped"
  | .other text => text

structure AgentSession where
  issueId : IssueId
  runKind : RunKind := .issue
  runId : Option String := none
  status : SessionStatus := .running
  sessionEndReason : Option EndReason := none
  sessionEndSummary : String := ""
  verificationStatus : Option String := none
  verificationOutput : Option String := none
  lastHookError : Option String := none
  operatorFailureDetail : Option String := none
  reportPath : Option String := none
  summaryCommentId : Option String := none
  feedbackIds : List String := []
  attempt : ℕ := 1
  previousRunIds : List String := []
  previousVerificationError : Option String := none
  clarificationAnswer : Option String := none
  clarificationSource : Option String := none
  collaborationMode : String := "single"
  /-- The counters of the run. -/
  diagnostics : Registry.DiagnosticsUpdate := {}

/-! ## §2 The host -/

inductive Outcome where
  | dispose (reason : String)
  | retry (reason : String)
  | waitExternal (reason : String)
  deriving DecidableEq

structure Host where
  registry : Registry
  running : Finset IssueId := ∅
  completed : Finset IssueId := ∅
  pendingReview : Finset IssueId := ∅
  claimed : Finset IssueId := ∅
  retryQueue : List RetryItem := []
  retryAttempts : IssueId → ℕ := fun _ => 0
  /-- The daemon is shutting down. -/
  shutdown : Bool := false
  /-- The outcomes that were handed to the kernel. -/
  handed : List (IssueId × Outcome) := []

namespace Host

variable (cfg : Daemon.Config) (h : Host)

def operate (operations : List (Time × Operation)) : Host :=
  { h with registry := runFrom (fun r o => r.operate o.1 o.2) h.registry operations }

def statusOf (id : IssueId) : Option IssueStatus := h.registry.statusOf id

/-- The id of the failed run is put on the record, once. -/
def recordRun (r : Registry) (id : IssueId) (runId : String) : Registry :=
  r.modify id fun record =>
    if runId ∈ record.previousRunIds then record
    else { record with previousRunIds := record.previousRunIds ++ [runId] }

/-- A run without an id leaves no trace. -/
def recordFailedRun (r : Registry) (session : AgentSession) : Registry :=
  match truthy session.runId with
  | none => r
  | some runId => recordRun r session.issueId runId

variable (session : AgentSession)

/-- Schedule a retry; the answer is whether one was queued. -/
def scheduleRetry (baseMs : ℕ) (now : Time) : Host × Bool :=
  let id := session.issueId
  if session.sessionEndReason.any (·.nonRetryable) then
    ({ h with claimed := h.claimed.erase id }, false)
  else
    let attempt := h.retryAttempts id + 1
    let h := { h with
      retryAttempts := Function.update h.retryAttempts id attempt
      registry := recordFailedRun h.registry session }
    if cfg.maxRetryAttempts ≠ 0 ∧ cfg.maxRetryAttempts < attempt then
      ({ h with
        claimed := h.claimed.erase id
        registry := h.registry.markAbandoned id now }, false)
    else
      let delay := computeRetryDelay attempt baseMs cfg.maxRetryBackoffMs
      ({ h with
        retryQueue := h.retryQueue ++ [{ dedupKey := id, attempt, delay, scheduledAt := now }]
        registry := h.registry.persistRetryPlan id attempt (now + delay) now }, true)

/-! ## §3 Launching -/

/-- What the outside world answers during a launch that comes to its end. -/
structure Launch where
  registration : Registration
  /-- A conversation id nobody has. -/
  fresh : String
  registeredAt : Time
  /-- What the other tasks do to the registry while the tracker is asked about the issue. -/
  meanwhile : List (Time × Operation) := []
  /-- The mode selector's decision. -/
  mode : String := "single"
  modeReason : String := ""
  decoratedAt : Time
  startedAt : Time

variable (l : Launch)

/-- The registration part of `prepare_launch`. -/
def prepareLaunch : Host :=
  { h with registry := h.registry.register l.registration l.fresh l.registeredAt }.operate l.meanwhile

/-- Clarification, attempt and mode of the new session; the record is told the mode. -/
def decorateSession : Host × AgentSession :=
  let record := h.registry.get session.issueId
  let answer := truthy (record.bind (·.clarification.localAnswer))
  ({ h with registry := h.registry.edit session.issueId l.decoratedAt fun record =>
    { record with
      collaborationMode := l.mode
      modeDecisionReason := some l.modeReason } },
   { session with
     clarificationAnswer := answer.or session.clarificationAnswer
     clarificationSource :=
       if answer.isSome then record.bind (·.clarification.localAnswerSource)
       else session.clarificationSource
     attempt := h.retryAttempts session.issueId + 1
     collaborationMode := l.mode })

/-- The part of `post_viz_gate` that a session goes through: what earlier runs left for it. -/
def postVizGate : AgentSession :=
  match h.registry.get session.issueId with
  | none => session
  | some record =>
    { session with
      previousRunIds :=
        if record.previousRunIds = [] then session.previousRunIds else record.previousRunIds
      previousVerificationError := (truthy record.verificationOutput).or record.lastHookError }

/-- A launch that no check holds back. -/
def launch : Host × AgentSession :=
  let id := l.registration.issueId
  let h := h.prepareLaunch l
  let (h, session) := h.decorateSession { issueId := id } l
  let session := h.postVizGate session
  ({ h with
    running := insert id h.running
    registry := h.registry.markRunning id l.startedAt }, session)

end Host

end Orchestratord.Issues
