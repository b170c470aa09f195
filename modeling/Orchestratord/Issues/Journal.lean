import Orchestratord.Issues.RunBody

/-! # Runs with and without a journal

The dashboard journal is meant to have no influence. The result of a run is only interpreted when
there is a journal, so two daemons that differ in nothing else agree on a run only where the
interpretation has nothing to change and never gets to hand over its outcome. -/

namespace Orchestratord.Issues

open Foundation
open Daemon (IssueStatus RetryItem EndReason failureRetryBaseMs)
open Registry Host

/-! ## §1 The status of a record -/

namespace Registry

variable (r : Registry) (id : IssueId) (now : Time)

theorem statusOf_modify (f : IssueRecord → IssueRecord) :
    statusOf (r.modify id f) id = (r.get id).map fun record => (f record).status := by
  rw [statusOf, Dict.get_modify_self, Option.map_map]
  rfl

variable {f : IssueRecord → IssueRecord}

/-- An operation that sets the status. -/
theorem statusOf_edit_const {status : IssueStatus} (hf : ∀ record, (f record).status = status) :
    statusOf (r.edit id now f) id = (r.statusOf id).map fun _ => status := by
  rw [edit, statusOf_modify, statusOf, Option.map_map]
  congr 1
  ext record
  exact hf record

/-- An operation that keeps it. -/
theorem statusOf_edit_same (hf : ∀ record, (f record).status = record.status) :
    statusOf (r.edit id now f) id = r.statusOf id := by
  rw [edit, statusOf_modify]
  congr 1
  ext record
  exact hf record

@[simp] theorem statusOf_markFailed :
    statusOf (r.markFailed id now) id = (r.statusOf id).map fun _ => .failed :=
  r.statusOf_edit_const id now fun _ => rfl

@[simp] theorem statusOf_markFailedWithReason (reason : String) :
    statusOf (r.markFailedWithReason id reason now) id = (r.statusOf id).map fun _ => .failed :=
  r.statusOf_edit_const id now fun _ => rfl

@[simp] theorem statusOf_markVerificationFailed (output hoo : Option String) :
    statusOf (r.markVerificationFailed id output hoo now) id =
      (r.statusOf id).map fun _ => .verificationFailed :=
  r.statusOf_edit_const id now fun _ => rfl

@[simp] theorem statusOf_markCompleted :
    statusOf (r.markCompleted id now) id = (r.statusOf id).map fun _ => .completed :=
  r.statusOf_edit_const id now fun _ => rfl

@[simp] theorem statusOf_markAbandoned :
    statusOf (r.markAbandoned id now) id = (r.statusOf id).map fun _ => .abandoned :=
  r.statusOf_edit_const id now fun _ => rfl

@[simp] theorem statusOf_updateReport (u : ReportUpdate) :
    statusOf (r.updateReport id u now) id = r.statusOf id :=
  r.statusOf_edit_same id now fun _ => rfl

end Registry

variable {cfg : Daemon.Config} {h : Host} {session : AgentSession} {baseMs : ℕ} {now : Time}

namespace Host

/-! ## §2 What a retry changes -/

/-- The retry limit is used up. -/
def limitReached (cfg : Daemon.Config) (h : Host) (id : IssueId) : Bool :=
  cfg.maxRetryAttempts ≠ 0 ∧ cfg.maxRetryAttempts < h.retryAttempts id + 1

def stoppedByOperator (session : AgentSession) : Bool :=
  session.sessionEndReason.any (·.nonRetryable)

theorem statusOf_recordFailedRun (r : Registry) :
    (recordFailedRun r session).statusOf session.issueId = r.statusOf session.issueId := by
  unfold recordFailedRun
  split
  · rfl
  rw [recordRun, statusOf_modify]
  congr 1
  ext record
  split <;> rfl

theorem scheduleRetry_stopped (hst : stoppedByOperator session = true) :
    h.scheduleRetry cfg session baseMs now =
      ({ h with claimed := h.claimed.erase session.issueId }, false) := by
  exact if_pos hst

/-- Beyond the limit the issue is abandoned. -/
theorem scheduleRetry_limit (hst : stoppedByOperator session = false)
    (hli : limitReached cfg h session.issueId = true) :
    (h.scheduleRetry cfg session baseMs now).1.retryQueue = h.retryQueue ∧
      (h.scheduleRetry cfg session baseMs now).1.statusOf session.issueId =
        (h.statusOf session.issueId).map fun _ => .abandoned := by
  unfold scheduleRetry
  rw [if_neg (by rw [stoppedByOperator] at hst; simp [hst])]
  rw [if_pos (by simpa [limitReached] using hli)]
  refine ⟨rfl, ?_⟩
  simp only [statusOf, statusOf_markAbandoned, statusOf_recordFailedRun]

theorem scheduleRetry_queued (hst : stoppedByOperator session = false)
    (hli : limitReached cfg h session.issueId = false) :
    ∃ item, (h.scheduleRetry cfg session baseMs now).1.retryQueue = h.retryQueue ++ [item] := by
  unfold scheduleRetry
  rw [if_neg (by rw [stoppedByOperator] at hst; simp [hst])]
  rw [if_neg (by simpa [limitReached] using hli)]
  exact ⟨_, rfl⟩

theorem scheduleRetry_handed : (h.scheduleRetry cfg session baseMs now).1.handed = h.handed := by
  unfold scheduleRetry
  split
  · rfl
  · dsimp only
    split <;> rfl

end Host

/-! ## §3 What an interpretation changes -/

/-- The statuses whose branch asks for a retry. -/
def SessionStatus.retriable : SessionStatus → Bool
  | .completed | .stagnation | .loopDetected | .cancelled | .released => false
  | .verificationFailed | .agentTimeout | .maxTurnsExceeded | .rateLimitCircuitOpen | .running
  | .failed | .beforeRunFailed | .other _ => true

/-- The mark of the branch. -/
def SessionStatus.mark : SessionStatus → IssueStatus
  | .completed => .completed
  | .verificationFailed => .verificationFailed
  | .stagnation | .loopDetected | .cancelled | .released | .agentTimeout | .maxTurnsExceeded
  | .rateLimitCircuitOpen | .running | .failed | .beforeRunFailed | .other _ => .failed

namespace Host

/-- The run is to be tried again. -/
def willRetry (cfg : Daemon.Config) (h : Host) (session : AgentSession) : Bool :=
  session.status.retriable && !stoppedByOperator session && !limitReached cfg h session.issueId

/-- The status that the interpretation leaves when there is no retry. -/
def endStatus (cfg : Daemon.Config) (h : Host) (session : AgentSession) : IssueStatus :=
  if session.status.retriable && !stoppedByOperator session && limitReached cfg h session.issueId
  then .abandoned else session.status.mark

/-- The result of an interpretation of a run that is over. -/
structure Concluded (cfg : Daemon.Config) (h : Host) (session : AgentSession) (result : Interpreted) :
    Prop where
  awaits : result.awaits = true
  handed : result.host.handed = h.handed
  retry : willRetry cfg h session = true → ∃ item, result.host.retryQueue = h.retryQueue ++ [item]
  queue : willRetry cfg h session = false → result.host.retryQueue = h.retryQueue
  status : willRetry cfg h session = false → result.host.statusOf session.issueId =
    (h.statusOf session.issueId).map fun _ => endStatus cfg h session

variable {r : Registry}

/-- A branch that only marks the record. -/
theorem concluded_disposed {completed : Finset IssueId}
    (hre : session.status.retriable = false) (hma : r.statusOf session.issueId =
      (h.statusOf session.issueId).map fun _ => session.status.mark) :
    Concluded cfg h session ({ h with registry := r, completed := completed }.disposed session) where
  awaits := rfl
  handed := rfl
  retry hwi := by simp [willRetry, hre] at hwi
  queue _ := rfl
  status _ := by
    simp only [endStatus, hre]
    exact hma

/-- A branch that marks the record and asks for a retry. -/
theorem concluded_retryOrDispose
    (hre : session.status.retriable = true) (hma : r.statusOf session.issueId =
      (h.statusOf session.issueId).map fun _ => session.status.mark) : Concluded cfg h session
      ({ h with registry := r }.retryOrDispose cfg session baseMs now) := by
  cases hst : stoppedByOperator session with
  | true =>
    refine ⟨rfl, scheduleRetry_handed, ?_, ?_, ?_⟩
    · simp [willRetry, hst]
    · intro _
      exact congrArg (·.1.retryQueue) (scheduleRetry_stopped hst)
    intro _
    simp only [endStatus, hst, Bool.not_true, Bool.and_false, Bool.false_and,
      Bool.false_eq_true, if_false]
    rw [← hma]
    exact congrArg (·.1.statusOf session.issueId) (scheduleRetry_stopped hst)
  | false =>
    cases hli : limitReached cfg h session.issueId with
    | true =>
      have hsp : ({ h with registry := r }.scheduleRetry cfg session baseMs now).1.retryQueue =
          h.retryQueue ∧
          ({ h with registry := r }.scheduleRetry cfg session baseMs now).1.statusOf
            session.issueId = (r.statusOf session.issueId).map fun _ => .abandoned :=
        scheduleRetry_limit hst hli
      refine ⟨rfl, scheduleRetry_handed, ?_, fun _ => hsp.1, fun _ => ?_⟩
      · simp [willRetry, hli]
      simp only [endStatus, hre, hst, hli]
      apply hsp.2.trans
      rw [hma, Option.map_map]
      rfl
    | false =>
      refine ⟨rfl, scheduleRetry_handed, fun _ => scheduleRetry_queued hst hli, ?_, ?_⟩
      all_goals simp [willRetry, hre, hst, hli]

theorem statusOf_markGenericFailure (r : Registry) :
    (markGenericFailure r session now).statusOf session.issueId =
      (r.statusOf session.issueId).map fun _ => .failed := by
  unfold markGenericFailure
  rw [statusOf_updateReport]
  split
  · rw [statusOf_updateReport, statusOf_markFailedWithReason]
  · rw [statusOf_markFailed]

theorem interpret_concluded (hrv : session.issueId ∉ h.pendingReview)
    (hre : session.status ≠ .released) :
    Concluded cfg h session (h.interpret cfg session now) := by
  unfold interpret
  rw [if_neg hrv]
  cases hst : session.status with
  | released => exact absurd hst hre
  | completed | stagnation | loopDetected | cancelled =>
    exact concluded_disposed (by rw [hst]; rfl) (by rw [hst]; simp [statusOf, SessionStatus.mark])
  | verificationFailed | agentTimeout | maxTurnsExceeded | rateLimitCircuitOpen =>
    exact concluded_retryOrDispose (by rw [hst]; rfl)
      (by rw [hst]; simp [statusOf, SessionStatus.mark])
  | running | failed | beforeRunFailed | other =>
    exact concluded_retryOrDispose (by rw [hst]; rfl)
      (by rw [hst]; exact statusOf_markGenericFailure h.registry)

/-- A run that waits for a review or was released is left alone. -/
theorem interpret_left_alone
    (hal : session.issueId ∈ h.pendingReview ∨ session.status = .released) :
    (h.interpret cfg session now).host = h ∧ (h.interpret cfg session now).awaits = false := by
  dsimp only [interpret]
  split
  · exact ⟨rfl, rfl⟩
  case isFalse hrv => rw [hal.resolve_left hrv]; exact ⟨rfl, rfl⟩

end Host

/-! ## §4 Two daemons -/

/-- With and without a journal the run has one result, and it is over. -/
def Undisturbed (cfg : Daemon.Config) (h : Host) (run : Run) : Prop :=
  let id := run.session.issueId
  let written := h.runIssueBody { cfg with journal := true } run
  let silent := h.runIssueBody { cfg with journal := false } run
  written.statusOf id = silent.statusOf id ∧ written.retryQueue = silent.retryQueue ∧
    written.handed = silent.handed ∧ written.statusOf id ≠ some .running ∧
    silent.statusOf id ≠ some .running

/-- The interpretation is cut off before its outcome is handed over, there is no retry to queue,
and the record already has the status that it would get. -/
def NothingToDo (cfg : Daemon.Config) (h : Host) (session : AgentSession) (cutOff : Bool) : Prop :=
  cutOff = true ∧ session.issueId ∉ h.pendingReview ∧ session.status ≠ .released ∧
    h.willRetry cfg session = false ∧
    (h.statusOf session.issueId = none ∨
      h.statusOf session.issueId = some (h.endStatus cfg session))

theorem handle_issueId (session : AgentSession) (shutdown : Bool) (exit : Exit) :
    (exit.handle session shutdown).issueId = session.issueId := by
  cases exit with
  | timeout dirty => cases dirty <;> rfl
  | cancelled => cases shutdown <;> rfl
  | returned | postCommitError | verificationFailed | hookFailed | raised => rfl

section

variable {cutOff : Bool}

theorem endStatus_ne_running : h.endStatus cfg session ≠ .running := by
  unfold endStatus
  split
  · decide
  · cases session.status <;> exact IssueStatus.noConfusion

/-- An outcome that is handed over shows. -/
theorem conclude_handed_ne (hha : ¬ ((h.interpret cfg session now).awaits = true ∧ cutOff = true))
    (hsa : (h.interpret cfg session now).host.handed = h.handed) :
    (h.conclude cfg session now cutOff).handed ≠ h.handed := by
  unfold conclude
  rw [if_neg hha]
  intro heq
  have hle := congrArg List.length heq
  simp [release, hsa] at hle

theorem conclude_same_iff (now : Time) :
    ((h.conclude cfg session now cutOff).statusOf session.issueId = h.statusOf session.issueId ∧
      (h.conclude cfg session now cutOff).retryQueue = h.retryQueue ∧
      (h.conclude cfg session now cutOff).handed = h.handed ∧
      (h.conclude cfg session now cutOff).statusOf session.issueId ≠ some .running) ↔
    NothingToDo cfg h session cutOff := by
  by_cases hal : session.issueId ∈ h.pendingReview ∨ session.status = .released
  · obtain ⟨hho, haw⟩ : (h.interpret cfg session now).host = h ∧
        (h.interpret cfg session now).awaits = false := interpret_left_alone hal
    constructor
    · rintro ⟨-, -, hha, -⟩
      exact absurd hha (conclude_handed_ne (by simp [haw]) (by rw [hho]))
    · rintro ⟨-, hrv, hre, -⟩
      exact absurd hal (not_or.mpr ⟨hrv, hre⟩)
  · obtain ⟨hrv, hre⟩ := not_or.mp hal
    have hsp : Host.Concluded cfg h session (h.interpret cfg session now) :=
      interpret_concluded hrv hre
    cases cutOff with
    | false =>
      constructor
      · rintro ⟨-, -, hha, -⟩
        exact absurd hha (conclude_handed_ne (by simp) hsp.handed)
      · rintro ⟨hcut, -⟩
        cases hcut
    | true =>
      have hco : h.conclude cfg session now true = (h.interpret cfg session now).host :=
        if_pos ⟨hsp.awaits, rfl⟩
      rw [hco]
      constructor
      · rintro ⟨hst, hqu, -, hru⟩
        have hwi : h.willRetry cfg session = false := by
          by_contra hwi
          obtain ⟨item, him⟩ := hsp.retry (by simpa using hwi)
          rw [him] at hqu
          simpa using congrArg List.length hqu
        refine ⟨rfl, hrv, hre, hwi, ?_⟩
        have hend := hsp.status hwi
        rw [hst] at hend
        cases hold : h.statusOf session.issueId with
        | none => exact .inl rfl
        | some =>
          rw [hold] at hend
          exact .inr hend
      · rintro ⟨-, -, -, hwi, hst⟩
        refine ⟨?_, hsp.queue hwi, hsp.handed, ?_⟩
        · rw [hsp.status hwi]
          rcases hst with hno | hso
          · rw [hno]
            rfl
          · rw [hso]
            rfl
        · rw [hsp.status hwi]
          intro hru
          obtain ⟨_, -, hend⟩ := Option.map_eq_some_iff.mp hru
          exact endStatus_ne_running hend

end

/-- Where the journal has no influence on the result of a run: the run never got to its body and
its record was not running either, or there was nothing to do for the interpretation. -/
theorem undisturbed_iff (cfg : Daemon.Config) (h : Host) (run : Run) : Undisturbed cfg h run ↔
      if run.entered then
        NothingToDo { cfg with journal := true } (h.reachFinally run).1 (h.reachFinally run).2
          run.cutOff
      else h.statusOf run.session.issueId ≠ some .running := by
  unfold Undisturbed runIssueBody
  cases run.entered with
  | false =>
    constructor
    · rintro ⟨-, -, -, hru, -⟩
      exact hru
    · intro hru
      exact ⟨rfl, rfl, rfl, hru, hru⟩
  | true =>
    have hid : (h.reachFinally run).2.issueId = run.session.issueId := handle_issueId _ _ _
    rw [← conclude_same_iff run.endedAt, ← hid]
    -- without a journal the run keeps what the body left
    constructor
    · rintro ⟨hst, hqu, hha, hru, -⟩
      exact ⟨hst, hqu, hha, hru⟩
    · rintro ⟨hst, hqu, hha, hru⟩
      exact ⟨hst, hqu, hha, hru, fun h => hru (hst.trans h)⟩

section

/-- A daemon with one issue that is being worked on. -/
def busyHost : Host where
  registry := (register .empty { issueId := "7", issueIdentifier := "org/repo#7" } "c1"
    1).markRunning "7" 2
  running := {"7"}
  claimed := {"7"}

/-- Its run ends well. -/
def completedRun : Run where
  session := { issueId := "7", runId := some "run-1", status := .completed }
  endedAt := 9

/-- With a journal the issue is completed, without one it stays running. -/
theorem completed_run_left_running :
    ((busyHost.runIssueBody { journal := true } completedRun).statusOf "7",
      (busyHost.runIssueBody { journal := true } completedRun).handed) =
        (some .completed, [("7", .dispose "completed")]) ∧
    ((busyHost.runIssueBody { journal := false } completedRun).statusOf "7",
      (busyHost.runIssueBody { journal := false } completedRun).handed) = (some .running, []) ∧
    ¬ Undisturbed {} busyHost completedRun := by
  refine ⟨by decide, by decide, ?_⟩
  rintro ⟨-, -, -, -, hru⟩
  exact absurd (by decide) hru

end

end Orchestratord.Issues
