import Orchestratord.Issues.Host

/-! # What a relaunch forgets

Every launch registers its issue again. The new record is made of the arguments and of what is
copied from the old one, and some of the bookkeeping of earlier runs is not copied; the ids of
the failed runs are part of it, so the session of a retry never sees them. -/

namespace Orchestratord.Issues

open Foundation
open Daemon (EndReason)
open Registry IssueRecord Option

/-! ## §1 The bookkeeping across runs -/

structure Bookkeeping where
  previousRunIds : List String
  attemptCount : ℕ
  retryCount : ℕ
  followupAttemptCount : ℕ
  rebaseAttemptCount : ℕ
  feedbackFailureCounts : Dict String ℕ
  processedFeedbackIds : List String
  pendingFeedbackIds : List String
  pendingFeedbackUrls : Dict String String
  pendingFeedbackSince : Option Time
  prNumber : Option String
  prUrl : Option String
  prState : Option String
  prCreatedAt : Option Time
  clarification : Clarification
  createdAt : Time

def IssueRecord.bookkeeping (record : IssueRecord) : Bookkeeping where
  previousRunIds := record.previousRunIds
  attemptCount := record.attemptCount
  retryCount := record.retryCount
  followupAttemptCount := record.feedback.followupAttemptCount
  rebaseAttemptCount := record.conflict.rebaseAttemptCount
  feedbackFailureCounts := record.feedback.failureCounts
  processedFeedbackIds := record.feedback.processedIds
  pendingFeedbackIds := record.feedback.pendingIds
  pendingFeedbackUrls := record.feedback.pendingUrls
  pendingFeedbackSince := record.feedback.pendingSince
  prNumber := record.prNumber
  prUrl := record.prUrl
  prState := record.prState
  prCreatedAt := record.prCreatedAt
  clarification := record.clarification
  createdAt := record.createdAt

/-- A change of the registry: one of its operations, or a caller that writes to a record. -/
inductive Change where
  | operate (now : Time) (operation : Operation)
  /-- A failed run is put on the record. -/
  | recordRun (id : IssueId) (runId : String)
  /-- The conflict scan keeps the state of the pull request. -/
  | cachePrState (id : IssueId) (state : String)
  | write (id : IssueId) (f : IssueRecord → IssueRecord)

def Registry.change (r : Registry) : Change → Registry
  | .operate now operation => r.operate now operation
  | .recordRun id runId => Host.recordRun r id runId
  | .cachePrState id state => r.modify id fun record => { record with prState := some state }
  | .write id f => r.modify id f

/-! ## §2 The record of a relaunch -/

variable {id : IssueId}

section

variable (r : Registry) (args : Registration) (fresh : String) (now : Time)

theorem get_register {existing : IssueRecord} (h : r.get args.issueId = some existing) :
    (r.register args fresh now).get args.issueId =
      some ((args.record existing.conversationId now).carryOver existing) := by
  unfold register
  rw [h]
  exact Dict.get_set_self _ _ _

theorem get_register_ne (h : id ≠ args.issueId) :
    (r.register args fresh now).get id = r.get id := by
  unfold register
  split
  all_goals exact Dict.get_set_ne _ _ h

end

/-- None of the five fields has been used, and the record is as old as the relaunch. -/
def IssueRecord.Untouched (record : IssueRecord) (now : Time) : Prop :=
  record.previousRunIds = [] ∧ record.attemptCount = 0 ∧ record.feedback.failureCounts = .empty ∧
    record.prState = none ∧ record.createdAt = now

theorem bookkeeping_carryOver_eq_iff (args : Registration) (now : Time) (existing : IssueRecord)
    (conversationId : Option String) :
    ((args.record conversationId now).carryOver existing).bookkeeping = existing.bookkeeping ↔
      existing.Untouched now := by
  constructor
  · intro h
    injection h with hru hat _ _ _ hfa _ _ _ _ _ _ hst _ _ hcr
    exact ⟨hru.symm, hat.symm, hfa.symm, hst.symm, hcr.symm⟩
  · rintro ⟨hru, hat, hfa, hst, hcr⟩
    simp [bookkeeping, Registration.record, carryOver, hru, hat, hfa, hst, hcr]

/-- A relaunch keeps the bookkeeping of its issue if and only if there was nothing to keep in the
fields that it does not copy. -/
theorem register_keeps_bookkeeping_iff (loaded : Registry) (changes : List Change)
    (args : Registration) (fresh : String) (now : Time) (existing : IssueRecord)
    (hreached : (runFrom change loaded changes).get args.issueId = some existing) :
    (((runFrom change loaded changes).register args fresh now).get args.issueId).map
        bookkeeping = some existing.bookkeeping ↔ existing.Untouched now := by
  rw [get_register _ args fresh now hreached, map_some, some_inj]
  exact bookkeeping_carryOver_eq_iff args now existing _

/-- A candidate that is registered twice in one poll. -/
theorem candidate_registered_twice :
    let args : Registration := { issueId := "7", issueIdentifier := "org/repo#7" }
    let r := runFrom change .empty [.operate 5 (.register args "c1")]
    ((r.register args "c2" 5).get "7").map bookkeeping =
      some (args.record (some "c1") 5).bookkeeping :=
  (register_keeps_bookkeeping_iff .empty
    [.operate 5 (.register { issueId := "7", issueIdentifier := "org/repo#7" } "c1")]
    { issueId := "7", issueIdentifier := "org/repo#7" } "c2" 5 _ rfl).mpr
    ⟨rfl, rfl, rfl, rfl, rfl⟩

/-- A failed attempt with a failed review, relaunched. -/
theorem failed_attempt_forgotten :
    let args : Registration := { issueId := "7", issueIdentifier := "org/repo#7" }
    let r := runFrom change .empty
      [.operate 5 (.register args "c1"), .operate 6 (.inPlace "7" (.incrementFeedbackFailure ["f1"])),
        .operate 7 (.inPlace "7" .markFailed), .recordRun "7" "run-1", .cachePrState "7" "open"]
    let fields := fun (record : IssueRecord) => (record.previousRunIds, record.attemptCount,
      record.feedback.failureCounts.get "f1", record.prState, record.createdAt)
    (r.get "7").map fields = some (["run-1"], 1, some 1, some "open", 5) ∧
      ((r.register args "c2" 9).get "7").map fields = some ([], 0, none, none, 9) ∧
      ((r.register args "c2" 9).get "7").map bookkeeping ≠ (r.get "7").map bookkeeping := by
  refine ⟨by decide, by decide, fun h => ?_⟩
  have hco := congrArg (Option.map Bookkeeping.attemptCount) h
  exact absurd hco (by decide)

/-! ## §3 The ids of earlier runs -/

/-- No earlier run is on the record of the issue. -/
def NoRuns (id : IssueId) (r : Registry) : Prop :=
  ∀ record, r.get id = some record → record.previousRunIds = []

section

variable {r : Registry} {f : IssueRecord → IssueRecord}

variable (h : NoRuns id r)

include h

variable (other : IssueId)

theorem NoRuns.modify (hf : ∀ record, (f record).previousRunIds = record.previousRunIds) :
    NoRuns id (r.modify other f) := by
  intro record hget
  rw [Dict.get_modify] at hget
  split at hget
  · obtain ⟨old, hold, rfl⟩ := map_eq_some_iff.mp hget
    rw [hf, h old hold]
  · exact h record hget

variable (now : Time)

theorem NoRuns.edit (hf : ∀ record, (f record).previousRunIds = record.previousRunIds) :
    NoRuns id (r.edit other now f) :=
  h.modify other hf

/-- What an operation does in place does not touch the ids of earlier runs. -/
theorem NoRuns.changeInPlace
    (operation : InPlace) : NoRuns id (r.changeInPlace other now operation) := by
  cases operation with
  | clearRetryPlan =>
    refine h.modify other fun record => ?_
    split <;> rfl
  | clearStalePending =>
    refine h.modify other fun record => ?_
    split
    case h_3 => split <;> rfl
    all_goals rfl
  | _ => exact h.edit other now fun _ => rfl

omit h in
/-- A registered issue starts without earlier runs. -/
theorem noRuns_register_self (r : Registry) (args : Registration) (fresh : String) (now : Time) :
    NoRuns args.issueId (r.register args fresh now) := by
  intro _ hget
  unfold register at hget
  split at hget
  all_goals
    rw [Dict.get_set_self] at hget
    cases hget
    rfl

theorem NoRuns.register (args : Registration) (fresh : String) (now : Time) :
    NoRuns id (r.register args fresh now) := by
  by_cases heq : id = args.issueId
  · subst heq
    exact noRuns_register_self r args fresh now
  · intro record hget
    rw [get_register_ne r args fresh now heq] at hget
    exact h record hget

theorem NoRuns.operate (operation : Operation) : NoRuns id (r.operate now operation) := by
  cases operation with
  | register args fresh => exact h.register args fresh now
  | inPlace other operation => exact h.changeInPlace other now operation

theorem NoRuns.run (operations : List (Time × Operation)) :
    NoRuns id (runFrom (fun r o => .operate r o.1 o.2) r operations) :=
  Guarded.always (fun _ o h => h.operate o.1 o.2) h _

end

/-- Whatever the record held before it, a launch hands no run ids to its session. -/
theorem launch_previousRunIds (h : Host) (l : Host.Launch) :
    (h.launch l).2.previousRunIds = [] := by
  have hno : NoRuns l.registration.issueId (h.prepareLaunch l).registry :=
    (noRuns_register_self h.registry l.registration l.fresh l.registeredAt).run l.meanwhile
  have hde := hno.modify l.registration.issueId (f := fun record => { record with
      collaborationMode := l.mode
      modeDecisionReason := some l.modeReason
      updatedAt := l.decoratedAt }) fun _ => rfl
  dsimp only [Host.launch, Host.postVizGate]
  split
  · rfl
  case h_2 record hget =>
    rw [if_pos (hde record hget)]
    rfl

/-! ## §4 Retries in a row -/

/-- An attempt that fails and is retried. -/
structure Attempt where
  runId : String
  status : SessionStatus
  endReason : Option EndReason := none
  /-- What the run and the other tasks do to the registry until the retry is scheduled, -/
  ending : List (Time × Operation) := []
  baseMs : ℕ
  failedAt : Time
  /-- and from then to the launch. -/
  waiting : List (Time × Operation) := []
  launch : Host.Launch

/-- The attempt's session fails, and the retry it schedules is launched. -/
def Host.retry (cfg : Daemon.Config) (h : Host) (session : AgentSession) (a : Attempt) :
    Option (Host × AgentSession) :=
  let failed := { session with
    runId := some a.runId
    status := a.status
    sessionEndReason := a.endReason }
  let (h, scheduled) := (h.operate a.ending).scheduleRetry cfg failed a.baseMs a.failedAt
  if scheduled then
    let registration := { a.launch.registration with issueId := session.issueId }
    some ((h.operate a.waiting).launch { a.launch with registration })
  else none

/-- The session after the attempts have failed one after the other, if all were retried. -/
def Host.retries (cfg : Daemon.Config) : Host → AgentSession → List Attempt →
    Option (Host × AgentSession)
  | h, session, [] => some (h, session)
  | h, session, a :: rest => (h.retry cfg session a).bind fun next => next.1.retries cfg next.2 rest

variable {cfg : Daemon.Config} {h last : Host} {session next : AgentSession}

theorem retry_previousRunIds
    {a : Attempt} (hre : h.retry cfg session a = some (last, next)) : next.previousRunIds = [] := by
  dsimp only [Host.retry] at hre
  split at hre
  · have hne := congrArg (·.2.previousRunIds) (some.inj hre)
    exact hne.symm.trans (launch_previousRunIds _ _)
  · cases hre

theorem retries_previousRunIds {attempts : List Attempt} (hfi : session.previousRunIds = [])
    (hrun : h.retries cfg session attempts = some (last, next)) : next.previousRunIds = [] := by
  -- along the attempts: each launch starts again without ids
  induction attempts generalizing h session with
  | nil =>
    cases hrun
    exact hfi
  | cons _ _ ih =>
    obtain ⟨⟨_, _⟩, hre, hrs⟩ := bind_eq_some_iff.mp hrun
    exact ih (retry_previousRunIds hre) hrs

/-- After failed attempts that were all retried, the session carries the ids of the earlier runs
only when there are none. -/
theorem session_carries_run_ids_iff (cfg : Daemon.Config) (h last : Host) (first : Host.Launch)
    (attempts : List Attempt) (session : AgentSession)
    (hrun : (h.launch first).1.retries cfg (h.launch first).2 attempts = some (last, session)) :
    session.previousRunIds = attempts.map (·.runId) ↔ attempts = [] := by
  rw [retries_previousRunIds (launch_previousRunIds h first) hrun]
  constructor
  · intro h
    exact List.map_eq_nil_iff.mp h.symm
  · rintro rfl
    rfl

section

/-- The launch of an issue that nothing holds back. -/
def plainLaunch (now : Time) : Host.Launch where
  registration := { issueId := "7", issueIdentifier := "org/repo#7" }
  fresh := "c1"
  registeredAt := now
  decoratedAt := now
  startedAt := now

def emptyHost : Host := { registry := .empty }

theorem first_session_carries_none :
    ((emptyHost.launch (plainLaunch 1)).2.previousRunIds = [] ↔ ([] : List Attempt) = []) :=
  session_carries_run_ids_iff {} emptyHost (emptyHost.launch (plainLaunch 1)).1 (plainLaunch 1) []
    (emptyHost.launch (plainLaunch 1)).2 rfl

/-- A run that fails and is retried. -/
def failedOnce : Attempt where
  runId := "run-1"
  status := .failed
  ending := [(2, .inPlace "7" .markFailed)]
  baseMs := 10000
  failedAt := 2
  launch := plainLaunch 20000

/-- The run was put on the record when its retry was scheduled, and the session of the retry does
not have it. -/
theorem retry_without_failed_run : let started := emptyHost.launch (plainLaunch 1)
    let failed := (started.1.operate failedOnce.ending).scheduleRetry {}
      { started.2 with runId := some "run-1", status := .failed } 10000 2
    (failed.1.registry.get "7").map (·.previousRunIds) = some ["run-1"] ∧
      (started.1.retries {} started.2 [failedOnce]).map (·.2.previousRunIds) = some [] := by
  constructor
  · decide
  · decide

end

end Orchestratord.Issues
