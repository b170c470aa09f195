import Orchestratord.Dispatch.Candidates

/-! # One issue does not block the others

An exception while one issue is handled should cost that issue its turn and nothing else: the
poll looks at the candidates after it, and no claim outlives its launch without a run. Most
calls are guarded that way. Four are not, and the review follow-up that finds nothing to do
returns without giving the claim back. -/

namespace Orchestratord.Dispatch

open Foundation
open Daemon (IssueId IssueStatus Intent IntentSource Registry RunKind TaskId Session)
open Commands (Command)
open List

/-! ## Claims -/

/-- The loop has looked at everything or has used up its slots. -/
def Loop.Over {α : Type} (loop : Loop α) : Prop :=
  loop.rest = [] ∨ loop.availableSlots ≤ loop.launched

/-- The part of the state that decides about claims. -/
structure Claims where
  claimed : Finset IssueId
  sessions : List Session
  finishing : List IssueId
  poll : Loop Issue

variable {c : Claims}

namespace Claims

/-- A run of the issue is there to give the claim back: its agent runs, or its task cleans up. -/
def HasRun (c : Claims) (id : IssueId) : Prop :=
  (∃ session ∈ c.sessions, session.issueId = id ∧ session.runKind ≠ .agentRebase) ∨ id ∈ c.finishing

/-- Every claim but that of `id` has a run. -/
def Held (c : Claims) (id : IssueId) : Prop := ∀ other ∈ c.claimed, other = id ∨ c.HasRun other

def Free (c : Claims) : Prop := ∀ id ∈ c.claimed, c.HasRun id

theorem Free.held (h : c.Free) (id : IssueId) : c.Held id := fun other hot => .inr (h other hot)

variable {id : IssueId}

theorem Held.free (h : c.Held id) (hid : id ∈ c.claimed → c.HasRun id) : c.Free := by
  intro other hot
  rcases h other hot with rfl | hrun
  · exact hid hot
  · exact hrun

theorem Held.erase (h : c.Held id) : Free { c with claimed := c.claimed.erase id } := by
  intro other hot
  obtain ⟨hne, hot⟩ := Finset.mem_erase.mp hot
  exact (h other hot).resolve_left hne

theorem Free.insert (h : c.Free) (id : IssueId) :
    Held { c with claimed := insert id c.claimed } id := by
  intro other hot
  rcases Finset.mem_insert.mp hot with rfl | hot
  · exact .inl rfl
  · exact .inr (h other hot)

end Claims

/-- The cycle rests, or waits for a call that belongs to no launch. -/
def Phase.between : Phase → Bool
  | .considering _ _ | .launching _ _ _ | .stopped => false
  | _ => true

/-- What a launch has to be sure of while it waits for a call. -/
def LaunchStage.Keeps (caller : Caller) : LaunchStage → Prop
  | .replies _ pending => caller = .followup ∨ pending = true
  | .exclude runKind => runKind ≠ .agentRebase
  | _ => True

/-- A launch of `id` is at work. The review follow-up of the poll takes no claim. -/
structure Claims.Launching (c : Claims) (caller : Caller) (id : IssueId) : Prop where
  held : c.Held id
  pollOver : caller.polls = false → c.poll.Over
  new : caller = .followup → id ∉ c.claimed

/-- Only the launch at work holds a claim without a run, and only while the poll goes on are
there candidates it has not looked at. -/
inductive Claims.Covered (c : Claims) : Phase → Prop where
  | between {phase} (hphase : phase.between) (hfree : c.Free) (hover : c.poll.Over) :
      Covered c phase
  | considering {issue stage} (hfree : c.Free) (hnew : issue.id ∉ c.claimed) :
      Covered c (.considering issue stage)
  | launching {caller issue stage} (h : c.Launching caller issue.id) (hstage : stage.Keeps caller) :
      Covered c (.launching caller issue stage)

/-- Fewer claims and as many runs. -/
theorem Claims.Covered.mono {c' : Claims} {phase : Phase} (h : c.Covered phase)
    (hcl : c'.claimed ⊆ c.claimed) (hrun : ∀ id ∈ c'.claimed, c.HasRun id → c'.HasRun id)
    (hpo : c'.poll = c.poll) : c'.Covered phase := by
  have hfr (hfr : c.Free) : c'.Free := fun id hid => hrun id hid (hfr id (hcl hid))
  cases h with
  | between hph hold hov => exact .between hph (hfr hold) (hpo ▸ hov)
  | considering hold hnew => exact .considering (hfr hold) fun h => hnew (hcl h)
  | launching h hst =>
    refine .launching ⟨?_, fun hpl => hpo ▸ h.pollOver hpl, ?_⟩ hst
    · intro other hot
      exact (h.held other (hcl hot)).imp_right (hrun other hot)
    · intro hca hid
      exact h.new hca (hcl hid)

namespace Host

variable {cfg : Config} {d : Host} {issue : Issue} {caller : Caller}

def claims (d : Host) : Claims := ⟨d.claimed, d.sessions, d.finishing, d.poll⟩

def Settled (d : Host) : Prop := d.claims.Covered d.phase

/-- The issue that is being launched. -/
def inHand (d : Host) : Option IssueId :=
  match d.phase with
  | .launching _ issue _ => some issue.id
  | _ => none

/-- No exception has left the cycle; a poll that is over has looked at all its candidates or
has used up its slots; a claim belongs to the launch at work or to a run. -/
@[mk_iff]
structure Isolated (d : Host) : Prop where
  alive : d.phase ≠ .stopped
  considered : d.phase = .resting → d.poll.Over
  released : ∀ id ∈ d.claimed, d.inHand = some id ∨ d.claims.HasRun id

theorem Settled.isolated (h : d.Settled) : Isolated d := by
  unfold Settled at h
  have hin : d.inHand = match d.phase with
      | .launching _ issue _ => some issue.id
      | _ => none := rfl
  generalize hph : d.phase = phase at h hin
  cases h with
  | between hbe hfr hov =>
    refine ⟨?_, fun _ => hov, fun id hid => .inr (hfr id hid)⟩
    rintro hst
    rw [hph] at hst
    rw [hst] at hbe
    cases hbe
  | considering hfr =>
    exact ⟨by rw [hph]; nofun, by rw [hph]; nofun, fun id hid => .inr (hfr id hid)⟩
  | launching h =>
    refine ⟨by rw [hph]; nofun, by rw [hph]; nofun, fun id hid => ?_⟩
    rcases h.held id hid with rfl | hrun
    · exact .inl hin
    · exact .inr hrun

/-- Between launches the claims are in order, and the last poll is over. -/
theorem Settled.free_of_between {phase : Phase} (h : d.Settled) (hph : d.phase = phase)
    (hbe : phase.between) : d.claims.Free ∧ d.poll.Over := by
  have hco : d.claims.Covered d.phase := h
  rw [hph] at hco
  cases hco with
  | between _ hfr hov => exact ⟨hfr, hov⟩
  | considering | launching => cases hbe

theorem Settled.free_of_considering {stage : CandidateStage} (h : d.Settled)
    (hph : d.phase = .considering issue stage) : d.claims.Free ∧ issue.id ∉ d.claimed := by
  have hco : d.claims.Covered d.phase := h
  rw [hph] at hco
  cases hco with
  | between hbe => cases hbe
  | considering hfr hnew => exact ⟨hfr, hnew⟩

variable {stage : LaunchStage}

theorem Settled.launching_of_phase (h : d.Settled) (hph : d.phase = .launching caller issue stage) :
    d.claims.Launching caller issue.id ∧ stage.Keeps caller := by
  have hco : d.claims.Covered d.phase := h
  rw [hph] at hco
  cases hco with
  | between hbe => cases hbe
  | launching hla hke => exact ⟨hla, hke⟩

/-! ## The loops -/

theorem nextRetry_settled (hfr : d.claims.Free) (hov : d.poll.Over) (ids : List IssueId) :
    (d.nextRetry cfg ids).Settled := by
  induction ids with
  | nil => exact .between rfl hfr hov
  | cons _ _ ih =>
    unfold nextRetry
    split
    · exact ih
    · split
      · exact ih
      · exact .between rfl hfr hov

theorem nextFollowup_settled (hfr : d.claims.Free) (hov : d.poll.Over) (issues : List Issue) :
    (d.nextFollowup cfg issues).Settled := by
  induction issues with
  | nil => exact .between rfl hfr hov
  | cons issue _ ih =>
    unfold nextFollowup
    split
    · exact ih
    · exact .launching ⟨hfr.insert issue.id, fun _ => hov, nofun⟩ trivial

theorem countRebase_claims (d : Host) (id : IssueId) : (d.countRebase id).claims = d.claims :=
  (congrArg claims (countRebase_beside d id) :)

theorem nextConflict_settled (hfr : d.claims.Free) (hov : d.poll.Over) (loop : Loop IssueId)
    (ids : List IssueId) : (d.nextConflict cfg loop ids).Settled := by
  induction ids with
  | nil => exact .between rfl hfr hov
  | cons id _ ih =>
    unfold nextConflict
    split
    · exact .between rfl hfr hov
    split
    · exact ih
    · have hov : d.claims.poll.Over := hov
      rw [← countRebase_claims d id] at hfr hov
      exact .between rfl hfr hov

/-- The poll leaves its loop only at its end, or without a slot. -/
theorem nextCandidate_settled (hfr : d.claims.Free) (issues : List Issue) :
    (d.nextCandidate issues).Settled := by
  induction issues with
  | nil => exact .between rfl hfr (.inl rfl)
  | cons _ _ ih =>
    unfold nextCandidate
    split
    case isTrue hsl => exact .between rfl hfr (.inr hsl)
    split
    · exact ih
    case isFalse hbu =>
      refine .considering hfr fun hcl => hbu ?_
      exact decide_eq_true (.inr hcl)

/-! ## Launches -/

/-- A launch that leaves nothing behind hands back to its caller. -/
theorem returned_settled (hfr : d.claims.Free) (hov : caller.polls = false → d.poll.Over) :
    (d.returned cfg issue caller).Settled := by
  cases caller with
  | retry rest => exact nextRetry_settled hfr (hov rfl) rest
  | feedback rest => exact nextFollowup_settled hfr (hov rfl) rest
  | followup => exact nextCandidate_settled hfr d.poll.rest
  | poll origin =>
    dsimp only [returned]
    split
    · exact nextCandidate_settled (d := d.countLaunch issue.id origin) hfr d.poll.rest
    · exact nextCandidate_settled hfr d.poll.rest

section Launch

variable (h : d.claims.Launching caller issue.id)
include h

theorem gated_settled : (d.gated cfg caller issue).Settled :=
  returned_settled h.held.erase h.pollOver

theorem alreadyHandled_settled : (d.alreadyHandled cfg caller issue).Settled := gated_settled h

theorem returned_followup_settled (hca : caller = .followup) :
    (d.returned cfg issue caller).Settled :=
  returned_settled (h.held.free fun hid => absurd hid (h.new hca)) h.pollOver

theorem created_settled {runKind : RunKind} (hki : runKind ≠ .agentRebase) :
    ((d.createTask issue.id runKind).returned cfg issue caller).Settled := by
  have hhe : (d.createTask issue.id runKind).claims.Held issue.id := by
    intro other hot
    rcases h.held other hot with heq | ⟨session, hmem, hse⟩ | hfi
    · exact .inl heq
    · exact .inr (.inl ⟨session, mem_append_left _ hmem, hse⟩)
    · exact .inr (.inr hfi)
  refine returned_settled (hhe.free fun _ => .inl ?_) h.pollOver
  exact ⟨_, mem_append_right _ (mem_singleton_self _), rfl, hki⟩

theorem launchFollowup_settled (hfe : d.registry.hasPr issue.id ∨ caller = .followup) :
    (d.launchFollowupWithPendingReviews cfg caller issue).Settled := by
  unfold launchFollowupWithPendingReviews
  split
  · exact .launching h trivial
  case isFalse hpr => exact returned_followup_settled h (hfe.resolve_left hpr)

theorem sendReplies_settled {pending : Bool} (hpe : caller = .followup ∨ pending = true)
    (left : Nat) : (d.sendReplies cfg caller issue pending left).Settled := by
  cases left with
  | zero =>
    cases pending with
    | true => exact .launching h trivial
    | false => exact returned_followup_settled h (hpe.resolve_right nofun)
  | succ => exact .launching h hpe

theorem enter_settled (hfe : d.usesReviewFeedbackFollowup issue.id → d.registry.hasPr issue.id) :
    (d.enter cfg caller issue).Settled := by
  unfold enter
  split
  case isTrue hus => exact launchFollowup_settled h (.inl (hfe hus))
  · exact .launching h nofun

theorem registryGuard_settled
    (hfe : d.usesReviewFeedbackFollowup issue.id → d.registry.hasPr issue.id) :
    (d.registryGuard cfg caller issue).Settled := by
  unfold registryGuard
  split
  · exact alreadyHandled_settled h
  · exact enter_settled h hfe

theorem launchIssue_settled : (d.launchIssue cfg caller issue).Settled := by
  unfold launchIssue prepareIntentReset
  split
  · split
    · split
      · exact .launching h trivial
      · exact .launching h trivial
    · exact .launching h trivial
  · exact gated_settled h

end Launch

/-! ## Candidates -/

theorem Considered.settled {e : Host} (h : Considered cfg d issue e) (hfr : d.claims.Free)
    (hnew : issue.id ∉ d.claims.claimed) : e.Settled := by
  have hcl {e : Host} (he : e.beside = d.beside) : d.claims = e.claims :=
    (congrArg claims he.symm :)
  cases h with
  | waits he =>
    rw [hcl he] at hfr hnew
    exact .considering hfr hnew
  | @goesOn e he =>
    rw [hcl he] at hfr
    exact nextCandidate_settled hfr e.poll.rest
  | @launches e he =>
    rw [hcl he] at hfr
    exact launchIssue_settled ⟨hfr.insert issue.id, nofun, nofun⟩
  | followsUp he =>
    rw [hcl he] at hfr hnew
    exact launchFollowup_settled ⟨hfr.held issue.id, nofun, fun _ => hnew⟩ (.inr rfl)

/-! ## What the runs have to avoid -/

/-- No handler catches an exception of the call the cycle waits for. -/
def uncaught (d : Host) : Bool :=
  match d.phase with
  | .fetchingConflict _ _ | .considering _ (.rebase _) => true
  | .launching _ _ .head | .launching _ _ .followupHead | .launching _ _ (.exclude _) => true
  | _ => false

/-- A launch that hands over to the review follow-ups has a pull request with feedback that
waits. No reply stands for an exception. -/
def findsFeedback (d : Host) (reply : Option Reply) : Bool :=
  match d.phase with
  | .launching _ issue .refresh | .launching _ issue .findPullRequest =>
    ¬ d.usesReviewFeedbackFollowup issue.id ∨ d.registry.hasPr issue.id
  | .launching caller _ .reviewFeedback =>
    decide (caller = .followup) || match reply with
      | some (.feedback pending _) => pending
      | some _ => true
      | none => false
  | _ => true

def Contained (d : Host) : Input → Prop
  | .answered reply => d.findsFeedback (some reply)
  | .raised => ¬ d.uncaught ∧ d.findsFeedback none
  | _ => True

instance (d : Host) : ∀ input, Decidable (d.Contained input) := by
  intro _
  unfold Contained
  split <;> infer_instance

theorem findsFeedback_of_refresh {reply : Option Reply}
    (hph : d.phase = .launching caller issue stage)
    (hst : stage = .refresh ∨ stage = .findPullRequest) (h : d.findsFeedback reply) :
    d.usesReviewFeedbackFollowup issue.id → d.registry.hasPr issue.id := by
  intro hus
  unfold findsFeedback at h
  rw [hph] at h
  rcases hst with rfl | rfl <;> simpa [hus] using h

/-! ## The cycle's steps -/

variable (h : d.Settled)

include h

variable {reply : Reply}

theorem launchStep_settled (hph : d.phase = .launching caller issue stage)
    (hfi : d.findsFeedback (some reply)) :
    (d.launchStep cfg caller issue stage reply).Settled := by
  obtain ⟨hla, hke⟩ := h.launching_of_phase hph
  unfold launchStep
  split
  case h_1 | h_2 | h_3 | h_8 => exact .launching hla trivial
  case h_4 answer =>
    cases answer with
    | missing | inactive => exact gated_settled hla
    | active branch =>
      cases branch with
      | true => exact .launching hla trivial
      | false => exact registryGuard_settled hla (findsFeedback_of_refresh hph (.inl rfl) hfi)
  · split
    · exact alreadyHandled_settled hla
    · exact registryGuard_settled hla (findsFeedback_of_refresh hph (.inr rfl) hfi)
  case h_6 pending abandoned =>
    refine sendReplies_settled hla ?_ abandoned
    unfold findsFeedback at hfi
    rw [hph] at hfi
    simpa using hfi
  case h_7 left pending => exact sendReplies_settled hla hke left
  · exact .launching hla nofun
  case h_10 runKind => exact created_settled hla hke
  · exact h

theorem launchRaise_settled (hph : d.phase = .launching caller issue stage)
    (hca : ¬ d.uncaught) (hfi : d.findsFeedback none) :
    (d.launchRaise cfg caller issue stage).Settled := by
  obtain ⟨hla, hke⟩ := h.launching_of_phase hph
  unfold uncaught at hca
  rw [hph] at hca
  cases stage with
  | closePullRequest => exact .launching hla trivial
  | workspace | followupWorkspace => exact gated_settled hla
  | head | followupHead | exclude => exact absurd rfl hca
  | refresh => exact enter_settled hla (findsFeedback_of_refresh hph (.inl rfl) hfi)
  | findPullRequest => exact enter_settled hla (findsFeedback_of_refresh hph (.inr rfl) hfi)
  | reviewFeedback =>
    apply returned_followup_settled hla
    unfold findsFeedback at hfi
    rw [hph] at hfi
    simpa using hfi
  | replies left => exact sendReplies_settled hla hke left

omit h in
theorem createRebase_settled (hfr : d.claims.Free) (hov : d.poll.Over) (id : IssueId)
    (loop : Loop IssueId) : (d.createRebase cfg id loop).Settled :=
  nextConflict_settled (d := { d with rebases := d.rebases ++ [id] }) hfr hov _ loop.rest

theorem answer_settled (hfi : d.findsFeedback (some reply)) : (d.answer cfg reply).Settled := by
  unfold answer
  split
  case h_1 id _ _ hph =>
    obtain ⟨hfr, hov⟩ := h.free_of_between hph rfl
    exact launchIssue_settled ⟨hfr.insert id, fun _ => hov, nofun⟩
  case h_2 hph =>
    obtain ⟨hfr, hov⟩ := h.free_of_between hph rfl
    exact nextRetry_settled hfr hov _
  case h_3 hph =>
    obtain ⟨hfr, hov⟩ := h.free_of_between hph rfl
    exact nextFollowup_settled hfr hov _
  case h_4 hph =>
    obtain ⟨hfr, hov⟩ := h.free_of_between hph rfl
    exact .between rfl hfr hov
  case h_5 id loop hph =>
    obtain ⟨hfr, hov⟩ := h.free_of_between hph rfl
    exact createRebase_settled hfr hov id loop
  case h_6 _ hph =>
    obtain ⟨hfr, -⟩ := h.free_of_between hph rfl
    apply nextCandidate_settled
    exact hfr
  case h_7 hph =>
    obtain ⟨hfr, hnew⟩ := h.free_of_considering hph
    rcases considerStep_considered _ _ with hgo | hst
    · exact hgo.settled hfr hnew
    · rwa [hst]
  case h_8 hph => exact launchStep_settled h hph hfi
  · exact h

theorem raise_settled (hca : ¬ d.uncaught) (hfi : d.findsFeedback none) :
    (d.raise cfg).Settled := by
  unfold raise
  split
  case h_1 | h_2 => exact h
  case h_3 hph =>
    obtain ⟨hfr, hov⟩ := h.free_of_between hph rfl
    exact nextRetry_settled hfr hov _
  case h_4 hph | h_7 hph =>
    obtain ⟨hfr, hov⟩ := h.free_of_between hph rfl
    exact .between rfl hfr hov
  case h_5 hph =>
    unfold uncaught at hca
    rw [hph] at hca
    exact absurd rfl hca
  case h_6 id loop hph =>
    obtain ⟨hfr, hov⟩ := h.free_of_between hph rfl
    exact createRebase_settled hfr hov id loop
  case h_8 _ _ hph =>
    obtain ⟨hfr, hnew⟩ := h.free_of_considering hph
    refine (considerRaise_considered ?_).settled hfr hnew
    rintro origin rfl
    unfold uncaught at hca
    rw [hph] at hca
    exact hca rfl
  case h_9 hph => exact launchRaise_settled h hph hca hfi

/-! ## Beside the cycle -/

variable (id : IssueId)

theorem rebaseStarts_settled : (d.rebaseStarts id).Settled := by
  unfold rebaseStarts
  split
  · refine .mono h (refl _) ?_ rfl
    rintro other - (⟨session, hmem, hse⟩ | hfi)
    · exact .inl ⟨session, mem_append_left _ hmem, hse⟩
    · exact .inr hfi
  · exact h

/-- A run that ends still has to clean up; a rebase run gives back no claim. -/
theorem sessionEnds_settled (task : TaskId) (status : IssueStatus) (prNumber : Option Nat) :
    (d.sessionEnds task status prNumber).Settled := by
  unfold sessionEnds
  split
  · exact h
  rename_i ended hfn
  split
  case isTrue hre =>
    refine .mono h (refl _) ?_ rfl
    rintro other - (⟨session, hmem, hid, hki⟩ | hfi)
    · have hne : session ≠ ended := fun heq => hki (heq ▸ hre)
      exact .inl ⟨session, (mem_erase_of_ne hne).mpr hmem, hid, hki⟩
    · exact .inr hfi
  · refine .mono h (refl _) ?_ rfl
    rintro other - (⟨session, hmem, hid, hki⟩ | hfi)
    · by_cases heq : session = ended
      · exact .inr (mem_append_right _ (mem_singleton.mpr (heq ▸ hid.symm)))
      · exact .inl ⟨session, (mem_erase_of_ne heq).mpr hmem, hid, hki⟩
    · exact .inr (mem_append_left _ hfi)

theorem settle_settled : (d.settle id).Settled := by
  unfold settle
  split
  · refine .mono h (Finset.erase_subset id d.claimed) ?_ rfl
    rintro other hot (hse | hfi)
    · exact .inl hse
    · exact .inr ((mem_erase_of_ne (Finset.ne_of_mem_erase hot)).mpr hfi)
  · exact h

theorem applyCommand_settled (command : OperatorCommand) : (d.applyCommand id command).Settled := by
  cases command <;>
    exact .mono h (Finset.erase_subset id d.claimed) (fun _ _ hrun => hrun) rfl

theorem whenResting_settled {act : Host → Host}
    (hact : d.claims.Free → d.poll.Over → (act d).Settled) : (d.whenResting act).Settled := by
  unfold whenResting
  split
  case isTrue hph =>
    obtain ⟨hfr, hov⟩ := h.free_of_between hph rfl
    exact hact hfr hov
  · exact h

theorem Settled.step (input : Input) (hco : d.Contained input) : (d.step cfg input).Settled := by
  cases input with
  | retries ready =>
    show (d.whenResting (·.nextRetry cfg ready)).Settled
    exact whenResting_settled h fun hfr hov => nextRetry_settled hfr hov ready
  | reviewFeedback =>
    refine whenResting_settled h fun hfr hov => ?_
    unfold processReviewFeedback
    split
    · exact .between rfl hfr hov
    · exact h
  | rebaseConflicts => exact whenResting_settled h fun hfr hov => nextConflict_settled hfr hov _ _
  | poll =>
    show (d.whenResting fun d => { d with phase := .fetchingCandidates }).Settled
    exact whenResting_settled h fun hfr hov => .between rfl hfr hov
  | answered => exact answer_settled h hco
  | raised => exact raise_settled h hco.1 hco.2
  | rebaseStarts id => exact rebaseStarts_settled h id
  | sessionEnds task status prNumber => exact sessionEnds_settled h task status prNumber
  | settle id => exact settle_settled h id
  | command id command => exact applyCommand_settled h id command

omit h

instance {α : Type} [DecidableEq α] (loop : Loop α) : Decidable loop.Over :=
  inferInstanceAs (Decidable (loop.rest = [] ∨ loop.availableSlots ≤ loop.launched))

instance (c : Claims) (id : IssueId) : Decidable (c.HasRun id) :=
  inferInstanceAs (Decidable ((∃ session ∈ c.sessions,
    session.issueId = id ∧ session.runKind ≠ .agentRebase) ∨ id ∈ c.finishing))

instance (d : Host) : Decidable (Isolated d) := decidable_of_iff _ (isolated_iff d).symm

/-- The poll finds two issues and waits for the workspace of the first. -/
def firstOfTwo : List Input :=
  [.poll, .answered (.candidates [⟨"a", [], []⟩, ⟨"b", [], []⟩]), .answered (.command none)]

/-- A follow-up by label without a pull request is not launched; in the next poll the label is
gone and the record still asks for the follow-up. -/
def labelTakenBack : List Input :=
  [.poll, .answered (.candidates [⟨"a", ["agent:follow-up"], []⟩]), .answered (.labels .followup),
    .answered (.command none),
    .poll, .answered (.candidates [⟨"a", [], []⟩]), .answered (.command none),
    .answered .done, .answered .done, .answered (.refreshed (.active false))]

end Host

end Orchestratord.Dispatch
