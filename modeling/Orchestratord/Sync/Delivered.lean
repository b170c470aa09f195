import Orchestratord.Sync.VerifiedPush

/-! # What a run makes of its sync

The end of a run goes by whether the sync returned. Whether anything was pushed is in the result,
but nobody asks. -/

namespace Orchestratord.Sync

open Foundation Eff

/-! ## Which syncs push -/

variable {cfg : Config} {session : Session} {env : Env} {repo s s' : Repo} {pushed : Pushed}
  {prepared : Prepared}

theorem commitChanges_changed (h : (commitChanges session env).exec s = (.ok prepared, s')) :
    prepared.changed = true := by
  obtain ⟨_, t, hget, h⟩ := exec_bind_ok.mp h
  cases hget
  split at h
  · split at h
    · obtain ⟨_, _, -, h⟩ := exec_bind_ok.mp h
      obtain ⟨_, _, -, h⟩ := exec_bind_ok.mp h
      cases h
      rfl
    · cases h
      rfl
  · obtain ⟨_, _, -, h⟩ := exec_bind_ok.mp h
    obtain ⟨_, _, -, h⟩ := exec_bind_ok.mp h
    cases h
    rfl

theorem prepare_changed (hst : session.strategy ≠ .sequential)
    (h : (prepare cfg session env).exec repo = (.ok prepared, s)) :
    prepared.changed = repo.dirty := by
  obtain ⟨_, t, hget, h⟩ := exec_bind_ok.mp h
  cases hget
  split at h
  case isTrue hdi =>
    obtain ⟨_, _, -, h⟩ := exec_bind_ok.mp h
    rw [if_neg hst] at h
    obtain ⟨_, _, -, h⟩ := exec_bind_ok.mp h
    obtain ⟨made, _, hco, h⟩ := exec_bind_ok.mp h
    obtain ⟨_, _, -, h⟩ := exec_bind_ok.mp h
    obtain ⟨_, _, -, h⟩ := exec_bind_ok.mp h
    cases h
    rw [if_neg hst, hdi]
    exact (commitChanges_changed hco : made.changed = true)
  case isFalse hcl =>
    obtain ⟨_, _, -, h⟩ := exec_bind_ok.mp h
    obtain ⟨_, _, -, h⟩ := exec_bind_ok.mp h
    cases h
    simpa using hcl

/-- Whatever the last hook makes of it, a sync that gets as far as the push has pushed. -/
theorem sync_delivers {t : Repo} (hpr : (prepare cfg session env).exec repo = (.ok prepared, s))
    (hde : (deliver cfg session env prepared).exec s = (.ok pushed, t)) :
    ((sync cfg session env).after repo).pushes ≠ repo.pushes ↔
      ¬ noPush cfg session ∧ Publishes session env repo.dirty := by
  have hfi : Respects (Quiet (fun _ => True)) (finish cfg session env prepared pushed) :=
    .finish trivial
  have haf : ((sync cfg session env).after repo).pushes = t.pushes := by
    rw [← (hfi t).1, sync, after, exec_bind, hpr]
    dsimp only
    rw [exec_bind, hde]
    rfl
  obtain ⟨-, hpu⟩ := Pushes.deliver cfg session env prepared s
  rw [hde, after, hde] at hpu
  dsimp only at hpu
  rw [haf, ← prepare_pushes hpr, ← and_congr_right fun hps => by
    rw [← prepare_changed (strategy_of_push hps) hpr]]
  rcases hpu with ⟨hgo, heq⟩ | ⟨hst, heq⟩
  · exact iff_of_true (by simp [heq]) hgo
  · exact iff_of_false (fun h => h heq) hst

/-- What the run has committed is on the remote branch. -/
def Delivered (cfg : Config) (session : Session) (env : Env) (repo : Repo) : Prop :=
  ((sync cfg session env).after repo).pushes =
    repo.pushes ++ [published env (committedTree cfg env repo)]

theorem delivered_iff : Delivered cfg session env repo ↔
    ((sync cfg session env).after repo).pushes ≠ repo.pushes := by
  constructor
  · intro h
    rw [h]
    simp
  · exact (sync_pushes cfg session env repo).resolve_left

/-! ## Review feedback -/

/-- The feedback that is marked as processed and answered. -/
def closedFeedback (session : Session) : Except SyncError GitSyncResult → List String
  | .ok result =>
    if result.sessionEndReason = some "empty_branch_no_commits" then [] else session.feedbackIds
  | .error _ => []

variable (cfg : Config) (session : Session)

/-- Feedback that a follow-up closes has its fix on the branch exactly when the push goes through:
a failed push and a conflict close it all the same. -/
theorem closed_delivered_iff (env : Env) (repo : Repo)
    (hremote : cfg.localTracker = false) (id : String)
    (hclosed : id ∈ closedFeedback session ((sync cfg session env).exec repo).1) :
    Delivered cfg session env repo ↔
      session.strategy ≠ .sequential ∧ Publishes session env repo.dirty := by
  rcases hsy : (sync cfg session env).exec repo with ⟨e | result, s⟩
  · rw [hsy] at hclosed
    cases hclosed
  obtain ⟨_, t, hpr, hre⟩ := exec_bind_ok.mp hsy
  obtain ⟨_, u, hde, -⟩ := exec_bind_ok.mp hre
  rw [delivered_iff, sync_delivers hpr hde]
  simp [noPush, hremote]

/-- A follow-up whose agent has committed by itself. -/
def followup : Session :=
  { pullRequest := some "7", feedbackIds := ["comment-1"], startCommitSha := some 5 }

theorem followup_closed : "comment-1" ∈
    closedFeedback followup ((sync {} followup (answering 0 "")).exec (edited "old")).1 := by
  decide +kernel

theorem closed_delivered_iff_followup : Delivered {} followup (answering 0 "") (edited "old") :=
  (closed_delivered_iff {} followup _ _ rfl "comment-1" followup_closed).mpr
    ⟨by decide, .inr (by decide), .inl rfl⟩

/-- The push fails, and the feedback is closed. -/
theorem closed_undelivered :
    let env := { answering 0 "" with push := { rc := 1, stderr := "timed out" } }
    closedFeedback followup ((sync {} followup env).exec (edited "old")).1 = ["comment-1"] ∧
      ((sync {} followup env).after (edited "old")).pushes = [] := by
  decide +kernel

/-! ## Ordinary runs -/

/-- How the agent's session ends, and whether review is waived. -/
structure Ending where
  completed : Bool
  budgetExhausted : Bool
  autoApprove : Bool

/-- Whether an ordinary run is marked as synced, also after a failure that follows its commit. -/
def marksSynced : Except SyncError GitSyncResult → Bool
  | .ok result => result.sessionEndReason ≠ some "empty_branch_no_commits"
  | .error (.postCommit _ _) => true
  | .error _ => false

/-- Whether a run that did not complete is turned into one that did. -/
def salvages (ending : Ending) : Except SyncError GitSyncResult → Bool
  | .ok result => marksSynced (.ok result) && (!result.pendingReview || ending.autoApprove) &&
      !ending.completed && !ending.budgetExhausted && result.commitSha.isSome
  | .error _ => false

/-- The sync finds something to commit, or the agent has committed. -/
def Produced (repo : Repo) : Prop :=
  repo.dirty ∧ stagedTree cfg repo ≠ repo.headTree ∨ hasRunCommit session repo

/-- No gate before the push fails. -/
def Clears (env : Env) (repo : Repo) : Prop :=
  ∀ message committed,
    ((prepare cfg session env).exec repo).1 ≠ .error (.postCommit message committed)

theorem edited_clears : Clears {} {} (answering 0 "") (edited "new") := by
  have hok : ((prepare {} {} (answering 0 "")).exec (edited "new")).1.isOk := by decide +kernel
  intro _ _ h
  rw [h] at hok
  cases hok

end Orchestratord.Sync
