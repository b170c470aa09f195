import Orchestratord.Dispatch.Cycle

/-! # What comes of a candidate

Until the poll waits for a further call, goes on with the next candidate or begins a launch, it
changes nothing but the records and what is counted beside them. -/

namespace Orchestratord.Dispatch

open Daemon (IssueId Intent IntentSource)
open Commands (Command)

namespace Host

variable {cfg : Config} {d : Host} {issue : Issue}

/-- The host without its records and counters, wherever the cycle is. -/
def beside (d : Host) : Host :=
  { d with
    registry := .empty
    completed := ∅
    conflicts := ∅
    rebaseAttempts := fun _ => 0
    phase := .resting }

theorem countRebase_beside (d : Host) (id : IssueId) : (d.countRebase id).beside = d.beside := by
  unfold countRebase
  split <;> rfl

/-- The ways to go on with a candidate. -/
inductive Considered (cfg : Config) (d : Host) (issue : Issue) : Host → Prop where
  | waits {e : Host} (h : e.beside = d.beside) (stage : CandidateStage) :
      Considered cfg d issue { e with phase := .considering issue stage }
  | goesOn {e : Host} (h : e.beside = d.beside) : Considered cfg d issue e.continuePoll
  | launches {e : Host} (h : e.beside = d.beside) (origin : IntentSource) :
      Considered cfg d issue ((e.claim issue.id).launchIssue cfg (.poll origin) issue)
  | followsUp {e : Host} (h : e.beside = d.beside) :
      Considered cfg d issue (e.launchFollowupWithPendingReviews cfg .followup issue)

section

variable {e : Host} (h : e.beside = d.beside)
include h

theorem admission_considered (origin : IntentSource) :
    Considered cfg d issue (e.admission cfg issue origin) := by
  unfold admission
  split
  · split
    · exact .waits h _
    · exact .launches h origin
  · exact .goesOn h

theorem actOnIntent_considered (intent : Intent) (origin : IntentSource) :
    Considered cfg d issue (e.actOnIntent cfg issue intent origin) := by
  let marked : Host := { e with registry := e.registry.markIntent issue.id intent origin }
  have hma : marked.beside = d.beside := h
  cases intent with
  | blocked =>
    exact .waits (e := { marked with registry := marked.registry.mark issue.id .abandoned }) h _
  | retry => exact admission_considered hma origin
  | followup =>
    show Considered cfg d issue (if marked.usesReviewFeedbackFollowup issue.id then _ else _)
    split
    · exact .followsUp hma
    · exact admission_considered hma origin
  | rebase =>
    show Considered cfg d issue (if marked.checkRebaseRateLimit cfg issue.id then _ else _)
    split
    · exact .waits ((countRebase_beside marked issue.id).trans hma) _
    · exact .goesOn hma
  | none =>
    show Considered cfg d issue (if _ then _ else _)
    split
    · exact .goesOn h
    · exact admission_considered h origin

end

theorem dispatch_considered (label : Intent) (found : Option Found) :
    Considered cfg d issue (d.dispatch cfg issue label found) := by
  dsimp only [dispatch]
  split
  · exact .goesOn rfl
  split
  · exact .waits rfl _
  split
  · exact .goesOn rfl
  · cases found with
    | some => exact .waits rfl _
    | none => exact actOnIntent_considered rfl _ _

theorem honour_considered (command : Command) (intent : Intent) (origin : IntentSource) :
    Considered cfg d issue (d.honour cfg issue command intent origin) := by
  unfold honour
  split
  · apply actOnIntent_considered
    rfl
  · exact actOnIntent_considered rfl intent origin

theorem considerStep_considered (stage : CandidateStage) (reply : Reply) :
    Considered cfg d issue (d.considerStep cfg issue stage reply) ∨
      d.considerStep cfg issue stage reply = d := by
  unfold considerStep
  split
  · exact .inl (.waits rfl _)
  case h_2 label found => exact .inl (dispatch_considered label found)
  · exact .inl (.goesOn rfl)
  case h_4 command intent origin => exact .inl (honour_considered command intent origin)
  · exact .inl (.goesOn rfl)
  · left
    dsimp only [rebased]
    split <;> exact .goesOn rfl
  case h_7 origin clear =>
    cases clear with
    | true => exact .inl (.launches rfl origin)
    | false => exact .inl (.goesOn rfl)
  · exact .inr rfl

/-- Every exception of the poll's own calls is caught, but for the built-in rebase. -/
theorem considerRaise_considered {stage : CandidateStage} (hca : ∀ origin, stage ≠ .rebase origin) :
    Considered cfg d issue (d.considerRaise cfg issue stage) := by
  cases stage with
  | labels => exact .waits rfl _
  | command label => exact dispatch_considered label none
  | rejection => exact .goesOn rfl
  | acknowledgement command intent origin => exact honour_considered command intent origin
  | abandonment => exact .goesOn rfl
  | rebase origin => exact absurd rfl (hca origin)
  | gate origin =>
    show Considered cfg d issue (if cfg.failOpen then _ else _)
    split
    · exact .launches rfl origin
    · exact .goesOn rfl

end Host

end Orchestratord.Dispatch
