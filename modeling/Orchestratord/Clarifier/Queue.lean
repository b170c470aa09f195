import Orchestratord.Foundation.Text
import Orchestratord.Issues.Record

/-! # The clarification queue

The queue of open questions and the resolver that looks for answers to them. One look at an item
is one step: what the tracker answers is its input. Times are in milliseconds. -/

namespace Orchestratord.Clarifier

open Foundation
open Issues (IssueId Time truthy)

/-! ## §1 Items -/

inductive ClarificationStatus where
  | none
  | pending
  | awaitingLocal
  | awaitingAuthor
  | resolvedLocal
  | resolvedAuthor
  | timedOutLocal
  | timedOutAuthor
  | exhausted
  | duplicateRejected
  | staleRejected
  | conflictResolved
  deriving DecidableEq

namespace ClarificationStatus

/-- An answer is waited for. -/
def isActive : ClarificationStatus → Bool
  | pending | awaitingLocal | awaitingAuthor => true
  | _ => false

def isResolved : ClarificationStatus → Bool
  | resolvedLocal | resolvedAuthor => true
  | _ => false

theorem isResolved_of_isActive {status : ClarificationStatus} (h : status.isActive) :
    status.isResolved = false := by
  cases status with
  | pending | awaitingLocal | awaitingAuthor => rfl
  | _ => cases h

end ClarificationStatus

inductive AnswerSource where
  | dashboard
  | clarificationQueue
  | author
  deriving DecidableEq

def AnswerSource.isOperator : AnswerSource → Bool
  | dashboard | clarificationQueue => true
  | author => false

inductive ItemKind where
  | clarification
  /-- An instruction for the retry after a rejected review. -/
  | reviewFeedback
  deriving DecidableEq

/-- An item of the queue, which is known by the id of its issue. -/
structure ClarificationItem where
  issueIdentifier : String
  question : String
  options : List String := []
  contextSummary : String := ""
  createdAt : Time
  updatedAt : Time
  expiresAt : Option Time := none
  status : ClarificationStatus := .pending
  answer : Option String := none
  answerSource : Option AnswerSource := none
  answeredAt : Option Time := none
  escalationNotified : Bool := false
  firstResponseSource : Option AnswerSource := none
  staleAnswers : List String := []
  kind : ItemKind := .clarification
  lastCheckedCommentId : Option String := none
  authorLogin : Option String := none

def ClarificationItem.isExpired (item : ClarificationItem) (now : Time) : Bool :=
  item.expiresAt.any (· ≤ now)

/-! ## §2 The queue -/

abbrev ClarificationQueue := Dict IssueId ClarificationItem

namespace ClarificationQueue

variable (q : ClarificationQueue) (id : IssueId)

/-- Change a known item and stamp it. -/
def edit (now : Time) (f : ClarificationItem → ClarificationItem) : ClarificationQueue :=
  q.modify id fun item => { f item with updatedAt := now }

def pollActive : List IssueId := (q.entries.filter (·.2.status.isActive)).map Prod.fst

def getResolved : Option ClarificationItem := (q.get id).filter (·.status.isResolved)

structure Request where
  issueId : IssueId
  issueIdentifier : String
  question : String
  options : List String := []
  contextSummary : String := ""
  sinceCommentId : Option String := none
  authorLogin : Option String := none

def enqueue (r : Request) (timeout now : Time) : ClarificationQueue :=
  q.set r.issueId
    { issueIdentifier := r.issueIdentifier
      question := r.question
      options := r.options
      contextSummary := r.contextSummary
      createdAt := now
      updatedAt := now
      expiresAt := some (now + timeout)
      lastCheckedCommentId := r.sinceCommentId
      authorLogin := r.authorLogin }

def markAwaitingLocal (now : Time) : ClarificationQueue :=
  q.edit id now fun item => { item with status := .awaitingLocal }

def markAwaitingAuthor (timeout : Option Time) (now : Time) : ClarificationQueue :=
  q.edit id now fun item =>
    { item with
      status := .awaitingAuthor
      expiresAt := (timeout.map (now + ·)).or item.expiresAt }

def markCommentChecked (commentId : Option String) (now : Time) : ClarificationQueue :=
  q.edit id now fun item => { item with lastCheckedCommentId := commentId }

/-- The status of an item after an answer. In an unexpected status the answer is recorded and
the status stays. -/
def resolvedStatus (source : AnswerSource) : ClarificationStatus → ClarificationStatus
  | .pending | .awaitingLocal => if source.isOperator then .resolvedLocal else .resolvedAuthor
  | .awaitingAuthor => .resolvedAuthor
  | status => status

def resolve (answer : String) (source : AnswerSource) (now : Time) : ClarificationQueue :=
  q.edit id now fun item =>
    { item with
      answer := some answer
      answerSource := some source
      answeredAt := some now
      status := resolvedStatus source item.status
      firstResponseSource := some source }

def markStale (staleAnswer : String) (now : Time) : ClarificationQueue :=
  q.edit id now fun item =>
    { item with status := .staleRejected, staleAnswers := item.staleAnswers ++ [staleAnswer] }

variable (now : Time)

def markEscalationNotified : ClarificationQueue :=
  q.edit id now fun item => { item with escalationNotified := true }

def expiredStatus : ClarificationStatus → ClarificationStatus
  | .awaitingLocal => .timedOutLocal
  | .awaitingAuthor => .timedOutAuthor
  | _ => .exhausted

def markExpired : ClarificationQueue :=
  q.edit id now fun item => { item with status := expiredStatus item.status }

def markExhausted : ClarificationQueue :=
  q.edit id now fun item => { item with status := .exhausted }

def remove : ClarificationQueue := q.erase id

/-! ## §3 The resolver -/

structure Comment where
  id : String
  authorLogin : Option String
  body : String
  /-- The time the tracker gives, or the current one. -/
  timestamp : Time

structure ResolverConfig where
  timeoutLocal : Time := 30 * 60 * 1000
  timeoutAuthor : Time := 72 * 3600 * 1000
  operatorPriority : Bool := true
  simultaneousGrace : Time := 5000
  casefold : String → String := Text.lower

/-- How the comment that mentions the author is answered. -/
inductive Mention where
  | posted (commentId : Option String)
  | fails
  deriving DecidableEq

structure Candidate where
  source : AnswerSource
  answer : String
  timestamp : Time

/-- What a look at an item finds outside. Without comments the tracker has none, or fails. -/
structure Look where
  now : Time
  comments : List Comment := []
  mention : Mention := .posted none

def marker : String := "<!-- orchestratord-clarification:" ++ id ++ " -->"

def isOwnClarificationComment (item : ClarificationItem) (comment : Comment) : Bool :=
  Text.contains comment.body (marker id) || (Text.contains comment.body "## Clarification Needed" &&
      Text.contains comment.body "**Question:**" && Text.contains comment.body item.question)

variable (cfg : ResolverConfig)

/-- The comments of the issue's author. -/
def authorized (id : IssueId) (item : ClarificationItem) (comments : List Comment) : List Comment :=
  comments.filter fun comment =>
    ((truthy comment.authorLogin).any fun login =>
      cfg.casefold (Text.strip login) = cfg.casefold (Text.strip (item.authorLogin.getD ""))) &&
    ! isOwnClarificationComment id item comment

/-- The answer in the queue itself. -/
def queueCandidate (item : ClarificationItem) (now : Time) : Option Candidate :=
  if item.status = .pending ∨ item.status = .awaitingLocal then
    (q.getResolved id).bind fun resolved =>
      (truthy resolved.answer).map fun answer =>
        ⟨resolved.answerSource.getD .clarificationQueue, answer, resolved.answeredAt.getD now⟩
  else none

/-- The last comment of the author. -/
def authorCandidate (id : IssueId) (item : ClarificationItem)
    (comments : List Comment) : Option Candidate :=
  -- without a known author no comment may unblock the issue
  if (truthy item.authorLogin).isNone then none
  else (authorized cfg id item comments).getLast?.bind fun latest =>
    if Text.strip latest.body = "" then none
    else some ⟨.author, Text.strip latest.body, latest.timestamp⟩

def collectCandidates (q : ClarificationQueue) (id : IssueId)
    (item : ClarificationItem) (look : Look) : ClarificationQueue × List Candidate :=
  let own := (queueCandidate q id item look.now).toList
  if item.status = .awaitingLocal ∨ item.status = .awaitingAuthor then
    match look.comments.getLast? with
    | none => (q, own)
    | some last =>
      (q.markCommentChecked id (some last.id) look.now,
        own ++ (authorCandidate cfg id item look.comments).toList)
  else (q, own)

/-- The winner of two answers, and the loser. -/
def resolveConflict (c₀ c₁ : Candidate) : Candidate × Candidate :=
  let delta := max c₀.timestamp c₁.timestamp - min c₀.timestamp c₁.timestamp
  if delta < cfg.simultaneousGrace ∧ cfg.operatorPriority then
    if c₀.source.isOperator then (c₀, c₁) else (c₁, c₀)
  else if c₀.timestamp ≤ c₁.timestamp then (c₀, c₁) else (c₁, c₀)

def notifyRejected (loser : Candidate) (now : Time) : ClarificationQueue :=
  if loser.source = .author then q else q.markStale id loser.answer now

/-- The queue after the mention, if it was posted. -/
def sendAuthorMention (mention : Mention) (now : Time) : Option ClarificationQueue :=
  match mention with
  | .posted commentId =>
    match truthy commentId with
    | none => some q
    | some commentId => some (q.markCommentChecked id (some commentId) now)
  | .fails => none

variable (q : ClarificationQueue) (id : IssueId) (item : ClarificationItem) (look : Look)

def handleTimeout : ClarificationQueue :=
  match item.status with
  | .awaitingLocal =>
    let q := (q.markExpired id look.now).markAwaitingAuthor id (some cfg.timeoutAuthor) look.now
    let q := (sendAuthorMention q id look.mention look.now).getD (q.markExpired id look.now)
    q.markEscalationNotified id look.now
  | .awaitingAuthor => (q.markExpired id look.now).markExhausted id look.now
  | _ => q

/-- A look at an active item, and the answer that was accepted. -/
def checkForAnswer : ClarificationQueue × Option String :=
  if item.isExpired look.now then (handleTimeout cfg q id item look, none)
  else
    let (q, candidates) := collectCandidates cfg q id item look
    match candidates with
    | [] => (q, none)
    | [winner] => (q.resolve id winner.answer winner.source look.now, some winner.answer)
    | c₀ :: c₁ :: _ =>
      let (winner, loser) := resolveConflict cfg c₀ c₁
      (notifyRejected (q.resolve id winner.answer winner.source look.now) id loser look.now,
        some winner.answer)

/-- A question for an issue that has none. If the author cannot be asked, the item is taken back
and the exception goes on. -/
def requestClarification (r : Request)
    (startWithAuthor : Bool) (mention : Mention) (now : Time) : ClarificationQueue × Bool :=
  match q.get r.issueId with
  | some _ => (q, true)
  | none =>
    if startWithAuthor then
      let q := (q.enqueue r cfg.timeoutAuthor now).markAwaitingAuthor r.issueId
        (some cfg.timeoutAuthor) now
      match sendAuthorMention q r.issueId mention now with
      | some q => (q, true)
      | none => (q.remove r.issueId, false)
    else ((q.enqueue r cfg.timeoutLocal now).markAwaitingLocal r.issueId now, true)

end ClarificationQueue

end Orchestratord.Clarifier
