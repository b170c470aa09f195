import Orchestratord.Clarifier.Queue

/-! # The clarification gate

Before an issue is dispatched its text is analysed, and an unclear issue waits for an answer of
its author. The analysis, its cache and the fingerprint of a text are not modelled: an analysis
has any result or raises. A call of the gate is one step. -/

namespace Orchestratord.Clarifier

open Foundation
open Issues (IssueId Time Registry IssueRecord truthy)

/-! ## §1 Analyses -/

structure Issue where
  id : IssueId
  identifier : Option String := none
  title : String := ""
  description : Option String := none
  state : String := ""
  priority : Option Int := none
  dependsOn : List String := []
  labels : List String := []
  authorLogin : Option String := none

structure ClarifyQuestion where
  question : String
  evidence : String := ""
  suggestedOptions : List String := []

structure ClarifyResult where
  isClear : Bool
  ambiguities : List ClarifyQuestion := []
  fingerprint : String := ""

variable (result : ClarifyResult)

def ClarifyResult.questions : List String := (result.ambiguities.map (·.question)).filter (· ≠ "")

/-- The text of the request, and its options. -/
def formatClarificationRequest : String × List String :=
  let lines := result.ambiguities.zipIdx.flatMap fun (a, index) =>
    [toString (index + 1) ++ ". " ++ a.question] ++
      (if a.evidence = "" then [] else ["   Context: " ++ a.evidence]) ++
      a.suggestedOptions.map ("   - " ++ ·)
  ("\n".intercalate ("Before automated implementation can start, please clarify:" :: lines),
    result.ambiguities.flatMap (·.suggestedOptions))

structure ClarifierConfig where
  enabled : Bool := true
  blockOnUnclear : Bool := true
  authorFirst : Bool := true
  maxRounds : Int := 2
  failOpen : Bool := true
  maxAnalysesPerPoll : Int := 4
  resolver : ClarificationQueue.ResolverConfig := {}
  /-- Of the text of an issue and the replies to earlier questions. -/
  fingerprint : Issue → List String → String

/-! ## §2 The gate -/

inductive Event where
  /-- The queue has accepted an answer. -/
  | accepted (id : IssueId) (answer : String)
  /-- A new question is open. -/
  | asked (id : IssueId)
  /-- The issue is launched, with the answer that its session gets. -/
  | dispatched (id : IssueId) (answer : Option String)

structure Host where
  registry : Registry := .empty
  queue : ClarificationQueue := .empty
  analysesThisPoll : ℕ := 0
  log : List Event := []

inductive Verdict where
  | dispatch
  | hold
  | raises
  deriving DecidableEq

/-- What a call of the gate finds outside: the analysis, unless it raises, and how the mention of
the author is answered. -/
structure Outside where
  now : Time
  analysis : Option ClarifyResult
  mention : ClarificationQueue.Mention := .posted none

namespace Host

def request (s : Host) (issue : Issue) (record : IssueRecord) (result : ClarifyResult) :
    ClarificationQueue.Request :=
  let (question, options) := formatClarificationRequest result
  { issueId := issue.id
    issueIdentifier := (truthy issue.identifier).getD issue.id
    question, options
    contextSummary := (issue.description.getD "").take 2000 |>.toString
    sinceCommentId := ((s.queue.get issue.id).bind fun item => truthy item.lastCheckedCommentId).or
      record.clarification.commentCursor
    authorLogin := issue.authorLogin }

variable (cfg : ClarifierConfig) (s : Host) (issue : Issue)

/-- A new question is sent, and then the replies so far are stored. -/
def ask (record : IssueRecord)
    (result : ClarifyResult) (replies : List String) (o : Outside) : Host × Verdict :=
  let id := issue.id
  let (queue, delivered) := (s.queue.remove id).requestClarification cfg.resolver
    (s.request issue record result) cfg.authorFirst o.mention o.now
  let s := { s with queue }
  if delivered then
    let registry := s.registry.updateClarification id
      { status := some "awaiting_author", authorLogin := issue.authorLogin,
        replies := some replies } o.now
    let registry := registry.markClarificationBlocked id result.questions result.fingerprint
      (record.clarification.round + 1) o.now
    ({ s with registry, log := s.log ++ [.asked id] }, .hold)
  else (s, .raises)

def applyResult (result : ClarifyResult) (replies : List String) (o : Outside) : Host × Verdict :=
  let id := issue.id
  match s.registry.get id with
  | none => (s, .dispatch)
  | some record =>
    if result.isClear then
      let registry := s.registry.markClarificationResolved id
        { fingerprint := result.fingerprint
          answer := replies.getLast?
          source := if replies = [] then none else some "author"
          status := if replies = [] then "clear" else "resolved"
          replies := some replies } o.now
      ({ s with registry }, .dispatch)
    else if result.questions = [] then
      let registry := s.registry.markClarificationManualRequired id
        ["The clarity analyzer could not produce an actionable question."] result.fingerprint o.now
      ({ s with registry }, .hold)
    else if ! cfg.blockOnUnclear then
      let registry := s.registry.updateClarification id
        { status := some "observation", openQuestions := some result.questions,
          fingerprint := some result.fingerprint, replies := some replies } o.now
      ({ s with registry }, .dispatch)
    else if cfg.maxRounds ≤ record.clarification.round ∨
        cfg.authorFirst ∧ (truthy issue.authorLogin).isNone then
      let registry := s.registry.markClarificationManualRequired id result.questions
        result.fingerprint o.now
      ({ s with registry }, .hold)
    else s.ask cfg issue record result replies o

/-- What is left once the answer has been taken: the last analysis still holds, or there is a new
one, if the poll has any left. -/
def weigh (status : String)
    (fingerprint : Option String) (replies : List String) (o : Outside) : Host × Verdict :=
  let same := fingerprint = some (cfg.fingerprint issue replies)
  if same ∧ (status = "clear" ∨ status = "resolved" ∨ status = "observation") then (s, .dispatch)
  else if same ∧ status = "manual_required" then (s, .hold)
  else if max 1 cfg.maxAnalysesPerPoll ≤ s.analysesThisPoll then (s, .hold)
  else
    let s := { s with analysesThisPoll := s.analysesThisPoll + 1 }
    match o.analysis with
    | none => (s, .raises)
    | some result => s.applyResult cfg issue result replies o

variable (id : IssueId)

/-- The text has changed while the author was asked: the question is retired. -/
def retire (now : Time) : Host :=
  { s with
    queue := s.queue.remove id
    registry := s.registry.edit id now fun record =>
      { record with clarification :=
          { record.clarification with round := 0, openQuestions := [] } } }

/-- The answer leaves the queue. -/
def take (item : ClarificationItem) (now : Time) : Host :=
  let registry :=
    match truthy item.lastCheckedCommentId with
    | none => s.registry
    | some cursor => s.registry.updateClarification id { commentCursor := some cursor } now
  { s with queue := s.queue.remove id, registry }

/-- The replies with the answer of the item. -/
def withAnswer (replies : List String) (item : ClarificationItem) : List String :=
  let answer := Text.strip (item.answer.getD "")
  if answer ≠ "" ∧ answer ∉ replies then replies ++ [answer] else replies

def shouldDispatch (o : Outside) : Host × Verdict :=
  let id := issue.id
  if id = "" ∨ ! cfg.enabled then (s, .dispatch)
  else
    match s.registry.get id with
    | none => (s, .dispatch)
    | some record =>
      let c := record.clarification
      let status := c.status.getD ""
      if status = "manual_resolved" then (s, .dispatch)
      else if status = "awaiting_author" then
        match s.queue.getResolved id with
        | none =>
          if c.fingerprint = some (cfg.fingerprint issue c.replies) then (s, .hold)
          else (s.retire id o.now).weigh cfg issue status c.fingerprint c.replies o
        | some item =>
          (s.take id item o.now).weigh cfg issue status c.fingerprint (withAnswer c.replies item) o
      else s.weigh cfg issue status c.fingerprint c.replies o

/-! ## §3 Polls -/

/-- The issue is launched; its session gets the answer of the record. -/
def dispatched (id : IssueId) : Host :=
  let answer := (s.registry.get id).bind fun record => truthy record.clarification.localAnswer
  { s with log := s.log ++ [.dispatched id answer] }

/-- A candidate that has come as far as the gate. An exception is logged, and lets the issue pass
if the gate fails open. -/
def considerCandidate (o : Outside) : Host :=
  match s.shouldDispatch cfg issue o with
  | (s, .dispatch) => s.dispatched issue.id
  | (s, .hold) => s
  | (s, .raises) => if cfg.failOpen then s.dispatched issue.id else s

/-- The resolver looks at an item, if it is active. -/
def check (id : IssueId) (look : ClarificationQueue.Look) : Host :=
  match (s.queue.get id).filter (·.status.isActive) with
  | none => s
  | some item =>
    let (queue, answer) := s.queue.checkForAnswer cfg.resolver id item look
    { s with queue, log := s.log ++ answer.toList.map (.accepted id) }

/-- The resolver looks at every active item. -/
def pollClarificationAnswers (look : IssueId → ClarificationQueue.Look) : Host :=
  s.queue.pollActive.foldl (fun s id => s.check cfg id (look id)) s

/-- An operator answers. -/
def clarify (answer : String) (now : Time) : Host :=
  match s.queue.get id with
  | none => s
  | some _ =>
    { s with
      queue := s.queue.resolve id answer .clarificationQueue now
      log := s.log ++ [.accepted id answer] }

inductive Input where
  | beginPoll
  | register (args : Issues.Registration) (fresh : String) (now : Time)
  | pollAnswers (look : IssueId → ClarificationQueue.Look)
  | clarify (id : IssueId) (answer : String) (now : Time)
  | candidate (issue : Issue) (o : Outside)

def step (s : Host) : Input → Host
  | .beginPoll => { s with analysesThisPoll := 0 }
  | .register args fresh now => { s with registry := s.registry.register args fresh now }
  | .pollAnswers look => s.pollClarificationAnswers cfg look
  | .clarify id answer now => s.clarify id answer now
  | .candidate issue o => s.considerCandidate cfg issue o

end Host

end Orchestratord.Clarifier
