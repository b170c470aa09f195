import Orchestratord.Commands.Intent
import Orchestratord.Daemon.Orchestrator

/-! # The poll's dealings with labels and comments

The daemon's model takes the intent of a candidate as an answer from outside. Here the
answer is computed: from the labels, from the comments after the record's cursor and from
the record itself, with the role check, the rate limits and the built-in rebase. -/

namespace Orchestratord.Commands

open Foundation
open Daemon Orchestrator

structure Settings where
  daemon : Daemon.Config := {}
  allowAnyoneToRetry : Bool := false
  maxRetriesPerIssue : Nat := 3
  maxRebaseAttemptsPerIssue : Nat := 3
  useForcePush : Bool := false
  intentLabels : IntentLabels := {}
  /-- The tracker keeps the issues in local files. -/
  localTracker : Bool := false
  /-- The login under which the daemon writes comments. -/
  account : Option String := some "orchestratord"
  /-- The characters of words. -/
  word : Char → Bool := fun c => c.isAlphanum || c = '_'

structure Comment where
  id : String
  body : String
  authorLogin : Option String
  deriving DecidableEq, Repr

/-- The comments of an issue, and the fields of its record that belong to them or to its
rebases. -/
structure Thread where
  comments : List Comment := []
  authorLogin : Option String := none
  commandCursor : Option String := none
  lastCommand : Option String := none
  rebaseAttemptCount : Nat := 0
  hasConflict : Bool := false
  deriving DecidableEq, Repr

/-! ## Finding a command -/

/-- The comments after the cursor. When no comment has the cursor's id, the local tracker
starts over and the other one finds nothing. -/
def newCommentsSince (localTracker : Bool) (comments : List Comment) : Option String → List Comment
  | none => comments
  | some cursor =>
    match comments.dropWhile (·.id ≠ cursor) with
    | [] => if localTracker then comments else []
    | _ :: newer => newer

structure CommandIntent where
  command : Command
  authorLogin : Option String
  commentId : String
  deriving DecidableEq, Repr

def fetchIssueCommandIntent (cfg : Settings) (thread : Thread) : Option CommandIntent :=
  (newCommentsSince cfg.localTracker thread.comments thread.commandCursor).findSome? fun comment =>
    (parseAgentCommand cfg.word comment.body).map fun command =>
      { command, authorLogin := comment.authorLogin, commentId := comment.id }

/-- The intent the command line has left in the record. -/
def cliIntent (rec : Option IssueRecord) : Intent :=
  match rec with
  | some rec => if rec.intentSource = some .cli then rec.intent else .none
  | none => .none

/-! ## The role check -/

def isCommandAuthorEligible (cfg : Settings) (thread : Thread) (author : Option String) : Bool :=
  cfg.allowAnyoneToRetry || match author with
    | none => false
    | some login =>
      if login = "" then false
      else if login = "orchestratord" then true
      else thread.authorLogin = some login

variable (thread : Thread) (found : CommandIntent)

/-- The command's author is the recorded author of the issue. -/
def byAuthor : Bool :=
  match thread.authorLogin with
  | none => false
  | some login => login ≠ "" && found.authorLogin = some login

/-! ## Answers of the daemon in the thread -/

def acknowledgement (command : Command) : String :=
  "## Orchestratord: 已受理 /agent " ++ command.value ++ "\n\n下一轮 poll 开始执行。\n"

def rejection : String :=
  let author := match found.authorLogin with
    | none | some "" => "<unknown>"
    | some login => login
  "## Orchestratord: 仅 issue 作者或 maintainer 可触发 /agent " ++ found.command.value ++
    "\n\nauthor=`" ++ author ++ "` not authorized; ignored.\n"

variable (account : Option String)

/-- The daemon writes a comment; `posted` is its id, unless the tracker refused it. -/
def Thread.post (posted : Option String) (body : String) : Thread :=
  match posted with
  | none => thread
  | some id => { thread with
      comments := thread.comments ++ [{ id, body, authorLogin := account }] }

/-- An empty id does not move the cursor. -/
def Thread.advance (id : String) : Thread :=
  if id = "" then thread else { thread with commandCursor := some id }

def Thread.postCommandAcknowledgement (command : Command) (posted : Option String) : Thread :=
  let thread := thread.post account posted (acknowledgement command)
  let thread := thread.advance (posted.getD "")
  { thread with lastCommand := some ("/agent " ++ command.value) }

def Thread.rejectUnauthorizedCommand (found : CommandIntent) (posted : Option String) : Thread :=
  (thread.post account posted (rejection found)).advance found.commentId

/-! ## The built-in rebase -/

/-- What comes of a rebase: there is nothing to rebase, git fails with an exception, or a
result is returned. -/
inductive RebaseAnswer where
  | unavailable
  | raised
  | result (hasConflict rebased : Bool)
  deriving DecidableEq, Repr

/-- The record's bookkeeping. A forced rebase that leaves a conflict gets its attempts back. -/
def Thread.processRebaseIntent (useForcePush : Bool) : RebaseAnswer → Thread
  | .result true _ => { thread with
      hasConflict := true
      rebaseAttemptCount := if useForcePush then 0 else thread.rebaseAttemptCount }
  | .result false true => { thread with hasConflict := false }
  | _ => thread

/-! ## The host -/

structure Host where
  daemon : Orchestrator
  threads : IssueId → Thread
  /-- The issues whose branch a rebase was started on, in order. -/
  rebases : List IssueId := []

namespace Host

variable (cfg : Settings) (s : Host) (id : IssueId)

def setThread (thread : Thread) : Host :=
  { s with threads := Function.update s.threads id thread }

/-- The poll goes on with the next candidate. -/
def passOver : Host := { s with daemon := { s.daemon with phase := .idle } }

variable (labels : List String)

/-- The merged intent and the source that is recorded with it. -/
def resolveIntent (found : Option CommandIntent) : Intent × IntentSource :=
  let label := intentFromLabelSet cfg.intentLabels labels
  let command := (found.map (commandToIntent ·.command)).getD .none
  let cli := cliIntent (s.daemon.registry.get id)
  let merged := mergeIntentsWithCli label command cli
  let fallback := if found.isSome then .command else .label
  (merged, (intentSource label command cli merged).getD fallback)

def checkRetryRateLimit : Bool := s.daemon.registry.retryCount id < cfg.maxRetriesPerIssue

/-- A rebase intent is marked whatever the rate limit says. An attempt is counted before the
rebase starts. -/
def dispatchRebase (origin : IntentSource) (answer : RebaseAnswer) : Host :=
  let thread := s.threads id
  if thread.rebaseAttemptCount < cfg.maxRebaseAttemptsPerIssue then
    let daemon := s.daemon.actOnIntent cfg.daemon id .rebase origin (answer ≠ .raised)
    if (s.daemon.registry.get id).isSome then
      let counted := { thread with rebaseAttemptCount := thread.rebaseAttemptCount + 1 }
      { s with
        daemon
        threads := Function.update s.threads id
          (counted.processRebaseIntent cfg.useForcePush answer)
        rebases := if answer = .unavailable then s.rebases else s.rebases ++ [id] }
    else { s with daemon }
  else { s with daemon := s.daemon.actOnIntent cfg.daemon id .rebase origin false }

def dispatch (intent : Intent) (origin : IntentSource) (answer : RebaseAnswer) : Host :=
  if intent = .rebase then s.dispatchRebase cfg id origin answer
  else { s with daemon := s.daemon.actOnIntent cfg.daemon id intent origin true }

/-- A command that is honoured is acknowledged; `unblock` does its work here. -/
def honour (posted : Option String) : Option CommandIntent → Host
  | none => s
  | some found =>
    let s := s.setThread id
      ((s.threads id).postCommandAcknowledgement cfg.account found.command posted)
    if found.command = .unblock then
      { s with daemon := { s.daemon with registry := s.daemon.registry.unblock id } }
    else s

/-- The poll deals with one candidate, given the command that was found. -/
def resolveWith (found : Option CommandIntent)
    (posted : Option String) (answer : RebaseAnswer) : Host :=
  let (intent, origin) := s.resolveIntent cfg id labels found
  if (id ∈ s.daemon.completed ∨ id ∈ s.daemon.pendingReview) ∧ ¬ intent.reopens then s.passOver
  else
    -- the role check covers retries and follow-ups only
    match found.filter fun c => intent.reopens ∧
        ¬ isCommandAuthorEligible cfg (s.threads id) c.authorLogin with
    | some refused => (s.setThread id
        ((s.threads id).rejectUnauthorizedCommand cfg.account refused posted)).passOver
    | none =>
      if intent = .retry ∧ ¬ s.checkRetryRateLimit cfg id then s.passOver
      else (s.honour cfg id posted found).dispatch cfg id intent origin answer

/-- The poll looks at the candidate it waits for. -/
def resolve (s : Host) (labels : List String) (posted : Option String) (answer : RebaseAnswer) :
    Host :=
  match s.daemon.phase with
  | .launching _ id .resolve =>
    s.resolveWith cfg id labels (fetchIssueCommandIntent cfg (s.threads id)) posted answer
  | _ => s

/-! ## Steps -/

/-- The author a candidate comes with is recorded with a new record, and later only if none
is recorded yet. -/
def recordAuthor (author : Option String) : Thread :=
  let thread := s.threads id
  if (s.daemon.registry.get id).isNone then { thread with authorLogin := author }
  else if author.any (· ≠ "") ∧ ¬ thread.authorLogin.any (· ≠ "") then
    { thread with authorLogin := author }
  else thread

/-- The registration at a launch keeps the recorded author only if the issue comes without
one. -/
def registerAuthor : Option String → Thread
  | none => { thread with authorLogin := thread.authorLogin.filter (· ≠ "") }
  | some author => { thread with authorLogin := some author }

/-- The issue that the answer to a launch registers. -/
def registers (d : Orchestrator) : Orchestrator.Input → Option IssueId
  | .reply (.workspace true) =>
    match d.phase with
    | .launching _ id .workspace => some id
    | _ => none
  | _ => none

/-- A record with a conflict gets a rebase run, within the rate limit. -/
def rebaseConflict (s : Host) (id : IssueId) : Host :=
  let thread := s.threads id
  if s.daemon.phase ≠ .idle ∨ s.daemon.isRunning id ∨ id ∈ s.daemon.claimed ∨
      (s.daemon.registry.get id).isNone ∨ ¬ thread.hasConflict ∨
      cfg.maxRebaseAttemptsPerIssue ≤ thread.rebaseAttemptCount then s
  else
    let s := s.setThread id
      { thread with rebaseAttemptCount := thread.rebaseAttemptCount + 1 }
    { s with daemon := s.daemon.rebaseConflict id }

inductive Input where
  /-- Somebody writes a comment. -/
  | comment (id : IssueId) (comment : Comment)
  | candidate (id : IssueId) (author : Option String)
  | resolve (labels : List String) (posted : Option String) (answer : RebaseAnswer)
  | rebaseConflict (id : IssueId)
  /-- The conflict scan, the end of a rebase run or the command line writes the record. -/
  | rebaseState (id : IssueId) (attempts : Nat) (hasConflict : Bool)
  /-- Any other step of the daemon, with the author of the issue it registers. -/
  | other (input : Orchestrator.Input) (author : Option String)
  deriving DecidableEq, Repr

def step (s : Host) : Input → Host
  | .comment id comment =>
    s.setThread id { s.threads id with comments := (s.threads id).comments ++ [comment] }
  | .candidate id author =>
    if s.daemon.phase = .idle then
      { s.setThread id (s.recordAuthor id author) with daemon := s.daemon.candidate id }
    else s
  | .resolve labels posted answer => s.resolve cfg labels posted answer
  | .rebaseConflict id => s.rebaseConflict cfg id
  | .rebaseState id attempts hasConflict =>
    s.setThread id { s.threads id with rebaseAttemptCount := attempts, hasConflict }
  | .other (.candidate _) _ | .other (.rebaseConflict _) _ | .other (.reply (.resolved ..)) _ => s
  | .other input author =>
    let s' := match registers s.daemon input with
      | some id => s.setThread id (registerAuthor (s.threads id) author)
      | none => s
    { s' with daemon := s.daemon.step cfg.daemon input }

/-! ## The daemon below

Whatever the labels and comments say, the daemon takes a step of its own model. -/

section Below

variable {cfg : Settings}

/-- The poll can always pass a candidate over: as after a retry beyond the rate limit. -/
theorem resume_passedOver {d : Orchestrator} {source : Source} {id : IssueId}
    (hph : d.phase = .launching source id .resolve) :
    d.resume cfg.daemon (.resolved .retry .label false false) = { d with phase := .idle } := by
  unfold resume
  rw [hph]
  simp [launchStep, dispatchCandidate]

theorem dispatch_daemon (cfg : Settings) (s : Host) (id : IssueId) (intent : Intent) (origin : IntentSource)
    (answer : RebaseAnswer) : ∃ allowed, (s.dispatch cfg id intent origin answer).daemon =
        s.daemon.actOnIntent cfg.daemon id intent origin allowed ∧
      (intent = .retry → allowed = true) := by
  unfold dispatch
  split
  case isTrue hre =>
    subst hre
    dsimp only [dispatchRebase]
    split
    · split
      all_goals exact ⟨_, rfl, by simp⟩
    · exact ⟨_, rfl, by simp⟩
  · exact ⟨true, rfl, fun _ => rfl⟩

theorem honour_daemon (posted : Option String) (found : Option CommandIntent) :
    (s.honour cfg id posted found).daemon = { s.daemon with
      registry := if (found.map (·.command)) = some .unblock then s.daemon.registry.unblock id
        else s.daemon.registry } := by
  unfold honour
  cases found with
  | none => rfl
  | some found =>
    by_cases h : found.command = .unblock
    all_goals simp [h, setThread]

theorem resolveWith_daemon {s : Host} {source : Source} {id : IssueId}
    (hph : s.daemon.phase = .launching source id .resolve) (labels : List String)
    (found : Option CommandIntent) (posted : Option String) (answer : RebaseAnswer) :
    ∃ reply, (s.resolveWith cfg id labels found posted answer).daemon =
      s.daemon.resume cfg.daemon reply := by
  unfold resolveWith
  generalize s.resolveIntent cfg id labels found = resolved
  obtain ⟨intent, origin⟩ := resolved
  dsimp only
  split
  · exact ⟨_, (resume_passedOver hph).symm⟩
  rename_i hlo
  split
  · exact ⟨_, (resume_passedOver hph).symm⟩
  split
  · exact ⟨_, (resume_passedOver hph).symm⟩
  obtain ⟨allowed, hdi, hal⟩ :=
    dispatch_daemon cfg (s.honour cfg id posted found) id intent origin answer
  refine ⟨.resolved intent origin allowed (found.map (·.command) = some .unblock), ?_⟩
  rw [hdi, honour_daemon]
  unfold resume
  rw [hph]
  show _ = s.daemon.dispatchCandidate cfg.daemon id intent origin allowed _
  unfold dispatchCandidate
  have hre : ¬ (intent = .retry ∧ ¬ allowed = true) := fun h => h.2 (hal h.1)
  rw [if_neg hlo, if_neg hre]
  by_cases hun : found.map (·.command) = some .unblock <;> simp [hun]

/-- One step of the host is at most one step of the daemon. -/
theorem step_daemon (cfg : Settings) (s : Host) (input : Input) :
    ∃ inputs, (s.step cfg input).daemon = runFrom (.step cfg.daemon) s.daemon inputs := by
  cases input with
  | comment | rebaseState => exact ⟨[], rfl⟩
  | candidate id =>
    by_cases hid : s.daemon.phase = .idle
    · exact ⟨[.candidate id], by simp [step, Orchestrator.step, Orchestrator.whenIdle, hid]⟩
    · exact ⟨[], by simp [step, hid]⟩
  | resolve labels posted answer =>
    dsimp only [step, resolve]
    split
    case h_1 _ id hph =>
      obtain ⟨reply, hre⟩ := resolveWith_daemon hph labels
        (fetchIssueCommandIntent cfg (s.threads id)) posted answer
      exact ⟨[.reply reply], hre⟩
    · exact ⟨[], rfl⟩
  | rebaseConflict id =>
    dsimp only [step, rebaseConflict]
    split
    · exact ⟨[], rfl⟩
    · rename_i hfr
      have hid : s.daemon.phase = .idle := not_not.mp fun hbu => hfr (.inl hbu)
      exact ⟨[.rebaseConflict id], by simp [Orchestrator.step, Orchestrator.whenIdle, hid, setThread]⟩
  | other input =>
    cases hin : input with
    | candidate | rebaseConflict => exact ⟨[], rfl⟩
    | reply reply =>
      cases reply with
      | resolved => exact ⟨[], rfl⟩
      | _ => exact ⟨[input], by rw [hin]; rfl⟩
    | _ => exact ⟨[input], by rw [hin]; rfl⟩

/-- Every run of the host is a run of the daemon. -/
theorem run_daemon (inputs : List Input) : ∃ below, (runFrom (step cfg) s inputs).daemon =
      runFrom (.step cfg.daemon) s.daemon below := by
  induction inputs generalizing s with
  | nil => exact ⟨[], rfl⟩
  | cons input _ ih =>
    obtain ⟨first, hfi⟩ := s.step_daemon cfg input
    obtain ⟨later, hla⟩ := ih (s.step cfg input)
    refine ⟨first ++ later, ?_⟩
    rw [runFrom_cons, hla, hfi]
    simp [runFrom]

end Below

end Host

end Orchestratord.Commands
