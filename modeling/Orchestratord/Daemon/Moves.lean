import Orchestratord.Daemon.Queue

/-! # What a step of the daemon can do

Most steps only mark a record. What the end of a session and an operator's command can do
beside that is said here once, for every invariant of the daemon. -/

namespace Orchestratord.Daemon

open Foundation Option

/-- The launch has registered the issue or needs no registration. -/
def Stage.registered : Stage → Bool
  | .refresh | .findPullRequest | .reviewFeedback | .followupWorkspace => true
  | _ => false

/-- The poll's own stages. -/
def Stage.polls : Stage → Bool
  | .resolve | .admission => true
  | _ => false

/-- The part of a record that plans, counts and asks for retries. -/
def IssueRecord.retries (rec : IssueRecord) : Option Nat × Nat × Intent :=
  (rec.nextRetryAt, rec.retryCount, rec.intent)

namespace Orchestrator

/-- The states agree on everything that plans, counts or starts a run of an issue. -/
structure Alike (d d' : Orchestrator) : Prop where
  records : ∀ i, (d'.registry.get i).map (·.retries) = (d.registry.get i).map (·.retries) := by
    exact fun _ => rfl
  queue : d'.retryQueue = d.retryQueue := by rfl
  attempts : d'.retryAttempts = d.retryAttempts := by rfl
  phase : d'.phase = d.phase := by rfl
  followups : d'.followups = d.followups := by rfl
  sessions : d'.sessions = d.sessions := by rfl
  running : d'.running = d.running := by rfl
  log : d'.log = d.log := by rfl

/-- Writing a record in place keeps what the new value agrees on. -/
theorem records_modify (registry : Registry) (id : IssueId) (f : IssueRecord → IssueRecord)
    (hf : ∀ rec, (f rec).retries = rec.retries) (i : IssueId) :
    ((registry.modify id f).get i).map (·.retries) = (registry.get i).map (·.retries) :=
  Registry.map_get_modify registry id i _ f hf

namespace Alike

variable {d d' e : Orchestrator} {id : IssueId}

@[refl] theorem refl (d : Orchestrator) : Alike d d := {}

theorem trans (h : Alike d d') (h' : Alike d' e) : Alike d e where
  records i := (h'.records i).trans (h.records i)
  queue := h'.queue.trans h.queue
  attempts := h'.attempts.trans h.attempts
  phase := h'.phase.trans h.phase
  followups := h'.followups.trans h.followups
  sessions := h'.sessions.trans h.sessions
  running := h'.running.trans h.running
  log := h'.log.trans h.log

variable (h : Alike d d') (i : IssueId)

include h

theorem plan : d'.registry.plan i = d.registry.plan i := by
  have := congrArg (·.bind (·.1)) (h.records i)
  rwa [bind_map, bind_map] at this

theorem isSome : (d'.registry.get i).isSome = (d.registry.get i).isSome := by
  simpa using congrArg Option.isSome (h.records i)

theorem retryCount : d'.registry.retryCount i = d.registry.retryCount i := by
  have := congrArg (·.map (·.2.1)) (h.records i)
  rw [map_map, map_map] at this
  exact congrArg (·.getD 0) this

theorem intentIs (p : Intent → Bool) : d'.registry.intentIs i p = d.registry.intentIs i p := by
  have := congrArg (·.any (p ·.2.2)) (h.records i)
  rwa [any_map, any_map] at this

end Alike

variable (cfg : Config) (d : Orchestrator) (id : IssueId)

theorem alike_escalated (abandon : Bool) : Alike d (d.escalated id abandon) := by
  unfold escalated
  split
  · rfl
  · exact { records := records_modify _ _ _ fun _ => rfl }

theorem alike_synced (task : TaskId) (prNumber : Option Nat) :
    Alike d (d.synced task prNumber) := by
  unfold synced
  split
  · rfl
  · exact { records := records_modify _ _ _ fun _ => rfl }

theorem alike_settle : Alike d (d.settle id) := by
  unfold settle
  split
  · exact {}
  · rfl

/-! ## The end of a session -/

/-- A run that ends marks its record, and may schedule a retry then; a cancelled run does
not. -/
theorem finishRun_cases (now : Nat) (status : RunStatus) (reason : Option EndReason) :
    ∃ e, Alike d e ∧ (d.finishRun cfg now id status reason = e ∨ status ≠ .cancelled ∧
      ∃ baseMs, d.finishRun cfg now id status reason = e.scheduleRetry cfg now id reason baseMs) := by
  dsimp only [finishRun]
  generalize hhe : (if status = .pendingReview then
    { d with finishing := d.finishing ++ [id] }.holdForReview id
    else { d with finishing := d.finishing ++ [id] }) = e
  have hal : Alike d e := by
    rw [← hhe]
    split
    · exact { records := records_modify _ _ _ fun _ => rfl }
    · exact {}
  split
  case isFalse => exact ⟨e, hal, .inl rfl⟩
  unfold interpret
  split
  · exact ⟨e, hal, .inl rfl⟩
  split
  · exact ⟨e, hal, .inl rfl⟩
  rename_i mark base hve
  refine ⟨{ e with
      registry := e.registry.mark id mark
      completed := if status = .completed then insert id e.completed else e.completed },
    hal.trans { records := records_modify _ _ _ fun _ => rfl }, ?_⟩
  cases base with
  | none => exact .inl rfl
  | some baseMs =>
    refine .inr ⟨?_, baseMs, rfl⟩
    rintro rfl
    cases hve

/-- The session is dropped and its record marked. Only a session that was not cancelled
may be retried. -/
theorem sessionEnds_cases (now : Nat) (task : TaskId) (status : RunStatus)
    (reason : Option EndReason) :
    d.sessionEnds cfg now task status reason = d ∨ ∃ s ∈ d.sessions, ∃ e,
      Alike (d.dropSession s) e ∧ (d.sessionEnds cfg now task status reason = e ∨
        s.cancelled = false ∧ ∃ baseMs, d.sessionEnds cfg now task status reason =
          e.scheduleRetry cfg now s.issueId reason baseMs) := by
  unfold sessionEnds
  split
  · exact .inl rfl
  rename_i s hfi
  refine .inr ⟨s, List.mem_of_find?_eq_some hfi, ?_⟩
  split
  · exact ⟨_, .refl _, .inl rfl⟩
  split
  · obtain ⟨e, hal, hen | ⟨hne, -⟩⟩ := finishRun_cases cfg (d.dropSession s) s.issueId now
      .cancelled (some .operatorStopped)
    · exact ⟨e, hal, .inl hen⟩
    · exact absurd rfl hne
  case isFalse hnot =>
    obtain ⟨e, hal, hen⟩ := finishRun_cases cfg (d.dropSession s) s.issueId now status reason
    exact ⟨e, hal, hen.imp_right fun h => ⟨by simpa using hnot, h.2⟩⟩

/-! ## Commands -/

/-- What a command can do to its issue. -/
inductive Commanded (d : Orchestrator) (id : IssueId) : Command → Orchestrator → Prop
  | marked {command : Command} {e : Orchestrator} : Alike d e → Commanded d id command e
  | stopped {command : Command} : command = .stop ∨ command = .takeover →
    Commanded d id command (d.stopIssue id)
  | reset {command : Command} (intent : Intent) (resetCount : Bool) :
    command = .retry resetCount ∨ command = .reviewRetry → Commanded d id command
      { d.reopen id intent .cli resetCount with
        retryAttempts := Function.update d.retryAttempts id 0 }
  | reopened : Commanded d id .followup (d.reopen id .followup .chat false)
  | asked : (d.registry.get id).isSome = true →
    Commanded d id .reviewFollowup { d with followups := d.followups ++ [(id, .feedback)] }

theorem commanded_reset {command : Command} (intent : Intent) (resetCount : Bool)
    (hco : command = .retry resetCount ∨ command = .reviewRetry) :
    Commanded d id command (d.resetIssueForRetry id intent resetCount) := by
  unfold resetIssueForRetry
  split
  · exact .reset intent resetCount hco
  · exact .marked (.refl d)

theorem applyCommand_cases (command : Command) :
    Commanded d id command (d.applyCommand id command) := by
  unfold applyCommand
  split
  · exact .marked (.refl d)
  cases command with
  | stop => exact .stopped (.inl rfl)
  | takeover => exact .stopped (.inr rfl)
  | pause | resume =>
    dsimp only
    split
    · exact .marked { records := records_modify _ _ _ fun _ => rfl }
    · exact .marked (.refl d)
  | retry resetCount => exact commanded_reset d id .retry resetCount (.inl rfl)
  | reviewRetry => exact commanded_reset d id .followup false (.inr rfl)
  | followup =>
    dsimp only [followupControl]
    split
    · exact .reopened
    · exact .marked (.refl d)
  | reviewApprove =>
    dsimp only [reviewApprove]
    split
    · exact .marked (.refl d)
    · exact .marked { records := records_modify _ _ _ fun _ => rfl }
  | reviewFollowup =>
    dsimp only
    split
    · exact .marked (.refl d)
    rename_i hkn
    refine .asked ?_
    by_contra hno
    exact hkn (.inl (by simpa using hno))

/-! ## Launches -/

/-- A registry in which the intent of one issue is taken up; plans and counters are kept. -/
structure Intended (id : IssueId) (intent : Intent) (r r' : Registry) : Prop where
  plan : ∀ i, r'.plan i = r.plan i
  isSome : ∀ i, (r'.get i).isSome = (r.get i).isSome
  retryCount : ∀ i, r'.retryCount i = r.retryCount i
  intentIs : ∀ i p, p .none = false → (id = i → p intent = false) → r.intentIs i p = false →
    r'.intentIs i p = false

namespace Intended

variable {id : IssueId} {intent : Intent} {r r' r'' : Registry}

theorem refl : Intended id intent r r :=
  ⟨fun _ => rfl, fun _ => rfl, fun _ => rfl, fun _ _ _ _ hno => hno⟩

theorem trans (h : Intended id intent r r') (h' : Intended id intent r' r'') :
    Intended id intent r r'' where
  plan i := (h'.plan i).trans (h.plan i)
  isSome i := (h'.isSome i).trans (h.isSome i)
  retryCount i := (h'.retryCount i).trans (h.retryCount i)
  intentIs i p hnn hp hno := h'.intentIs i p hnn hp (h.intentIs i p hnn hp hno)

theorem modify {f : IssueRecord → IssueRecord} (hf : ∀ rec, (f rec).nextRetryAt = rec.nextRetryAt ∧
    (f rec).retryCount = rec.retryCount ∧
      ((f rec).intent = rec.intent ∨ (f rec).intent = .none ∨ (f rec).intent = intent)) :
    Intended id intent r (r.modify id f) where
  plan i := Registry.plan_modify r id i f fun rec => (hf rec).1
  isSome i := Registry.isSome_get_modify r id i f
  retryCount i := Registry.retryCount_modify r id i f fun rec => (hf rec).2.1
  intentIs i p hnn hp hno := by
    unfold Registry.intentIs at hno ⊢
    rw [Dict.get_modify]
    split
    case isFalse => exact hno
    rename_i heq
    rcases hrec : r.get i with _ | rec
    · rfl
    rw [hrec] at hno
    rcases (hf rec).2.2 with h | h | h <;> simp only [map_some, any_some, h]
    · exact hno
    · exact hnn
    · exact hp heq.symm

end Intended

/-- What the poll can do with a candidate once its intent is known. -/
inductive Dispatched (intent : Intent) : Orchestrator → Prop
  | passed {registry : Registry} {completed : Finset IssueId} :
    Intended id intent d.registry registry →
      Dispatched intent { d with registry, completed, phase := .idle }
  | waits {registry : Registry} (cli : Bool) (stage : Stage) :
    Intended id intent d.registry registry → stage = .admission ∨ stage = .reviewFeedback →
      Dispatched intent ({ d with registry }.waitFor (.poll cli) id stage)

theorem dispatchCandidate_cases (intent : Intent) (origin : IntentSource) (allowed unblock : Bool) :
    Dispatched d id intent (d.dispatchCandidate cfg id intent origin allowed unblock) := by
  have hact : ∀ r, Intended id intent d.registry r → Dispatched d id intent
      ({ d with registry := r }.actOnIntent cfg id intent origin allowed) := by
    intro r hr
    have hma : Intended id intent d.registry (r.markIntent id intent origin) :=
      hr.trans (.modify fun _ => ⟨rfl, rfl, .inr (.inr rfl)⟩)
    unfold actOnIntent
    cases intent with
    | blocked => exact .passed (hma.trans (.modify fun _ => ⟨rfl, rfl, .inl rfl⟩))
    | rebase =>
      refine .passed ?_
      split
      · exact hma.trans (.modify fun _ => ⟨rfl, rfl, .inr (.inl rfl)⟩)
      · exact hma
    | retry => exact .waits _ _ hma (.inl rfl)
    | followup =>
      dsimp only
      split
      · unfold collectFeedback
        split
        · exact .waits _ _ hma (.inr rfl)
        refine .passed ?_
        split
        · exact hma.trans (.modify fun _ => ⟨rfl, rfl, .inr (.inl rfl)⟩)
        · exact hma
      · exact .waits _ _ hma (.inl rfl)
    | none =>
      dsimp only
      split
      · exact .passed hr
      · exact .waits _ _ hr (.inl rfl)
  unfold dispatchCandidate
  split
  · exact .passed .refl
  split
  · exact .passed .refl
  · split
    · exact hact _ (.modify fun rec => by split <;> simp)
    · exact hact _ .refl

variable (source : Source) (stage : Stage) (reply : Reply)

/-- How a launch can go on with the answer that it waited for. -/
inductive Continued : Orchestrator → Prop
  | dispatched {e : Orchestrator} (intent : Intent) (origin : IntentSource)
    (allowed unblock : Bool) : stage = .resolve → reply = .resolved intent origin allowed unblock →
    Dispatched d id intent e → Continued e
  | refused : stage = .admission → Continued { d with phase := .idle }
  | waits {e : Orchestrator} (next : Stage) : Alike d e → e.completed = d.completed →
    (next.registered = true → stage.registered = true) → next.polls = false →
    (next = .closePullRequest → d.registry.intentIs id (· = .retry) = true) →
    Continued (e.waitFor source id next)
  | reset : stage = .closePullRequest ∨ d.registry.intentIs id (· = .retry) = true →
    Continued ({ d with registry := d.registry.resetForRetry id }.waitFor source id .workspace)
  | registered : stage = .workspace →
    Continued ({ d with registry := d.registry.register id }.waitFor source id .refresh)
  | returned {e : Orchestrator} : Alike d e → (e.completed = d.completed ∨
      stage.registered = true ∧ e.completed = insert id d.completed) →
    Continued (e.launchReturned cfg id source)
  | started (runKind : RunKind) : stage.registered = true →
    Continued ((d.startSession id runKind).launchReturned cfg id source)
  | ignored : Continued d

variable {stage}

theorem enter_cases (hst : stage.registered = true) :
    Continued cfg d id source stage reply (d.enter cfg source id) := by
  unfold enter collectFeedback
  split
  · split
    · exact .waits .reviewFeedback (.refl d) rfl (fun _ => hst) rfl nofun
    · exact .returned (.refl d) (.inl rfl)
  · exact .started .issue hst

theorem registryGuard_cases (hst : stage.registered = true) :
    Continued cfg d id source stage reply (d.registryGuard cfg source id) := by
  unfold registryGuard
  split
  · exact .returned {} (.inr ⟨hst, rfl⟩)
  · exact enter_cases cfg d id source reply hst

variable (stage)

theorem launchStep_cases :
    Continued cfg d id source stage reply (d.launchStep cfg source id stage reply) := by
  unfold launchStep
  split
  · exact .dispatched _ _ _ _ rfl rfl (dispatchCandidate_cases cfg d id _ _ _ _)
  · split
    · exact .waits .dependencies {} rfl nofun rfl nofun
    · exact .refused rfl
  · split
    · unfold prepareIntentReset
      split
      case isTrue hre =>
        split
        · exact .waits .closePullRequest (.refl d) rfl nofun rfl fun _ => hre
        · exact .reset (.inr hre)
      · exact .waits .workspace (.refl d) rfl nofun rfl nofun
    · exact .returned {} (.inl rfl)
  · exact .reset (.inl rfl)
  · split
    · exact .registered rfl
    · exact .returned {} (.inl rfl)
  · split
    · exact .returned {} (.inl rfl)
    · exact .returned {} (.inl rfl)
    · exact enter_cases cfg d id source _ rfl
    · split
      · exact .waits .findPullRequest (.refl d) rfl (fun _ => rfl) rfl nofun
      · exact registryGuard_cases cfg d id source _ rfl
  · split
    · exact enter_cases cfg d id source _ rfl
    · split
      · exact .returned {} (.inr ⟨rfl, rfl⟩)
      · exact registryGuard_cases cfg d id source _ rfl
  · split
    · exact .waits .followupWorkspace (.refl d) rfl (fun _ => rfl) rfl nofun
    · exact .returned (.refl d) (.inl rfl)
  · split
    · exact .started .reviewFollowup rfl
    · exact .returned {} (.inl rfl)
  · exact .ignored

end Orchestrator

end Orchestratord.Daemon
