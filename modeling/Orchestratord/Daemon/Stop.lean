import Orchestratord.Daemon.Moves

/-! # Operator stop and takeover

What a stop leaves behind for its issue, and that nothing of the daemon's own doing brings
a retry of the issue back. -/

namespace Orchestratord.Daemon

open Foundation Registry List

def Event.launchesRetry (i : IssueId) : Event → Bool
  | .retryLaunched id => id = i
  | _ => false

/-- A launch of the issue is past the resolution of its intent. -/
def Phase.dispatches (i : IssueId) : Phase → Bool
  | .launching _ _ .resolve => false
  | .launching _ id _ => id = i
  | _ => false

variable {i id : IssueId}

theorem Phase.dispatches_of_ne (hne : id ≠ i) (source : Source) (stage : Stage) :
    (Phase.launching source id stage).dispatches i = false := by
  cases stage <;> simp [dispatches, hne]

namespace Orchestrator

variable (cfg : Config)

/-- The retries launched for the issue so far. -/
def retriesLaunched (d : Orchestrator) (i : IssueId) : Nat := d.log.countP (·.launchesRetry i)

/-- No trace of a retry is left, nothing that starts a session is under way, and every
session of the issue that still runs is cancelled. -/
structure Stopped (i : IssueId) (k : Nat) (d : Orchestrator) : Prop where
  launches : d.retriesLaunched i = k
  noPlan : d.registry.plan i = none
  noItems : waiting i d.retryQueue + d.phase.held i = 0
  notDispatched : d.phase.dispatches i = false
  noFollowup : ∀ stage, (i, stage) ∉ d.followups
  cancelled : ∀ s ∈ d.sessions, s.issueId = i → s.cancelled = true

/-- The command reaches everything there is of the issue: no item of it is out of the
queue, no launch or follow-up of it is under way, and a session of it is the one in the
running map and the task table, with no retry pending beside it. -/
@[mk_iff]
structure Stoppable (i : IssueId) (d : Orchestrator) : Prop where
  named : i ≠ ""
  notHeld : d.phase.held i = 0
  notDispatched : d.phase.dispatches i = false
  noFollowup : ∀ f ∈ d.followups, f.1 ≠ i
  reached : ∀ s ∈ d.sessions, s.issueId = i →
    d.retryPending i = false ∧ d.isRunning i = true ∧ d.issueTasks.get i = some s.task

instance (i : IssueId) (d : Orchestrator) : Decidable (Stoppable i d) :=
  decidable_of_iff _ (stoppable_iff i d).symm

/-- The poll leaves the issue alone when no operator asks for anything. -/
def Handled (d : Orchestrator) (i : IssueId) : Prop :=
  i ∈ d.completed ∨ i ∈ d.pendingReview ∨ d.registry.isTerminal i ∨ d.registry.hasPr i

instance (d : Orchestrator) (i : IssueId) : Decidable (d.Handled i) :=
  inferInstanceAs (Decidable (_ ∨ _))

/-- No operator command for the issue, no new session of it that the daemon starts on its
own, and no restart that takes its record for a stale run. -/
def Quiet (i : IssueId) (d : Orchestrator) : Input → Prop
  | .command id _ | .feedbackFound id | .rebaseConflict id => id ≠ i
  | .reply (.resolved intent _ _ unblock) =>
    d.resolving i → intent = .none ∧ unblock = false ∧ d.Handled i
  | .crash _ => (d.registry.get i).all (·.status ≠ .running)
  | .shutdown _ => (d.release.get i).all (·.status ≠ .running)
  | _ => True

instance (i : IssueId) (d : Orchestrator) : ∀ input, Decidable (Quiet i d input)
  | .command .. | .feedbackFound _ | .rebaseConflict _ => inferInstanceAs (Decidable (_ ≠ _))
  | .reply (.resolved ..) => inferInstanceAs (Decidable (_ → _))
  | .crash _ | .shutdown _ => inferInstanceAs (Decidable (_ = _))
  | .reply (.fetched _) | .reply (.admitted _) | .reply (.dependencies _)
  | .reply .pullRequestClosed | .reply (.workspace _) | .reply (.refreshed _)
  | .reply (.pullRequest _) | .reply (.reviewFeedback _) | .reply (.followupWorkspace _)
  | .retryTick _ | .candidate _ | .escalated .. | .synced .. | .sessionEnds .. | .settle _
  | .followupStep .. => .isTrue trivial

/-! ## The command -/

variable {d : Orchestrator}

/-- A stop that reaches everything leaves nothing. -/
theorem stopped_stopIssue (h : Stoppable i d) :
    Stopped i (d.retriesLaunched i) (d.stopIssue i) := by
  have hfo : ∀ stage, (i, stage) ∉ d.followups := fun stage hmem =>
    h.noFollowup _ hmem rfl
  unfold stopIssue
  split
  case isTrue hpe =>
    refine ⟨rfl, ?_, ?_, h.notDispatched, hfo, ?_⟩
    · simp [cancelPendingRetry]
    · show waiting i (d.dropQueued i).retryQueue + d.phase.held i = 0
      rw [waiting_dropQueued, h.notHeld]
    intro s hs hid
    have := (h.reached s hs hid).1
    rw [hpe] at this
    cases this
  case isFalse hpe =>
    obtain ⟨hwa, hpl⟩ := waiting_of_not_pending (Bool.eq_false_iff.mpr hpe)
    have his : waiting i d.retryQueue + d.phase.held i = 0 := by
      rw [hwa, h.notHeld]
    split
    · unfold cancelTask
      split
      case h_1 hta =>
        refine ⟨rfl, hpl, his, h.notDispatched, hfo, ?_⟩
        intro s hs hid
        have := (h.reached s hs hid).2.2
        rw [hta] at this
        cases this
      case h_2 _ hta =>
        refine ⟨rfl, hpl, his, h.notDispatched, hfo, ?_⟩
        intro s hs hid
        obtain ⟨old, hold, rfl⟩ := mem_map.mp hs
        have hsa : old.issueId = i := by
          split at hid <;> exact hid
        have := (h.reached old hold hsa).2.2
        rw [hta, Option.some.injEq] at this
        rw [if_pos this.symm]
    case isFalse hru =>
      refine ⟨rfl, hpl, his, h.notDispatched, hfo, ?_⟩
      intro s hs hid
      exact absurd (h.reached s hs hid).2.1 hru

/-! ## Everything after it -/

namespace Stopped

variable {cfg : Config} {k : Nat} {source : Source} (h : Stopped i k d)

include h

theorem alike {d' : Orchestrator} (hal : Alike d d') : Stopped i k d' where
  launches := by
    have := h.launches
    unfold retriesLaunched at this ⊢
    rw [hal.log, this]
  noPlan := (hal.plan i).trans h.noPlan
  noItems := by rw [hal.queue, hal.phase, h.noItems]
  notDispatched := by rw [hal.phase, h.notDispatched]
  noFollowup := by rw [hal.followups]; exact h.noFollowup
  cancelled := by rw [hal.sessions]; exact h.cancelled

theorem waiting_queue : waiting i d.retryQueue = 0 := Nat.eq_zero_of_add_eq_zero_right h.noItems

theorem held : d.phase.held i = 0 := Nat.eq_zero_of_add_eq_zero_left h.noItems

theorem setPhase (phase : Phase) (hhe : phase.held i = 0)
    (hdi : phase.dispatches i = false) : Stopped i k { d with phase } :=
  { h with noItems := by rw [h.waiting_queue, hhe], notDispatched := hdi }

theorem setIdle : Stopped i k { d with phase := .idle } := h.setPhase .idle rfl rfl

variable {registry : Registry}

theorem setRegistry (hpl : registry.plan i = none) : Stopped i k { d with registry } :=
  { h with noPlan := hpl }

theorem setQueue {queue : List RetryItem} (hqu : waiting i queue = 0) :
    Stopped i k { d with retryQueue := queue } :=
  { h with noItems := by rw [hqu, h.held] }

variable {item : RetryItem}

theorem push (him : item.dedupKey ≠ i) :
    Stopped i k { d with retryQueue := d.retryQueue ++ [item] } :=
  h.setQueue (by simp [h.waiting_queue, him])

theorem modify {f : IssueRecord → IssueRecord} (hf : ∀ rec, (f rec).nextRetryAt = rec.nextRetryAt) :
    Stopped i k { d with registry := d.registry.modify id f } :=
  h.setRegistry ((plan_modify _ _ _ f hf).trans h.noPlan)

theorem mark (id : IssueId) (status : IssueStatus) :
    Stopped i k { d with registry := d.registry.mark id status } :=
  h.modify fun _ => rfl

theorem clearIntent (id : IssueId) : Stopped i k { d with registry := d.registry.clearIntent id } :=
  h.modify fun _ => rfl

theorem resetForRetry (id : IssueId) :
    Stopped i k { d with registry := d.registry.resetForRetry id } :=
  h.modify fun _ => rfl

theorem clearRetryPlan (id : IssueId) :
    Stopped i k { d with registry := d.registry.clearRetryPlan id } :=
  h.setRegistry (by simp [h.noPlan])

theorem register (id : IssueId) (status : IssueStatus) :
    Stopped i k { d with registry := d.registry.register id status } :=
  h.setRegistry (by simp [h.noPlan])

variable (now : Nat)

theorem processReady {ready : List RetryItem} (hre : waiting i ready = 0) :
    Stopped i k (d.processReady cfg now ready) := by
  obtain ⟨queue, phase, heq, hph, -, hle, -⟩ := d.processReady_spec cfg now ready
  have hze : waiting i queue + phase.held i = 0 := by
    have := hle i
    have := h.waiting_queue
    omega
  have hdi : phase.dispatches i = false := by
    rcases hph with rfl | ⟨item, rest, rfl⟩ <;> rfl
  rw [heq]
  exact { h with noItems := hze, notDispatched := hdi }

theorem processRetryQueue : Stopped i k (d.processRetryQueue cfg now) := by
  have hsp := waiting_splitReadyRetries i d.retryQueue now
  rw [h.waiting_queue] at hsp
  have hla : waiting i (splitReadyRetries d.retryQueue now).2 = 0 := by omega
  have hre : waiting i (splitReadyRetries d.retryQueue now).1 = 0 := by omega
  exact (h.setQueue hla).processReady now hre

theorem requeueRetry (him : item.dedupKey ≠ i) : Stopped i k (d.requeueRetry cfg now item) := by
  unfold Orchestrator.requeueRetry
  split
  · exact h.clearRetryPlan _
  rename_i hre
  apply h.push
  rwa [requeueRetryItem_dedupKey hre]

theorem waitFor (hso : source.held i = 0) (hne : id ≠ i) (stage : Stage) :
    Stopped i k (d.waitFor source id stage) :=
  h.setPhase _ (by simpa using hso) (Phase.dispatches_of_ne hne source stage)

theorem startSession (hne : id ≠ i) (runKind : RunKind) :
    Stopped i k (d.startSession id runKind) := by
  have hpl : plan (if runKind = .agentRebase then d.registry
      else d.registry.mark id .running) i = none := by
    split
    · exact h.noPlan
    · simpa using h.noPlan
  refine { h with noPlan := hpl, cancelled := ?_ }
  intro s hs hid
  rcases mem_append.mp hs with hold | hnew
  · exact h.cancelled s hold hid
  · rw [mem_singleton] at hnew
    rw [hnew] at hid
    exact absurd hid hne

variable {rest : List RetryItem}

theorem retryReturned (hhe : waiting i (item :: rest) = 0) :
    Stopped i k (d.retryReturned cfg id now item rest) := by
  have him : item.dedupKey ≠ i := waiting_eq_zero.mp hhe item mem_cons_self
  have hre : waiting i rest = 0 := by
    rw [waiting_cons] at hhe
    omega
  unfold Orchestrator.retryReturned
  split
  · refine .processReady ?_ now hre
    have hpl := h.clearRetryPlan item.dedupKey
    refine { hpl with launches := ?_ }
    have hla := h.launches
    unfold retriesLaunched at hla ⊢
    rw [countP_append, hla]
    simp [Event.launchesRetry, him]
  · exact (h.push him).processReady now hre

theorem pollReturned (cli : Bool) : Stopped i k (d.pollReturned id cli) := by
  unfold Orchestrator.pollReturned
  split
  · exact (h.clearIntent id).setIdle
  · exact h.setIdle

theorem launchReturned (hso : source.held i = 0) :
    Stopped i k (d.launchReturned cfg id source) := by
  cases source with
  | retry now => exact h.retryReturned now hso
  | poll cli => exact h.pollReturned cli
  | feedback => exact h.setIdle

theorem dispatched (hne : id ≠ i) {intent : Intent} {e : Orchestrator}
    (he : Dispatched d id intent e) : Stopped i k e := by
  cases he with
  | passed hr => exact { (h.setRegistry ((hr.plan i).trans h.noPlan)).setIdle with }
  | waits _ stage hr => exact (h.setRegistry ((hr.plan i).trans h.noPlan)).waitFor rfl hne stage

/-- The poll passes the issue by: it is handled and nobody asks for more. -/
theorem dispatchCandidate_handled (hdo : d.Handled i) (origin : IntentSource) (allowed : Bool) :
    Stopped i k (d.dispatchCandidate cfg i .none origin allowed false) := by
  have hid : d.dispatchCandidate cfg i .none origin allowed false = { d with phase := .idle } := by
    unfold dispatchCandidate actOnIntent
    rcases hdo with hdo | hdo | hdo | hdo <;> simp [hdo, Intent.reopens]
  rw [hid]
  exact h.setIdle

theorem launchStep (hso : source.held i = 0) (hne : id ≠ i) (stage : Stage) (reply : Reply) :
    Stopped i k (d.launchStep cfg source id stage reply) := by
  have hst := launchStep_cases cfg d id source stage reply
  generalize d.launchStep cfg source id stage reply = e at hst ⊢
  cases hst with
  | dispatched _ _ _ _ _ _ he => exact h.dispatched hne he
  | refused => exact h.setIdle
  | waits next hal => exact (h.alike hal).waitFor hso hne next
  | reset => exact (h.resetForRetry id).waitFor hso hne .workspace
  | registered => exact (h.register id .pending).waitFor hso hne .refresh
  | returned hal => exact (h.alike hal).launchReturned hso
  | started runKind => exact (h.startSession hne runKind).launchReturned hso
  | ignored => exact h

theorem issueFetched (hhe : waiting i (item :: rest) = 0)
    (answer : Fetched) : Stopped i k (d.issueFetched cfg now item rest answer) := by
  have him : item.dedupKey ≠ i := waiting_eq_zero.mp hhe item mem_cons_self
  have hre : waiting i rest = 0 := by
    rw [waiting_cons] at hhe
    omega
  cases answer with
  | missing | error => exact (h.requeueRetry now him).processReady now hre
  | inactive => exact (h.clearRetryPlan _).processReady now hre
  | active =>
    have hph := h.setPhase (.launching (.retry now item rest) item.dedupKey .dependencies)
      hhe (Phase.dispatches_of_ne him _ _)
    exact hph.alike {}

theorem resume {reply : Reply} (hok : Quiet i d (.reply reply)) :
    Stopped i k (d.resume cfg reply) := by
  have hhe := h.held
  have hdi := h.notDispatched
  unfold Orchestrator.resume
  cases hph : d.phase with
  | idle => exact h
  | fetching now =>
    rw [hph] at hhe
    cases reply with
    | fetched answer => exact h.issueFetched now hhe answer
    | _ => exact h
  | launching _ id stage =>
    rw [hph] at hhe hdi
    rw [Phase.held_launching] at hhe
    by_cases hid : id = i
    · subst hid
      -- only the resolution of the issue's intent can be under way
      cases stage <;> simp only [Phase.dispatches, decide_true, reduceCtorEq] at hdi
      cases reply with
      | resolved =>
        obtain ⟨rfl, rfl, hdo⟩ := hok (by simp [resolving, hph])
        exact h.dispatchCandidate_handled hdo _ _
      | _ => exact h
    · exact h.launchStep hhe hid stage reply

theorem preRegister (id : IssueId) : Stopped i k (d.preRegister id) := by
  unfold Orchestrator.preRegister
  split
  · exact h.register id .queued
  · exact h

theorem consider (id : IssueId) : Stopped i k (d.consider id) := by
  unfold Orchestrator.consider
  split
  · exact h
  · exact h.setPhase _ rfl rfl

theorem feedbackFound (hne : id ≠ i) : Stopped i k (d.feedbackFound id) := by
  unfold Orchestrator.feedbackFound
  split
  · exact h
  · exact { h.waitFor rfl hne _ with }

theorem rebaseConflict (hne : id ≠ i) : Stopped i k (d.rebaseConflict id) := by
  unfold Orchestrator.rebaseConflict
  split
  · exact h
  · exact h.startSession hne .agentRebase

/-- The end of another issue's run may schedule a retry of that issue only. -/
theorem scheduleRetry (hne : id ≠ i) (now : Nat) (reason : Option EndReason) (baseMs : Nat) :
    Stopped i k (d.scheduleRetry cfg now id reason baseMs) := by
  unfold Orchestrator.scheduleRetry
  split
  · exact { h with }
  dsimp only
  split
  · exact { h.mark id .abandoned with }
  refine ⟨?_, ?_, ?_, h.notDispatched, h.noFollowup, h.cancelled⟩
  · have hla := h.launches
    unfold retriesLaunched at hla ⊢
    rw [countP_append, hla]
    rfl
  · rw [plan_persistRetryPlan, if_neg hne.symm, h.noPlan]
  · rw [waiting_append, h.waiting_queue, h.held]
    simp [hne]

theorem dropSession (s : Session) : Stopped i k (d.dropSession s) :=
  { h with cancelled := fun t ht => h.cancelled t (mem_of_mem_erase ht) }

/-- A session of the issue is cancelled, and a run that was cancelled is not retried. -/
theorem sessionEnds (task : TaskId) (status : RunStatus) (reason : Option EndReason) :
    Stopped i k (d.sessionEnds cfg now task status reason) := by
  obtain heq | ⟨s, hs, e, hal, heq | ⟨hnot, baseMs, heq⟩⟩ :=
    sessionEnds_cases cfg d now task status reason
  · rwa [heq]
  · rw [heq]
    exact (h.dropSession s).alike hal
  rw [heq]
  refine ((h.dropSession s).alike hal).scheduleRetry ?_ now reason baseMs
  intro hid
  rw [h.cancelled s hs hid] at hnot
  cases hnot

theorem followupStep (id : IssueId) (stage : FollowupStage) (ok : Bool) :
    Stopped i k (d.followupStep id stage ok) := by
  unfold Orchestrator.followupStep
  split
  case isTrue hmem =>
    have hne : id ≠ i := by
      rintro rfl
      exact h.noFollowup stage hmem
    have hsh : Stopped i k { d with followups := d.followups.erase (id, stage) } :=
      { h with noFollowup := fun stage' ht => h.noFollowup stage' (mem_of_mem_erase ht) }
    cases stage <;> cases ok
    · exact hsh
    · refine { h with noFollowup := ?_ }
      intro stage hst
      rcases mem_append.mp hst with hold | hnew
      · exact hsh.noFollowup stage hold
      · rw [mem_singleton, Prod.mk.injEq] at hnew
        exact hne hnew.1.symm
    · exact hsh.alike {}
    · exact hsh.startSession hne .reviewFollowup
  · exact h

theorem dropQueued (id : IssueId) : Stopped i k (d.dropQueued id) := by
  refine h.setQueue (waiting_eq_zero.mpr ?_)
  intro item hmem
  exact waiting_eq_zero.mp h.waiting_queue item (mem_of_mem_filter hmem)

theorem cancelTask (id : IssueId) : Stopped i k (d.cancelTask id) := by
  unfold Orchestrator.cancelTask
  split
  · exact h
  refine { h with cancelled := ?_ }
  intro s hs hid
  obtain ⟨old, hold, rfl⟩ := mem_map.mp hs
  split
  · rfl
  case isFalse hne =>
    rw [if_neg hne] at hid
    exact h.cancelled old hold hid

theorem stopIssue (id : IssueId) : Stopped i k (d.stopIssue id) := by
  unfold Orchestrator.stopIssue
  split
  · exact { (h.dropQueued id).clearRetryPlan id with }
  · split
    · exact h.cancelTask id
    · exact h

theorem reopen (id : IssueId) (intent : Intent) (origin : IntentSource) (resetCount : Bool) :
    Stopped i k (d.reopen id intent origin resetCount) := by
  have hdr := h.dropQueued id
  refine { hdr with noPlan := ?_ }
  show plan (d.registry.modify id _) i = none
  rw [plan_modify _ _ _ _ (by intro rec; rfl)]
  exact h.noPlan

theorem applyCommand (hne : id ≠ i) (command : Command) :
    Stopped i k (d.applyCommand id command) := by
  have hap := applyCommand_cases d id command
  generalize d.applyCommand id command = e at hap ⊢
  cases hap with
  | marked hal => exact h.alike hal
  | stopped => exact h.stopIssue id
  | reset intent resetCount => exact { h.reopen id intent .cli resetCount with }
  | reopened => exact h.reopen _ _ _ _
  | asked =>
    refine { h with noFollowup := ?_ }
    intro stage hst
    rcases mem_append.mp hst with hold | hnew
    · exact h.noFollowup stage hold
    · rw [mem_singleton, Prod.mk.injEq] at hnew
      exact hne hnew.1.symm

/-- A restart finds no plan and no stale run of the issue. -/
theorem restart (hpl : registry.plan i = none) (hst : (registry.get i).all (·.status ≠ .running)) :
    Stopped i k (startup cfg now registry d.log) := by
  have hno : (startup cfg now registry d.log).registry.plan i = none := by
    unfold plan at hpl ⊢
    rw [get_startup]
    rcases hrec : registry.get i with _ | rec
    · rfl
    rw [hrec] at hpl hst
    have hnot : rec.status ≠ .running := by simpa using hst
    rwa [Option.map_some, recoverStale_eq cfg now hnot]
  refine ⟨?_, hno, ?_, rfl, fun _ => not_mem_nil, fun s hs => absurd hs not_mem_nil⟩
  · have hlog : (startup cfg now registry d.log).log =
        d.log ++ (staleIds registry).map .staleRecovered := rfl
    have hla := h.launches
    unfold retriesLaunched at hla ⊢
    rw [hlog, countP_append, hla]
    simp [Event.launchesRetry]
  · rw [waiting_startup, hno]
    rfl

theorem plan_release : d.release.plan i = none := by
  have hpl := h.noPlan
  unfold plan at hpl ⊢
  rcases d.get_release i with heq | heq <;> rw [heq]
  · exact hpl
  · cases hrec : d.registry.get i with
    | none => rfl
    | some => simpa [hrec] using hpl

theorem step {input : Input} (hok : Quiet i d input) : Stopped i k (d.step cfg input) := by
  have hid : ∀ act : Orchestrator → Orchestrator, Stopped i k (act d) →
      Stopped i k (d.whenIdle act) := by
    intro act hact
    unfold whenIdle
    split
    · exact hact
    · exact h
  cases input with
  | retryTick now =>
    apply hid
    exact h.processRetryQueue now
  | candidate id =>
    apply hid
    exact (h.preRegister id).consider id
  | feedbackFound =>
    apply hid
    exact h.feedbackFound hok
  | rebaseConflict =>
    apply hid
    exact h.rebaseConflict hok
  | escalated id abandon =>
    apply hid
    exact h.alike (alike_escalated d id abandon)
  | reply => exact h.resume hok
  | synced task prNumber => exact h.alike (alike_synced d task prNumber)
  | sessionEnds now task status reason => exact h.sessionEnds now task status reason
  | settle id => exact h.alike (alike_settle d id)
  | command _ command => exact h.applyCommand hok command
  | followupStep id stage ok => exact h.followupStep id stage ok
  | crash now => exact h.restart now h.noPlan hok
  | shutdown now => exact h.restart now h.plan_release hok

end Stopped

/-- A stop or takeover that reaches everything there is of the issue is final: until the
next operator command, and as long as the daemon starts no new session of the issue by
itself, every session of it is cancelled, no retry of it is launched and none is planned. -/
theorem stop_final (d : Orchestrator) (i : IssueId) (hstop : Stoppable i d) (command : Command)
    (hcommand : command = .stop ∨ command = .takeover) (later : List Input)
    (hrun : Guarded (step cfg) (Quiet i) (d.step cfg (.command i command)) later)
    (start : List Input) (hstart : start <+: later) :
    let after := runFrom (step cfg) (d.step cfg (.command i command)) start
    (∀ s ∈ after.sessions, s.issueId = i → s.cancelled = true) ∧
      after.retriesLaunched i = d.retriesLaunched i ∧
      after.registry.plan i = none := by
  have hst : Stopped i (d.retriesLaunched i) (d.step cfg (.command i command)) := by
    have hap : d.step cfg (.command i command) = d.stopIssue i := by
      show d.applyCommand i command = d.stopIssue i
      unfold applyCommand
      rw [if_neg hstop.named]
      rcases hcommand with rfl | rfl <;> rfl
    rw [hap]
    exact stopped_stopIssue hstop
  have haf := hrun.throughout (fun _ _ h hok => .step h hok) hst hstart
  exact ⟨haf.cancelled, haf.launches, haf.noPlan⟩

/-- A first run of the issue fails and its retry waits. -/
def waitingForRetry : List Input :=
  dispatched "7" ++ launched ++ [.sessionEnds 5 0 .failed none, .settle "7"]

/-- The issue's first run, up to the running session. -/
def firstRun : List Input := dispatched "7" ++ launched

theorem stop_final_running : let d := runFrom (step {}) (startup {} 0 .empty []) firstRun
    let later : List Input := [.retryTick 10, .sessionEnds 20 0 .failed none, .settle "7"]
    Stoppable "7" d ∧ Guarded (step {}) (Quiet "7") (d.step {} (.command "7" .stop)) later ∧
      (runFrom (step {}) (d.step {} (.command "7" .stop)) later).registry.plan "7" = none := by
  have hst : Stoppable "7" (runFrom (step {}) (startup {} 0 .empty []) firstRun) := by
    decide +kernel
  have hrun : Guarded (step {}) (Quiet "7")
      ((runFrom (step {}) (startup {} 0 .empty []) firstRun).step {} (.command "7" .stop))
      [.retryTick 10, .sessionEnds 20 0 .failed none, .settle "7"] := by decide +kernel
  exact ⟨hst, hrun, (stop_final {} _ "7" hst .stop (.inl rfl) _ hrun _ prefix_rfl).2.2⟩

/-- A stop that arrives while the queue has the issue's retry out does not stop the retry;
and a stop that finds a retry pending beside a running follow-up leaves the follow-up
running. -/
theorem stop_defeated :
    (let d := runFrom (step {}) (startup {} 0 .empty []) (waitingForRetry ++ [.retryTick 20000])
      let after := runFrom (step {}) (d.step {} (.command "7" .stop))
        (.reply (.fetched .active) :: launched)
      after.retriesLaunched "7" = d.retriesLaunched "7" + 1 ∧
        ∃ s ∈ after.sessions, s.issueId = "7" ∧ s.cancelled = false) ∧
    (let d := runFrom (step {}) (startup {} 0 .empty []) (firstRun ++
        [.synced 0 (some 1), .sessionEnds 5 0 .failed none, .settle "7", .feedbackFound "7",
          .reply (.followupWorkspace true)])
      ∃ s ∈ (d.step {} (.command "7" .stop)).sessions, s ∈ d.sessions ∧ s.issueId = "7" ∧
        s.cancelled = false) := by
  decide +kernel

end Orchestrator

end Orchestratord.Daemon
