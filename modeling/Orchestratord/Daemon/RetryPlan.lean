import Orchestratord.Daemon.RetryTally

/-! # The retry queue and the persisted plans

An issue has an item in the queue exactly when its record has a retry plan, in every state
in which the poll cycle waits for nothing, provided the steps meet `Careful`. -/

namespace Orchestratord.Daemon

open Foundation Registry List Option

namespace Orchestrator

variable (cfg : Config)

/-- Queue and record agree about the issue. -/
def InStep (d : Orchestrator) (i : IssueId) : Prop :=
  (∃ item ∈ d.retryQueue, item.dedupKey = i) ↔ (d.registry.plan i).isSome

/-- The step does not lose the issue's retry on one side only: no launch is gated after the
registration, no item of a completed issue is dropped, no new session starts beside a
pending retry, and no command drops the item from the queue but not the plan, or the plan
but not an item that is out. -/
def Careful (i : IssueId) (d : Orchestrator) : Input → Prop
  | .retryTick _ => i ∈ d.completed → waiting i d.retryQueue = 0
  | .reply reply => (i ∈ d.completed → waiting i d.phase.rest = 0) ∧ d.LaunchOk i reply d.phase
  | .rebaseConflict id => id = i → d.Clear i
  | .followupStep id stage ok =>
    id = i → stage = .workspace → ok = true → d.Clear i ∧ d.phase.held i = 0
  | .command id command => id = i → match command with
    | .stop | .takeover => d.phase.held i = 0 ∨ d.retryPending i = false
    | .retry _ | .reviewRetry | .followup => waiting i d.retryQueue = 0
    | _ => True
  | _ => True

instance (i : IssueId) (d : Orchestrator) : ∀ input, Decidable (Careful i d input)
  | .retryTick _ | .rebaseConflict _ | .followupStep .. => inferInstanceAs (Decidable (_ → _))
  | .reply _ => inferInstanceAs (Decidable (_ ∧ _))
  | .command _ .stop | .command _ .takeover => inferInstanceAs (Decidable (_ → _ ∨ _))
  | .command _ (.retry _) | .command _ .reviewRetry | .command _ .followup =>
    inferInstanceAs (Decidable (_ → _ = _))
  | .command _ .pause | .command _ .resume | .command _ .reviewApprove
  | .command _ .reviewFollowup => .isTrue fun _ => trivial
  | .candidate _ | .feedbackFound _ | .escalated .. | .synced .. | .sessionEnds .. | .settle _
  | .crash _ | .shutdown _ => .isTrue trivial

variable {i : IssueId} {d : Orchestrator}

/-- With nothing out, the count is the agreement of queue and record. -/
theorem Tally.inStep (h : Tally i 0 false d) : d.InStep i := by
  have hco := h.counted
  rw [if_neg Bool.false_ne_true] at hco
  constructor
  · rintro ⟨item, hmem, hkey⟩
    by_contra hpl
    rw [if_neg hpl] at hco
    exact waiting_eq_zero.mp hco item hmem hkey
  · intro hpl
    rw [if_pos hpl] at hco
    by_contra hno
    have hze : waiting i d.retryQueue = 0 := waiting_eq_zero.mpr fun item hmem hkey =>
      hno ⟨item, hmem, hkey⟩
    omega

/-! ## The poll cycle -/

namespace PlanInv

variable {cfg : Config} {id : IssueId} (h : PlanInv i d)

include h

variable {d' : Orchestrator}

/-- A step that leaves the phase alone. -/
theorem keep (hph : d'.phase = d.phase)
    (hso : (d.registry.get i).isSome = true → (d'.registry.get i).isSome = true)
    (hta : Tally i (d.phase.held i) (d.phase.wiped i) d') : PlanInv i d' where
  tally := by rw [hph]; exact hta
  named := by rw [hph]; exact h.named
  launching := by rw [hph]; exact fun hl => hso (h.launching hl)

theorem idle (hph : d.phase = .idle) : Tally i 0 false d := by
  have hta := h.tally
  rwa [hph] at hta

theorem processRetryQueue (hph : d.phase = .idle) (now : Nat)
    (hok : i ∈ d.completed → waiting i d.retryQueue = 0) :
    PlanInv i (d.processRetryQueue cfg now) := by
  have hsp := waiting_splitReadyRetries i d.retryQueue now
  have hta := h.idle hph
  have hco : waiting i (splitReadyRetries d.retryQueue now).2 +
      waiting i (splitReadyRetries d.retryQueue now).1 = waiting i d.retryQueue + 0 := hsp
  have hre : Tally i (waiting i (splitReadyRetries d.retryQueue now).1) false
      { d with retryQueue := (splitReadyRetries d.retryQueue now).2 } :=
    hta.transfer hco
  refine hre.processReady (fun hmem => ?_) now
  have := hok hmem
  omega

omit h in
theorem issueFetched {now : Nat} {item : RetryItem} {rest : List RetryItem}
    (h : Tally i (waiting i (item :: rest)) false d) (hdo : i ∈ d.completed → waiting i rest = 0)
    (answer : Fetched) : PlanInv i (d.issueFetched cfg now item rest answer) := by
  have hsum := h
  rw [waiting_cons] at hsum
  have hco : (d.requeueRetry cfg now item).completed = d.completed := by
    unfold requeueRetry
    split <;> rfl
  cases answer with
  | missing | error => exact (hsum.requeueRetry now).processReady (by rw [hco]; exact hdo) now
  | inactive => exact hsum.giveUp.processReady hdo now
  | active =>
    have hla : LaunchInv i (.retry now item rest) item.dedupKey
        { d with claimed := insert item.dedupKey d.claimed } :=
      ⟨{ h with }, rfl, hdo, nofun⟩
    exact hla.waitFor .dependencies (by simp [Phase.wiped, Stage.registered]) nofun

theorem resume {reply : Reply} (hok : Careful i d (.reply reply)) :
    PlanInv i (d.resume cfg reply) := by
  obtain ⟨hdo, hla⟩ := hok
  have hta := h.tally
  have hna := h.named
  have hkn := h.launching
  unfold Orchestrator.resume
  cases hph : d.phase with
  | idle => exact h
  | fetching =>
    rw [hph] at hdo hta
    cases reply with
    | fetched answer => exact issueFetched hta hdo answer
    | _ => exact h
  | launching source id stage =>
    rw [hph] at hdo hta hna hla hkn
    rw [Phase.held_launching] at hta
    obtain ⟨hnm, hpl⟩ := hna
    by_cases hown : (source.isRetry = true ∧ id = i) ∧ stage.registered = true
    · obtain ⟨⟨hre, rfl⟩, hst⟩ := hown
      have hwi : (Phase.launching source id stage).wiped id = true := by
        simp [Phase.wiped, hre, hst]
      rw [hwi] at hta
      cases source with
      | retry now item rest =>
        have hkey : item.dedupKey = id := hnm
        have hhe : (Source.retry now item rest).held id = 1 + waiting id rest := by
          show waiting id (item :: rest) = _
          rw [waiting_cons, if_pos hkey]
        rw [hhe] at hta
        exact OwnLaunch.launchStep ⟨hta, hkey⟩ h hst (hla rfl hst)
      | poll | feedback => cases hre
    · have hwi : (Phase.launching source id stage).wiped i = false := by
        unfold Phase.wiped
        by_contra hw
        simp only [Bool.not_eq_false, Bool.and_eq_true, decide_eq_true_eq] at hw
        exact hown hw
      rw [hwi] at hta
      have hinv : LaunchInv i source id d := by
        refine ⟨hta, hnm, hdo, fun hpo hid => hkn ?_⟩
        simp [Phase.launches, hpo, hid]
      refine hinv.launchStep h hpl ?_ ?_
      · intro hst hre hid
        exact hown ⟨⟨hre, hid⟩, hst⟩
      intro hco hid hpo
      have hcl := hla hid
      rw [hpo] at hcl
      obtain ⟨hli, hpe⟩ := hcl hco
      exact ⟨hli, (waiting_of_not_pending hpe).1⟩

/-- The poll registers a candidate it does not know. -/
theorem preRegister : PlanInv i (d.preRegister id) := by
  unfold Orchestrator.preRegister
  split
  case isTrue hno =>
    have hget := get_register d.registry id i .queued
    have hpl := plan_register d.registry id i .queued
    by_cases hid : i = id
    · subst hid
      rw [if_pos rfl] at hget hpl
      have hold : d.registry.plan i = none := by
        unfold plan
        rw [isNone_iff_eq_none.mp hno]
        rfl
      refine h.keep rfl (fun _ => by rw [hget]; rfl) ?_
      exact h.tally.setRegistry (fun _ => by rw [hget]; rfl) (hpl.trans hold.symm)
    · rw [if_neg hid] at hget hpl
      refine h.keep rfl (fun hold => by rw [hget]; exact hold) ?_
      exact h.tally.setRegistry (fun hold => by rw [hget]; exact hold) hpl
  case isFalse => exact h

omit h in
theorem isSome_preRegister (d : Orchestrator) (id : IssueId) :
    ((d.preRegister id).registry.get id).isSome = true := by
  unfold Orchestrator.preRegister
  split
  case isTrue =>
    rw [get_register, if_pos rfl]
    rfl
  case isFalse hso => simpa [isSome_iff_ne_none] using hso

theorem candidate (hph : d.phase = .idle) : PlanInv i (d.candidate id) := by
  have hre : PlanInv i (d.preRegister id) := h.preRegister
  have hil : (d.preRegister id).phase = .idle := by
    unfold Orchestrator.preRegister
    split <;> exact hph
  unfold Orchestrator.candidate consider
  split
  · exact hre
  · have hla : LaunchInv i (.poll false) id (d.preRegister id) :=
      ⟨hre.idle hil, trivial, fun _ => rfl, fun _ hid => hid ▸ isSome_preRegister d id⟩
    exact hla.waitFor .resolve rfl fun _ => rfl

theorem feedbackFound (hph : d.phase = .idle) : PlanInv i (d.feedbackFound id) := by
  unfold Orchestrator.feedbackFound
  split
  case isTrue => exact h
  rename_i hfr
  have hpr : d.registry.hasPr id = true := by
    by_contra hno
    exact hfr (.inr (.inr hno))
  have hla : LaunchInv i .feedback id { d with claimed := insert id d.claimed } := by
    refine ⟨{ h.idle hph with }, trivial, fun _ => rfl, fun _ hid => ?_⟩
    subst hid
    unfold hasPr at hpr
    cases hget : d.registry.get id with
    | none => simp [hget] at hpr
    | some => rfl
  exact hla.waitFor .followupWorkspace rfl (fun _ => rfl)

theorem startSession (runKind : RunKind) (hba : id = i → Bare i (d.phase.held i) d) :
    PlanInv i (d.startSession id runKind) :=
  h.keep rfl (fun hold => (get_startSession d i id runKind).1.trans hold)
    (h.tally.startSession hba runKind)

theorem rebaseConflict (hph : d.phase = .idle) (hok : id = i → d.Clear i) :
    PlanInv i (d.rebaseConflict id) := by
  unfold Orchestrator.rebaseConflict
  split
  case isTrue => exact h
  rename_i hfr
  refine h.startSession .agentRebase fun hid => ?_
  subst hid
  obtain ⟨hli, hpe⟩ := hok rfl
  refine ⟨?_, hli, ?_⟩
  · by_contra hno
    exact hfr (.inr (.inr (by simpa using hno)))
  · rw [(waiting_of_not_pending hpe).1, hph]
    rfl

/-! ## The end of a session -/

theorem alike (hal : Alike d d') : PlanInv i d' := by
  have hso := hal.isSome i
  apply h.keep hal.phase (fun hold => hso.trans hold)
  exact .congr (h.tally.setRegistry (fun hold => hso.trans hold) (hal.plan i)) rfl
    hal.queue hal.sessions hal.running hal.followups

theorem setAttempts (retryAttempts : IssueId → Nat) : PlanInv i { d with retryAttempts } :=
  h.keep rfl (fun hold => hold) { h.tally with }

theorem modify {f : IssueRecord → IssueRecord} (hf : ∀ rec, (f rec).nextRetryAt = rec.nextRetryAt) :
    PlanInv i { d with registry := d.registry.modify id f } :=
  h.keep rfl (fun hold => (isSome_get_modify _ _ _ _).trans hold) (h.tally.modify hf)

theorem mark (id : IssueId) (status : IssueStatus) :
    PlanInv i { d with registry := d.registry.mark id status } :=
  h.modify fun _ => rfl

theorem setQueue {queue : List RetryItem} (hqu : waiting i queue = waiting i d.retryQueue) :
    PlanInv i { d with retryQueue := queue } :=
  h.keep rfl (fun hold => hold) (h.tally.transfer (congrArg (· + d.phase.held i) hqu))

/-- The item and the plan come together. -/
theorem scheduleRetry (hba : id = i → Bare i (d.phase.held i) d) (now : Nat)
    (reason : Option EndReason) (baseMs : Nat) :
    PlanInv i (d.scheduleRetry cfg now id reason baseMs) := by
  unfold Orchestrator.scheduleRetry
  split
  · exact h.alike {}
  dsimp only
  split
  · exact ((h.mark id .abandoned).setAttempts _).alike {}
  generalize d.retryAttempts id + 1 = attempt
  generalize computeRetryDelay attempt baseMs cfg.maxRetryBackoffMs = delay
  have hso : ((d.registry.persistRetryPlan id attempt (now + delay)).get i).isSome =
      (d.registry.get i).isSome := isSome_get_modify _ _ _ _
  have hpl := plan_persistRetryPlan d.registry id i attempt (now + delay)
  by_cases hid : id = i
  · subst hid
    obtain ⟨hrec, _, _⟩ := hba rfl
    have hco := h.tally.counted
    have hwi : d.phase.wiped id = false := by
      by_contra hw
      rw [Bool.not_eq_false] at hw
      rw [if_pos hw] at hco
      omega
    rw [if_pos rfl] at hpl
    refine h.keep rfl (fun hold => hso.trans hold)
      ⟨fun hno => ?_, ?_, fun hw => ?_, fun hpos => ?_, ?_, fun hr => ?_⟩
    · rw [hso, hrec] at hno
      cases hno
    · have hsum : waiting id (d.retryQueue ++
          [{ dedupKey := id, attempt, delay, scheduledAt := now }]) + d.phase.held id = 1 := by
        rw [waiting_append, waiting_cons, waiting_nil, if_pos rfl]
        omega
      rw [hwi]
      rwa [hpl, isSome_map, if_pos hrec]
    · rw [hwi] at hw
      cases hw
    · have hpos : 0 < d.live id := hpos
      omega
    · exact h.tally.single
    · exact h.tally.running hr
  · rw [if_neg (Ne.symm hid)] at hpl
    have hpd : PlanInv i { d with
        registry := d.registry.persistRetryPlan id attempt (now + delay) } :=
      h.keep rfl (fun hold => hso.trans hold) (h.tally.setRegistry (fun hold => hso.trans hold) hpl)
    have hqe : waiting i (d.retryQueue ++
        [{ dedupKey := id, attempt, delay, scheduledAt := now }]) = waiting i d.retryQueue := by
      simp [hid]
    have hqu := hpd.setQueue hqe
    exact hqu.keep rfl (fun hold => hold) { hqu.tally with }

variable {s : Session}

omit h in
theorem live_dropSession (hs : s ∈ d.sessions) :
    (d.dropSession s).live i = d.live i - if s.issueId = i then 1 else 0 := by
  show (d.sessions.erase s).countP _ = _
  rw [countP_erase]
  simp [hs, live]

/-- A session of the issue is all there is of it, so nothing is left when it is dropped. -/
theorem dropSession (hs : s ∈ d.sessions) : PlanInv i (d.dropSession s) ∧
      (s.issueId = i → Bare i ((d.dropSession s).phase.held i) (d.dropSession s)) := by
  have hli := live_dropSession (i := i) hs
  have hrun : (d.dropSession s).isRunning i = (decide (i ≠ s.issueId) && d.isRunning i) := by
    unfold isRunning Orchestrator.dropSession
    rw [Dict.get_erase]
    split
    case isTrue heq => simp [heq]
    case isFalse hne => simp [hne]
  have hta := h.tally
  by_cases hid : s.issueId = i
  · have hpos : 0 < d.live i := countP_pos_iff.mpr ⟨s, hs, by simpa using hid⟩
    have hsi := hta.single
    have hze := hta.quiet hpos
    have hgo : (d.dropSession s).live i = 0 := by
      rw [hli, if_pos hid]
      omega
    have hrec : (d.registry.get i).isSome = true := by
      by_contra hno
      have := (hta.known (Bool.eq_false_iff.mpr hno)).1
      omega
    refine ⟨h.keep rfl (fun hold => hold) ⟨fun hno => ?_, hta.counted, hta.noPlan,
      fun hl => ?_, ?_, fun hr => ?_⟩, fun _ => ⟨hrec, hgo, hze⟩⟩
    · exact absurd (hrec.symm.trans hno) (by decide)
    · omega
    · omega
    · rw [hrun, hid] at hr
      simp at hr
  · rw [if_neg hid] at hli
    refine ⟨h.keep rfl (fun hold => hold) (hta.transfer rfl hli fun hr => ?_),
      fun heq => absurd heq hid⟩
    rw [hrun, Bool.and_eq_true] at hr
    exact hr.2

theorem sessionEnds (now : Nat) (task : TaskId) (status : RunStatus) (reason : Option EndReason) :
    PlanInv i (d.sessionEnds cfg now task status reason) := by
  obtain heq | ⟨s, hs, e, hal, hen⟩ := sessionEnds_cases cfg d now task status reason
  · rwa [heq]
  obtain ⟨hdr, hba⟩ := h.dropSession hs
  rcases hen with heq | ⟨-, baseMs, heq⟩
  · rw [heq]
    exact hdr.alike hal
  rw [heq]
  refine (hdr.alike hal).scheduleRetry (fun hid => ?_) now reason baseMs
  obtain ⟨hrec, hli, hze⟩ := hba hid
  refine ⟨(hal.isSome i).trans hrec, ?_, ?_⟩
  · unfold live
    rwa [hal.sessions]
  · rwa [hal.queue, hal.phase]

/-! ## Commands -/

/-- A follow-up on command that is added or taken away is one of a known issue. -/
theorem setFollowups {followups : List (IssueId × FollowupStage)}
    (hkn : ∀ stage, (i, stage) ∈ followups → (d.registry.get i).isSome = true) :
    PlanInv i { d with followups } :=
  h.keep rfl (fun hold => hold) { h.tally with known := fun hno => ⟨(h.tally.known hno).1, fun stage hmem =>
    absurd ((hkn stage hmem).symm.trans hno) (by decide)⟩ }

theorem known_of_followup {stage : FollowupStage} (hmem : (i, stage) ∈ d.followups) :
    (d.registry.get i).isSome = true := by
  by_contra hno
  exact (h.tally.known (Bool.eq_false_iff.mpr hno)).2 stage hmem

theorem followupStep (id : IssueId) (stage : FollowupStage) (ok : Bool)
    (hok : id = i → stage = .workspace → ok = true → d.Clear i ∧ d.phase.held i = 0) :
    PlanInv i (d.followupStep id stage ok) := by
  unfold Orchestrator.followupStep
  split
  case isTrue hmem =>
    have hsh : PlanInv i { d with followups := d.followups.erase (id, stage) } :=
      h.setFollowups fun _ hin => h.known_of_followup (mem_of_mem_erase hin)
    cases stage <;> cases ok
    · exact hsh
    · have hmo : ∀ stage, (i, stage) ∈ d.followups.erase (id, .feedback) ++ [(id, .workspace)] →
            (d.registry.get i).isSome = true := ?_
      · exact (hsh.setFollowups hmo).alike {}
      intro _ hin
      rcases mem_append.mp hin with hold | hnew
      · exact hsh.known_of_followup hold
      · rw [mem_singleton, Prod.mk.injEq] at hnew
        rw [← hnew.1] at hmem
        exact h.known_of_followup hmem
    · exact hsh.alike {}
    · refine hsh.startSession .reviewFollowup fun hid => ?_
      subst hid
      obtain ⟨⟨hli, hpe⟩, hhe⟩ := hok rfl rfl rfl
      exact ⟨h.known_of_followup hmem, hli,
        by rw [show waiting id d.retryQueue = 0 from (waiting_of_not_pending hpe).1, hhe]⟩
  case isFalse => exact h

omit h in
theorem waiting_dropQueued_ne (d : Orchestrator) (hid : id ≠ i) :
    waiting i (d.dropQueued id).retryQueue = waiting i d.retryQueue := by
  unfold waiting dropQueued
  rw [countP_filter]
  refine countP_congr fun item _ => ?_
  simp only [decide_eq_true_eq, Bool.and_eq_true, and_iff_left_iff_imp]
  rintro rfl
  exact symm hid

theorem wiped_eq_false (hhe : d.phase.held i = 0) : d.phase.wiped i = false := by
  have hna := h.named
  cases hph : d.phase with
  | idle | fetching => rfl
  | launching source id =>
    rw [hph] at hhe hna
    cases source with
    | retry _ item =>
      have hkey : item.dedupKey = id := hna.1
      have hne : id ≠ i := by
        rintro rfl
        simp [Source.held, hkey] at hhe
      simp [Phase.wiped, hne]
    | poll | feedback => rfl

/-- With no item out, queue and record forget the retry together. -/
theorem cancelPendingRetry (id : IssueId) (hhe : id = i → d.phase.held i = 0) :
    PlanInv i (d.cancelPendingRetry id) := by
  have hpl := plan_clearRetryPlan d.registry id i
  have hso : ((d.registry.clearRetryPlan id).get i).isSome = (d.registry.get i).isSome :=
    isSome_get_modify _ _ _ _
  by_cases hid : id = i
  · subst hid
    have hze := waiting_dropQueued d id
    have hout := hhe rfl
    rw [if_pos rfl] at hpl
    refine h.keep rfl (fun hold => hso.trans hold) ⟨fun hno => ?_, ?_, fun _ => hpl,
      fun _ => ?_, h.tally.single, h.tally.running⟩
    · obtain ⟨_, hfo⟩ := h.tally.known (hso ▸ hno)
      refine ⟨?_, hfo⟩
      show waiting id (d.dropQueued id).retryQueue + _ + d.live id = 0
      omega
    · show waiting id (d.dropQueued id).retryQueue + _ = _
      rw [h.wiped_eq_false hout, hze, hout]
      show 0 = if (plan (d.registry.clearRetryPlan id) id).isSome = true then 1 else 0
      rw [hpl]
      rfl
    · show waiting id (d.dropQueued id).retryQueue + _ = 0
      omega
  · rw [if_neg (Ne.symm hid)] at hpl
    have hdr : PlanInv i (d.dropQueued id) := h.setQueue (waiting_dropQueued_ne d hid)
    exact hdr.keep rfl (fun hold => hso.trans hold)
      (hdr.tally.setRegistry (fun hold => hso.trans hold) hpl)

theorem cancelTask (id : IssueId) : PlanInv i (d.cancelTask id) := by
  unfold Orchestrator.cancelTask
  split
  case h_1 => exact h
  rename_i task _
  have hli : live { d with sessions := d.sessions.map fun s =>
    if s.task = task then { s with cancelled := true } else s } i = d.live i := by
    unfold live
    rw [countP_map]
    refine countP_congr fun s _ => ?_
    simp only [Function.comp_apply]
    split <;> rfl
  exact h.keep rfl (fun hold => hold) (h.tally.transfer rfl hli)

theorem stopIssue (id : IssueId) (hok : id = i → d.phase.held i = 0 ∨ d.retryPending i = false) :
    PlanInv i (d.stopIssue id) := by
  unfold Orchestrator.stopIssue
  split
  case isTrue hpe =>
    refine ((h.cancelPendingRetry id fun hid => ?_).setAttempts _).alike {}
    subst hid
    exact (hok rfl).resolve_right fun hnot => absurd (hpe.symm.trans hnot) (by decide)
  case isFalse =>
    split
    · exact h.cancelTask id
    · exact h

theorem reopen (hok : id = i → waiting i d.retryQueue = 0) (intent : Intent) (origin : IntentSource)
    (resetCount : Bool) : PlanInv i (d.reopen id intent origin resetCount) := by
  have hdr : PlanInv i (d.dropQueued id) := by
    apply h.setQueue
    by_cases hid : id = i
    · subst hid
      exact (waiting_dropQueued d id).trans (hok rfl).symm
    · exact waiting_dropQueued_ne d hid
  refine .alike (hdr.modify ?_) {}
  intro _
  rfl

theorem applyCommand {command : Command} (hok : Careful i d (.command id command)) :
    PlanInv i (d.applyCommand id command) := by
  have hap := applyCommand_cases d id command
  generalize d.applyCommand id command = e at hap ⊢
  cases hap with
  | marked hal => exact h.alike hal
  | stopped hst => exact h.stopIssue id (by rcases hst with rfl | rfl <;> exact hok)
  | reset intent resetCount hre =>
    refine (h.reopen ?_ intent .cli resetCount).setAttempts _
    rcases hre with rfl | rfl <;> exact hok
  | reopened => exact h.reopen hok _ _ _
  | asked hkn =>
    refine h.setFollowups fun stage hmem => ?_
    rcases mem_append.mp hmem with hold | hnew
    · exact h.known_of_followup hold
    · rw [mem_singleton, Prod.mk.injEq] at hnew
      rwa [hnew.1]

/-! ## Whole runs -/

omit h in
/-- A startup rebuilds the queue from the plans. -/
theorem startup (now : Nat) (registry : Registry) (log : List Event) :
    PlanInv i (startup cfg now registry log) := by
  have hwa := waiting_startup cfg now registry log i
  refine ⟨⟨fun hno => ⟨?_, fun _ => not_mem_nil⟩, ?_, nofun,
    fun hl => absurd hl (Nat.lt_irrefl 0), Nat.zero_le 1, nofun⟩, trivial,
    nofun⟩
  · have hpl : (Orchestrator.startup cfg now registry log).registry.plan i = none := by
      unfold plan
      rw [isSome_eq_false_iff, isNone_iff_eq_none] at hno
      rw [hno]
      rfl
    rwa [hpl] at hwa
  · apply hwa.trans
    cases (Orchestrator.startup cfg now registry log).registry.plan i <;> rfl

theorem step {input : Input} (hok : Careful i d input) : PlanInv i (d.step cfg input) := by
  have hil : ∀ act : Orchestrator → Orchestrator,
      (d.phase = .idle → PlanInv i (act d)) → PlanInv i (d.whenIdle act) := by
    intro _ hact
    unfold whenIdle
    split
    case isTrue hph => exact hact hph
    case isFalse => exact h
  cases input with
  | retryTick now =>
    apply hil
    intro hph
    exact h.processRetryQueue hph now hok
  | candidate =>
    apply hil
    exact h.candidate
  | feedbackFound =>
    apply hil
    exact h.feedbackFound
  | rebaseConflict =>
    apply hil
    intro hph
    exact h.rebaseConflict hph hok
  | escalated id abandon =>
    apply hil
    intro _
    exact h.alike (alike_escalated d id abandon)
  | reply => exact h.resume hok
  | synced task prNumber => exact h.alike (alike_synced d task prNumber)
  | sessionEnds now task status reason => exact h.sessionEnds now task status reason
  | settle id => exact h.alike (alike_settle d id)
  | command => exact h.applyCommand hok
  | followupStep id stage ok => exact h.followupStep id stage ok hok
  | crash now => exact .startup now d.registry d.log
  | shutdown now => exact .startup now d.release d.log

end PlanInv

/-- A first run fails, its retry waits, is launched and fails again. -/
def retriedOnce : List Input :=
  dispatched "7" ++ launched ++ [.sessionEnds 5 0 .failed none, .settle "7", .retryTick 20000,
    .reply (.fetched .active)] ++ launched ++ [.sessionEnds 30000 1 .failed none, .settle "7"]

end Orchestrator

end Orchestratord.Daemon
