import Orchestratord.Daemon.Moves

/-! # The limit on automatic retries

The attempt counter of an issue lives in memory and, with a retry plan, in its record. As
long as every restart finds the counter unused or persisted with a plan, neither copy ever
decreases and the relaunches scheduled for the issue stay within the limit. -/

namespace Orchestratord.Daemon

open Foundation Registry List Function Option

/-- The event schedules an automatic relaunch of the issue. -/
def Event.relaunches (i : IssueId) : Event → Bool
  | .retryScheduled id _ | .staleRecovered id => id = i
  | .retryLaunched _ => false

/-- A launch of the issue waits for the closing of its pull request. -/
def Phase.closing (i : IssueId) : Phase → Bool
  | .launching _ id .closePullRequest => id = i
  | _ => false

namespace Orchestrator

variable (cfg : Config) (d : Orchestrator) (i : IssueId)

/-- The automatic relaunches scheduled for the issue so far. -/
def relaunches : Nat := d.log.countP (·.relaunches i)

/-- A restart now would find the issue's attempt counter: it is unused, or persisted with a
retry plan in a record that startup does not take for a stale run. -/
def Restorable : Prop :=
  d.retryAttempts i = 0 ∨ ∃ rec ∈ d.registry.get i,
    rec.nextRetryAt.isSome ∧ rec.retryCount = d.retryAttempts i ∧ rec.status ≠ .running

instance : Decidable (d.Restorable i) := by
  unfold Restorable
  infer_instance

/-- Commands that retry or stop an issue; each forgets its attempt counter. -/
def Command.retriesOrStops : Command → Bool
  | .stop | .takeover | .retry _ | .reviewRetry => true
  | _ => false

/-- No operator retries or stops the issue with this step, and a restart finds its attempt
counter. -/
def Unattended (d : Orchestrator) : Input → Prop
  | .command id command => id = i → command.retriesOrStops = false
  | .reply (.resolved intent _ _ _) => d.resolving i → intent ≠ .retry
  | .crash _ | .shutdown _ => d.Restorable i
  | _ => True

instance (d : Orchestrator) (input : Input) : Decidable (Unattended i d input) := by
  unfold Unattended
  split <;> infer_instance

/-! ## The ledger of an issue -/

/-- `n` relaunches were scheduled, `m` attempts are counted in memory and `r` in the record,
and nothing is under way that would write the record's counter. -/
structure Ledger (n m r : Nat) (d : Orchestrator) : Prop where
  relaunches : d.relaunches i = n
  attempts : d.retryAttempts i = m
  count : d.registry.retryCount i = r
  noRetry : d.registry.intentIs i (· = .retry) = false
  notClosing : d.phase.closing i = false

variable {registry : Registry} {i id : IssueId} {n m r : Nat} {d : Orchestrator}

namespace Ledger

variable {cfg : Config} {source : Source} (h : Ledger i n m r d)

include h

variable {d' : Orchestrator}

theorem setPhase (phase : Phase) (hph : phase.closing i = false) :
    Ledger i n m r { d with phase } :=
  { h with notClosing := hph }

theorem setRegistry (hco : registry.retryCount i = d.registry.retryCount i)
    (hin : registry.intentIs i (· = .retry) = false) : Ledger i n m r { d with registry } :=
  { h with count := hco.trans h.count, noRetry := hin }

theorem alike (hal : Alike d d') : Ledger i n m r d' where
  relaunches := by
    have := h.relaunches
    unfold Orchestrator.relaunches at this ⊢
    rw [hal.log, this]
  attempts := by rw [hal.attempts, h.attempts]
  count := (hal.retryCount i).trans h.count
  noRetry := (hal.intentIs i _).trans h.noRetry
  notClosing := by rw [hal.phase, h.notClosing]

/-- A record written in place, with counter and intent kept. -/
theorem modify {f : IssueRecord → IssueRecord} (hco : ∀ rec, (f rec).retryCount = rec.retryCount)
    (hin : ∀ rec, (f rec).intent = rec.intent) :
    Ledger i n m r { d with registry := d.registry.modify id f } :=
  h.setRegistry (retryCount_modify _ _ _ f hco) ((intentIs_modify _ _ _ f _ hin).trans h.noRetry)

theorem mark (id : IssueId) (status : IssueStatus) :
    Ledger i n m r { d with registry := d.registry.mark id status } :=
  h.modify (fun _ => rfl) fun _ => rfl

theorem clearRetryPlan : Ledger i n m r { d with registry := d.registry.clearRetryPlan id } :=
  h.modify (fun _ => rfl) fun _ => rfl

variable (now : Nat)

theorem processReady (ready : List RetryItem) : Ledger i n m r (d.processReady cfg now ready) := by
  obtain ⟨_, phase, heq, hph, -⟩ := d.processReady_spec cfg now ready
  rw [heq]
  have hcl : phase.closing i = false := by
    rcases hph with rfl | ⟨item, rest, rfl⟩ <;> rfl
  exact { h.setPhase phase hcl with }

theorem processRetryQueue : Ledger i n m r (d.processRetryQueue cfg now) := by
  refine .processReady ?_ now _
  exact { h with }

theorem requeueRetry (item : RetryItem) : Ledger i n m r (d.requeueRetry cfg now item) := by
  unfold Orchestrator.requeueRetry
  split
  · exact h.clearRetryPlan
  · exact { h with }

variable {stage : Stage}

theorem waitFor (hst : (Phase.launching source id stage).closing i = false) :
    Ledger i n m r (d.waitFor source id stage) :=
  h.setPhase _ hst

theorem startSession (runKind : RunKind) : Ledger i n m r (d.startSession id runKind) := by
  have hma : Ledger i n m r { d with
      registry := if runKind = .agentRebase then d.registry else d.registry.mark id .running } := by
    split
    · exact { h with }
    · exact h.mark _ _
  exact { hma with }

theorem clearIntent : Ledger i n m r { d with registry := d.registry.clearIntent id } := by
  apply h.setRegistry (by simp)
  have hno := h.noRetry
  unfold Registry.intentIs Registry.clearIntent at *
  rw [Dict.get_modify]
  split
  · cases d.registry.get i <;> rfl
  · exact hno

theorem retryReturned (now : Nat) (item : RetryItem) (rest : List RetryItem) :
    Ledger i n m r (d.retryReturned cfg id now item rest) := by
  unfold Orchestrator.retryReturned
  split
  · refine .processReady ?_ now rest
    have hpl := (h.clearRetryPlan : Ledger i n m r { d with
      registry := d.registry.clearRetryPlan item.dedupKey })
    refine { hpl with relaunches := ?_ }
    have hrel := h.relaunches
    unfold Orchestrator.relaunches at hrel ⊢
    rw [countP_append, hrel]
    rfl
  · refine .processReady ?_ now rest
    exact { h with }

theorem pollReturned (cli : Bool) : Ledger i n m r (d.pollReturned id cli) := by
  unfold Orchestrator.pollReturned
  split
  · exact h.clearIntent.setPhase .idle rfl
  · exact h.setPhase .idle rfl

theorem launchReturned : Ledger i n m r (d.launchReturned cfg id source) := by
  cases source with
  | retry now item rest => exact h.retryReturned now item rest
  | poll cli => exact h.pollReturned cli
  | feedback => exact h.setPhase .idle rfl

variable {intent : Intent}

theorem dispatched (hin : id = i → intent ≠ .retry) {e : Orchestrator}
    (he : Dispatched d id intent e) : Ledger i n m r e := by
  have hre : ∀ registry, Intended id intent d.registry registry →
      Ledger i n m r { d with registry } := fun registry hr =>
    h.setRegistry (hr.retryCount i)
      (hr.intentIs i _ rfl (fun hid => decide_eq_false (hin hid)) h.noRetry)
  cases he with
  | passed hr => exact { (hre _ hr).setPhase .idle rfl with }
  | waits _ _ hr hst =>
    refine (hre _ hr).waitFor ?_
    rcases hst with rfl | rfl <;> rfl

/-- Only an issue whose record asks for a retry is reset. -/
theorem resetForRetry (hne : i ≠ id) :
    Ledger i n m r { d with registry := d.registry.resetForRetry id } := by
  refine h.setRegistry ?_ ?_
  · unfold Registry.retryCount Registry.resetForRetry
    rw [Dict.get_modify_ne _ _ hne]
  · have hno := h.noRetry
    unfold Registry.intentIs Registry.resetForRetry at *
    rwa [Dict.get_modify_ne _ _ hne]

theorem issueFetched (now : Nat) (item : RetryItem) (rest : List RetryItem) (answer : Fetched) :
    Ledger i n m r (d.issueFetched cfg now item rest answer) := by
  cases answer with
  | missing | error => exact (h.requeueRetry now item).processReady now rest
  | inactive => exact h.clearRetryPlan.processReady now rest
  | active => exact { h.setPhase _ rfl with }

theorem register (status : IssueStatus) :
    Ledger i n m r { d with registry := d.registry.register id status } :=
  h.setRegistry (retryCount_register _ _ _ _) ((intentIs_register _ _ _ _ _ rfl).trans h.noRetry)

variable {reply : Reply}

theorem launchStep (hcl : stage = .closePullRequest → id ≠ i)
    (hin : ∀ intent origin allowed unblock, stage = .resolve →
      reply = .resolved intent origin allowed unblock → id = i → intent ≠ .retry) :
    Ledger i n m r (d.launchStep cfg source id stage reply) := by
  have has : d.registry.intentIs id (· = .retry) = true → id ≠ i := by
    rintro hre rfl
    rw [h.noRetry] at hre
    cases hre
  have hst := launchStep_cases cfg d id source stage reply
  generalize d.launchStep cfg source id stage reply = e at hst ⊢
  cases hst with
  | dispatched _ _ _ _ hsg hrp he => exact h.dispatched (hin _ _ _ _ hsg hrp) he
  | refused => exact h.setPhase .idle rfl
  | waits next hal _ _ _ hcs =>
    refine (h.alike hal).waitFor ?_
    cases next with
    | closePullRequest => exact decide_eq_false (has (hcs rfl))
    | _ => rfl
  | reset hrs => exact (h.resetForRetry (hrs.elim hcl has).symm).waitFor rfl
  | registered => exact (h.register .pending).waitFor rfl
  | returned hal => exact (h.alike hal).launchReturned
  | started runKind => exact (h.startSession runKind).launchReturned
  | ignored => exact h

theorem resume (hok : Unattended i d (.reply reply)) : Ledger i n m r (d.resume cfg reply) := by
  have hcl := h.notClosing
  unfold Orchestrator.resume
  cases hph : d.phase with
  | idle => exact h
  | fetching now item rest =>
    cases reply with
    | fetched answer => exact h.issueFetched now item rest answer
    | _ => exact h
  | launching =>
    rw [hph] at hcl
    refine h.launchStep ?_ ?_
    · rintro rfl rfl
      simp [Phase.closing] at hcl
    · rintro _ _ _ _ rfl rfl rfl
      exact hok (by simp [resolving, hph])

theorem preRegister : Ledger i n m r (d.preRegister id) := by
  unfold Orchestrator.preRegister
  split
  · exact h.register .queued
  · exact h

theorem consider : Ledger i n m r (d.consider id) := by
  unfold Orchestrator.consider
  split
  · exact h
  · exact h.waitFor rfl

theorem reopen {origin : IntentSource} (hin : id = i → intent ≠ .retry) :
    Ledger i n m r (d.reopen id intent origin false) := by
  unfold Orchestrator.reopen dropQueued
  refine { h with count := ?_, noRetry := ?_ }
  · refine (retryCount_modify _ _ _ _ ?_).trans h.count
    exact fun _ => rfl
  have hno := h.noRetry
  unfold intentIs at *
  rw [Dict.get_modify]
  split
  case isTrue heq =>
    cases d.registry.get i with
    | none => rfl
    | some => simpa using hin heq.symm
  · exact hno

theorem dropSession (s : Session) : Ledger i n m r (d.dropSession s) := { h with }

theorem feedbackFound : Ledger i n m r (d.feedbackFound id) := by
  unfold Orchestrator.feedbackFound
  split
  · exact h
  · exact { h.waitFor rfl with }

theorem rebaseConflict : Ledger i n m r (d.rebaseConflict id) := by
  unfold Orchestrator.rebaseConflict
  split
  · exact h
  · exact h.startSession .agentRebase

theorem followupStep (stage : FollowupStage) (ok : Bool) :
    Ledger i n m r (d.followupStep id stage ok) := by
  unfold Orchestrator.followupStep
  split
  · have hsh : Ledger i n m r { d with followups := d.followups.erase (id, stage) } :=
      { h with }
    cases stage <;> cases ok
    · exact hsh
    · exact { hsh with }
    · exact { hsh with }
    · exact hsh.startSession .reviewFollowup
  · exact h

/-- Stopping another issue. -/
theorem stopIssue (hne : i ≠ id) : Ledger i n m r (d.stopIssue id) := by
  unfold Orchestrator.stopIssue
  split
  · have hpl : Ledger i n m r (d.cancelPendingRetry id) := { h.clearRetryPlan with }
    exact { hpl with attempts := by simpa [hne] using hpl.attempts }
  split
  · unfold cancelTask
    split
    · exact h
    · exact { h with }
  · exact h

/-- Retrying another issue. -/
theorem reset (hne : i ≠ id) (intent : Intent) (resetCount : Bool) :
    Ledger i n m r { d.reopen id intent .cli resetCount with
      retryAttempts := update d.retryAttempts id 0 } := by
  have hco := h.count
  have hno := h.noRetry
  refine ⟨h.relaunches, ?_, ?_, ?_, h.notClosing⟩
  · simpa [hne] using h.attempts
  · simpa [Orchestrator.reopen, dropQueued, retryCount, hne] using hco
  · simpa [Orchestrator.reopen, dropQueued, intentIs, hne] using hno

theorem applyCommand {command : Command} (hco : id = i → command.retriesOrStops = false) :
    Ledger i n m r (d.applyCommand id command) := by
  have hne : command.retriesOrStops = true → i ≠ id := by
    rintro htr rfl
    rw [hco rfl] at htr
    cases htr
  have hap := applyCommand_cases d id command
  generalize d.applyCommand id command = e at hap ⊢
  cases hap with
  | marked hal => exact h.alike hal
  | stopped hst => exact h.stopIssue (hne (by rcases hst with rfl | rfl <;> rfl))
  | reset intent resetCount hre =>
    exact h.reset (hne (by rcases hre with rfl | rfl <;> rfl)) intent resetCount
  | reopened => exact h.reopen fun _ => by decide
  | asked => exact { h with }

end Ledger

/-! ## Steps that move the counter -/

/-- The relaunches are counted and within the limit, and the record is not ahead. -/
structure Within (cfg : Config) (n m r : Nat) : Prop where
  counted : n ≤ m
  limited : n ≤ cfg.maxRetryAttempts
  behind : r ≤ m

/-- A ledger within the limit whose counters are at least `m` and `r`. -/
def Advanced (cfg : Config) (i : IssueId) (m r : Nat) (d : Orchestrator) : Prop :=
  ∃ n' m' r', Ledger i n' m' r' d ∧ Within cfg n' m' r' ∧ m ≤ m' ∧ r ≤ r'

section Moving

variable {cfg} (h : Ledger i n m r d)

include h

theorem Ledger.advanced (hw : Within cfg n m r) : Advanced cfg i m r d :=
  ⟨n, m, r, h, hw, le_rfl, le_rfl⟩

/-- Another issue's retry leaves the ledger alone. -/
theorem Ledger.scheduleRetry_ne (hne : i ≠ id) (now : Nat) (reason : Option EndReason)
    (baseMs : Nat) : Ledger i n m r (d.scheduleRetry cfg now id reason baseMs) := by
  unfold scheduleRetry
  split
  · exact { h with }
  have hat : update d.retryAttempts id (d.retryAttempts id + 1) i = m := by
    rw [update_of_ne hne, h.attempts]
  dsimp only
  split
  · have hma := h.mark id .abandoned
    exact { hma with attempts := hat }
  refine ⟨?_, hat, ?_, ?_, h.notClosing⟩
  · have hrel := h.relaunches
    unfold Orchestrator.relaunches at hrel ⊢
    rw [countP_append, hrel]
    simp [Event.relaunches, hne.symm]
  · rw [retryCount_persistRetryPlan, if_neg hne, h.count]
  · rw [intentIs_persistRetryPlan, h.noRetry]

/-- A retry of the issue itself is counted, and scheduled within the limit only. -/
theorem Ledger.scheduleRetry_self (hw : Within cfg n m r) (hmax : cfg.maxRetryAttempts ≠ 0)
    (now : Nat) (reason : Option EndReason) (baseMs : Nat) :
    Advanced cfg i m r (d.scheduleRetry cfg now i reason baseMs) := by
  obtain ⟨hco, hli, hbe⟩ := hw
  unfold scheduleRetry
  split
  · refine advanced ?_ ⟨hco, hli, hbe⟩
    exact { h with }
  have hat : update d.retryAttempts i (d.retryAttempts i + 1) i = m + 1 := by
    rw [update_self, h.attempts]
  dsimp only
  split
  · have hma := h.mark i .abandoned
    exact ⟨n, m + 1, r, { hma with attempts := hat }, ⟨by omega, hli, by omega⟩, by omega, le_rfl⟩
  rename_i hlm
  rw [h.attempts] at hlm
  have hcn : retryCount (d.registry.persistRetryPlan i (d.retryAttempts i + 1)
      (now + computeRetryDelay (d.retryAttempts i + 1) baseMs cfg.maxRetryBackoffMs)) i =
      if (d.registry.get i).isSome then m + 1 else r := by
    rw [retryCount_persistRetryPlan, if_pos rfl, h.attempts, ← h.count]
    unfold retryCount
    cases d.registry.get i <;> rfl
  refine ⟨n + 1, m + 1, _, ⟨?_, hat, hcn, ?_, h.notClosing⟩, ⟨by omega, by omega, ?_⟩, by omega, ?_⟩
  · have hrel := h.relaunches
    unfold Orchestrator.relaunches at hrel ⊢
    rw [countP_append, hrel]
    simp [Event.relaunches]
  · rw [intentIs_persistRetryPlan, h.noRetry]
  all_goals split <;> omega

theorem Ledger.scheduleRetry (hw : Within cfg n m r) (hmax : cfg.maxRetryAttempts ≠ 0) (now : Nat)
    (id : IssueId) (reason : Option EndReason) (baseMs : Nat) :
    Advanced cfg i m r (d.scheduleRetry cfg now id reason baseMs) := by
  by_cases hid : i = id
  · subst hid
    exact h.scheduleRetry_self hw hmax now reason baseMs
  · exact (h.scheduleRetry_ne hid now reason baseMs).advanced hw

theorem Ledger.sessionEnds (hw : Within cfg n m r) (hmax : cfg.maxRetryAttempts ≠ 0) (now : Nat)
    (task : TaskId) (status : RunStatus) (reason : Option EndReason) :
    Advanced cfg i m r (d.sessionEnds cfg now task status reason) := by
  obtain heq | ⟨s, -, e, hal, heq | ⟨-, baseMs, heq⟩⟩ :=
    sessionEnds_cases cfg d now task status reason
  · rw [heq]
    exact h.advanced hw
  · rw [heq]
    exact ((h.dropSession s).alike hal).advanced hw
  · rw [heq]
    exact ((h.dropSession s).alike hal).scheduleRetry hw hmax now s.issueId reason baseMs

/-! ## Restarts -/

omit h in
/-- The record as startup finds it: as it is in the running process, or released. -/
def FoundRecord (d : Orchestrator) (registry : Registry) (i : IssueId) : Prop :=
  registry.get i = d.registry.get i ∨
    registry.get i = (d.registry.get i).map fun rec => { rec with status := .pending }

omit h in
theorem relaunches_startup (now : Nat) (registry : Registry) (log : List Event) (i : IssueId) :
    (startup cfg now registry log).relaunches i = log.countP (·.relaunches i) +
        if (registry.get i).any (·.status = .running) then 1 else 0 := by
  have hlog : (startup cfg now registry log).log =
      log ++ (staleIds registry).map .staleRecovered := rfl
  rw [relaunches, hlog, countP_append, countP_map, ← count_staleIds]
  rfl

omit h in
theorem intentIs_startup (now : Nat) (registry : Registry) (log : List Event) (i : IssueId)
    (p : Intent → Bool) :
    (startup cfg now registry log).registry.intentIs i p = registry.intentIs i p := by
  unfold intentIs
  rw [get_startup]
  cases registry.get i with
  | none => rfl
  | some =>
    rw [map_some, any_some]
    unfold recoverStale
    split <;> rfl

omit h in
theorem FoundRecord.cases (hfo : FoundRecord d registry i) :
    (d.registry.get i = none ∧ registry.get i = none) ∨ ∃ old rec, d.registry.get i = some old ∧
      registry.get i = some rec ∧ rec.nextRetryAt = old.nextRetryAt ∧
      rec.retryCount = old.retryCount ∧ rec.intent = old.intent ∧
      (old.status ≠ .running → rec.status ≠ .running) := by
  unfold FoundRecord at hfo
  cases hold : d.registry.get i with
  | none =>
    rw [hold] at hfo
    exact .inl ⟨rfl, hfo.elim id id⟩
  | some old =>
    rw [hold] at hfo
    rcases hfo with hrec | hrec
    · exact .inr ⟨old, old, rfl, hrec, rfl, rfl, rfl, id⟩
    · exact .inr ⟨old, _, rfl, hrec, rfl, rfl, rfl, fun _ => nofun⟩

omit h in
/-- The ledger after a startup, by the record that it finds. -/
theorem ledger_startup (now : Nat) (log : List Event)
    (hno : registry.intentIs i (· = .retry) = false) : Ledger i (log.countP (·.relaunches i) +
        if (registry.get i).any (·.status = .running) then 1 else 0)
      (match (registry.get i).map (recoverStale cfg now) with
        | some rec => if rec.nextRetryAt.isSome then plannedAttempt rec else 0
        | none => 0) (((registry.get i).map (recoverStale cfg now)).map (·.retryCount) |>.getD 0)
      (startup cfg now registry log) := by
  rw [← get_startup cfg now registry log]
  exact ⟨relaunches_startup now registry log i, rfl, rfl,
    (intentIs_startup now registry log i _).trans hno, rfl⟩

/-- A restart that finds the counter moves no copy of it back. A run that the dead process
left behind is a first attempt then. -/
theorem Ledger.restart (hw : Within cfg n m r) (hmax : cfg.maxRetryAttempts ≠ 0)
    (hok : d.Restorable i) (now : Nat) (hfo : FoundRecord d registry i) :
    Advanced cfg i m r (startup cfg now registry d.log) := by
  obtain ⟨_, hli, _⟩ := hw
  have hn : d.log.countP (·.relaunches i) = n := h.relaunches
  have hno := h.noRetry
  have hco := h.count
  unfold intentIs at hno
  unfold retryCount at hco
  unfold Restorable at hok
  rw [h.attempts] at hok
  rcases hfo.cases with ⟨hold, hrec⟩ | ⟨old, rec, hold, hrec, hpn, hre, hin, hst⟩
  · have hle : Ledger i _ _ _ (startup cfg now registry d.log) := ledger_startup now d.log
      (by rw [intentIs, hrec]; rfl)
    rw [hrec, hn] at hle
    rw [hold] at hco hok
    have hm0 : m = 0 := hok.resolve_right nofun
    exact ⟨_, _, _, hle, ⟨by simp; omega, by simpa using hli, by simp⟩, by omega,
      by simpa using hco.ge⟩
  · have hle : Ledger i _ _ _ (startup cfg now registry d.log) := ledger_startup now d.log
      (by rw [intentIs, hrec, any_some, hin]; simpa [hold] using hno)
    rw [hrec, hn] at hle
    simp only [map_some, any_some] at hle
    have hr : rec.retryCount = r := by
      rw [hold] at hco
      exact hre.trans hco
    have hca : m = 0 ∨ (rec.nextRetryAt.isSome ∧ rec.retryCount = m ∧ rec.status ≠ .running) := by
      apply hok.imp_right
      rintro ⟨_, hmem, hso, hcnt, hnot⟩
      rw [hold] at hmem
      cases hmem
      exact ⟨hpn ▸ hso, hre.trans hcnt, hst hnot⟩
    clear hok
    by_cases hrun : rec.status = .running
    · have hm0 : m = 0 := hca.resolve_right fun hne => hne.2.2 hrun
      rw [recoverStale, if_pos hrun, if_pos (by simpa using hrun)] at hle
      exact ⟨n + 1, 1, 1, hle, ⟨by omega, by omega, by omega⟩, by omega, by omega⟩
    · rw [recoverStale_eq cfg now hrun, if_neg (by simpa using hrun), hr] at hle
      refine ⟨n, _, r, hle, ?_⟩
      rcases hca with hm0 | ⟨hso, hcnt, -⟩
      · exact ⟨⟨by omega, hli, by omega⟩, by omega, le_rfl⟩
      rw [if_pos hso]
      have hpl : m ≤ plannedAttempt rec := by
        unfold plannedAttempt
        split <;> omega
      exact ⟨⟨by omega, hli, by omega⟩, hpl, le_rfl⟩

theorem Ledger.step (hw : Within cfg n m r) (hmax : cfg.maxRetryAttempts ≠ 0) {input : Input}
    (hok : Unattended i d input) : Advanced cfg i m r (d.step cfg input) := by
  have hid : ∀ act : Orchestrator → Orchestrator, Ledger i n m r (act d) →
      Advanced cfg i m r (d.whenIdle act) := by
    intro _ hact
    unfold whenIdle
    split
    · exact hact.advanced hw
    · exact h.advanced hw
  cases input with
  | retryTick now =>
    apply hid
    exact h.processRetryQueue now
  | candidate =>
    apply hid
    exact h.preRegister.consider
  | feedbackFound =>
    apply hid
    exact h.feedbackFound
  | rebaseConflict =>
    apply hid
    exact h.rebaseConflict
  | escalated id abandon =>
    apply hid
    exact h.alike (alike_escalated d id abandon)
  | reply => exact (h.resume hok).advanced hw
  | synced task prNumber => exact (h.alike (alike_synced d task prNumber)).advanced hw
  | sessionEnds now task status reason => exact h.sessionEnds hw hmax now task status reason
  | settle id => exact (h.alike (alike_settle d id)).advanced hw
  | command => exact (h.applyCommand hok).advanced hw
  | followupStep _ stage ok => exact (h.followupStep stage ok).advanced hw
  | crash now => exact h.restart hw hmax hok now (.inl rfl)
  | shutdown now => exact h.restart hw hmax hok now (d.get_release i)

end Moving

/-! ## Whole runs -/

/-- In a run in which no operator retries or stops the issue and every restart finds its
attempt counter, the relaunches scheduled for it stay within the limit, and neither the
counter in memory nor the persisted one ever decreases. -/
theorem relaunches_within_limit (i : IssueId) (hmax : cfg.maxRetryAttempts ≠ 0) (now : Nat)
    (registry : Registry) (hnew : registry.get i = none) (inputs : List Input)
    (hrun : Guarded (step cfg) (Unattended i) (startup cfg now registry []) inputs)
    (earlier later : List Input) (hearlier : earlier <+: later) (hlater : later <+: inputs) :
    let before := runFrom (step cfg) (startup cfg now registry []) earlier
    let after := runFrom (step cfg) (startup cfg now registry []) later
    after.relaunches i ≤ cfg.maxRetryAttempts ∧ before.retryAttempts i ≤ after.retryAttempts i ∧
      before.registry.retryCount i ≤ after.registry.retryCount i := by
  intro before after
  let Inv (d : Orchestrator) : Prop := ∃ n m r, Ledger i n m r d ∧ Within cfg n m r
  let Grows (d d' : Orchestrator) : Prop := d.retryAttempts i ≤ d'.retryAttempts i ∧
    d.registry.retryCount i ≤ d'.registry.retryCount i
  have hst : ∀ d input, Inv d → Unattended i d input →
      Inv (step cfg d input) ∧ Grows d (step cfg d input) := by
    rintro d _ ⟨n, m, r, hle, hw⟩ hok
    obtain ⟨n', m', r', hle', hw', hm, hr⟩ := hle.step hw hmax hok
    refine ⟨⟨n', m', r', hle', hw'⟩, ?_, ?_⟩
    · rwa [hle.attempts, hle'.attempts]
    · rwa [hle.count, hle'.count]
  have hin : Inv (startup cfg now registry []) := by
    have hle : Ledger i _ _ _ (startup cfg now registry []) := ledger_startup now []
      (by rw [intentIs, hnew]; rfl)
    rw [hnew] at hle
    exact ⟨0, 0, 0, hle, ⟨le_rfl, Nat.zero_le _, le_rfl⟩⟩
  obtain ⟨n, m, r, hle, hw⟩ : Inv after :=
    hrun.throughout (fun d input hinv hok => (hst d input hinv hok).1) hin hlater
  have hgr : Grows before after :=
    hrun.related (fun _ => ⟨le_rfl, le_rfl⟩)
      (fun _ _ _ hab hbc => ⟨hab.1.trans hbc.1, hab.2.trans hbc.2⟩) hst hin hearlier hlater
  exact ⟨hle.relaunches ▸ hw.limited, hgr⟩

/-- A first run fails, and the daemon restarts before the retry is due. -/
def restartedWhileWaiting : List Input :=
  dispatched "7" ++ launched ++
    [.sessionEnds 5 0 .failed none, .settle "7", .crash 100, .retryTick 20000,
      .reply (.fetched .active)] ++ launched ++ [.sessionEnds 30000 0 .failed none]

theorem relaunches_within_limit_restarted :
    Guarded (step { maxRetryAttempts := 1 }) (Unattended "7")
      (startup { maxRetryAttempts := 1 } 0 .empty []) restartedWhileWaiting ∧
    (runFrom (step { maxRetryAttempts := 1 }) (startup { maxRetryAttempts := 1 } 0 .empty [])
      restartedWhileWaiting).relaunches "7" ≤ 1 := by
  have hrun : Guarded (step { maxRetryAttempts := 1 }) (Unattended "7")
      (startup { maxRetryAttempts := 1 } 0 .empty []) restartedWhileWaiting := by decide +kernel
  exact ⟨hrun, (relaunches_within_limit { maxRetryAttempts := 1 } "7" (by decide) 0 .empty rfl
    restartedWhileWaiting hrun _ _ prefix_rfl prefix_rfl).1⟩

/-- A first run fails, and the daemon dies during the retry. -/
def crashedDuringRetry : List Input :=
  dispatched "7" ++ launched ++
    [.sessionEnds 5 0 .failed none, .settle "7", .retryTick 20000, .reply (.fetched .active)] ++
    launched ++ [.crash 30000]

/-- The run the crash left behind is scheduled as a first attempt again: with a limit of one
the issue is relaunched twice. -/
theorem crashed_retry_exceeds_limit :
    (∀ id command, Input.command id command ∉ crashedDuringRetry) ∧
    (runFrom (step { maxRetryAttempts := 1 }) (startup { maxRetryAttempts := 1 } 0 .empty [])
      crashedDuringRetry).relaunches "7" = 2 := by
  refine ⟨by simp [crashedDuringRetry, dispatched, launched], by decide +kernel⟩

end Orchestrator

end Orchestratord.Daemon
