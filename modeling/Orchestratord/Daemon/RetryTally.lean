import Orchestratord.Daemon.Moves

/-! # Counting an issue's retries against its plan

Between two awaits an item can be out of the queue, and a launch from the queue wipes the
plan when it registers the issue anew. `Tally` says what the counts are in such a state, and
a launch that meets `LaunchOk` keeps them. -/

namespace Orchestratord.Daemon

open Foundation Phase Registry

/-- The stage's answer can register the issue or start its session. -/
def Stage.commits : Stage → Bool
  | .workspace => true
  | stage => stage.registered

/-- The ready items that are still to be looked at. -/
def Source.rest : Source → List RetryItem
  | .retry _ _ rest => rest
  | _ => []

def Phase.rest : Phase → List RetryItem
  | .fetching _ _ rest => rest
  | .launching source _ _ => source.rest
  | .idle => []

def Source.isRetry : Source → Bool
  | .retry _ _ _ => true
  | _ => false

/-- A launch of the issue from the queue has wiped its plan. -/
def Phase.wiped (i : IssueId) : Phase → Bool
  | .launching source id stage => source.isRetry && id = i && stage.registered
  | _ => false

/-- The poll or new feedback launches the issue. -/
def Phase.launches (i : IssueId) : Phase → Bool
  | .launching source id _ => !source.isRetry && id = i
  | _ => false

/-- A launch from the queue is for the issue of its item. -/
def Source.Names (id : IssueId) : Source → Prop
  | .retry _ item _ => item.dedupKey = id
  | _ => True

def Phase.Named : Phase → Prop
  | .launching source id stage => source.Names id ∧ (stage.polls = true → source.isRetry = false)
  | _ => True

namespace Orchestrator

variable (cfg : Config) (d : Orchestrator) (i : IssueId)

/-- The sessions of the issue that run. -/
def live : Nat := d.sessions.countP (·.issueId = i)

/-- Neither a session nor a retry of the issue. -/
def Clear : Prop := d.live i = 0 ∧ d.retryPending i = false

instance : Decidable (d.Clear i) :=
  inferInstanceAs (Decidable (_ ∧ _))

/-! ## The condition on a step -/

/-- No pull request and no final status stands in the way of a launch. -/
def Unhandled : Prop :=
  (d.registry.hasPr i ∨ d.registry.isTerminal i) → d.registry.intentIs i (·.reopens)

instance : Decidable (d.Unhandled i) :=
  inferInstanceAs (Decidable (_ → _))

/-- A follow-up on command has a pull request to look at. -/
def Enters : Prop := d.usesReviewFeedbackFollowup i → d.registry.hasPr i

instance : Decidable (d.Enters i) :=
  inferInstanceAs (Decidable (_ → _))

/-- The answer does not gate a launch that has registered the issue. -/
def Passes : Stage → Reply → Prop
  | .refresh, .refreshed answer => answer ≠ .missing ∧ answer ≠ .inactive ∧
      (answer = .error → d.Enters i) ∧ (answer = .active false → d.Unhandled i ∧ d.Enters i)
  | .findPullRequest, .pullRequest found => d.Enters i ∧ (found ≠ none → d.Unhandled i) ∧
      (found = some true → d.registry.intentIs i (·.reopens))
  | .reviewFeedback, .reviewFeedback pending => pending = true
  | .followupWorkspace, .followupWorkspace created => created = true
  | _, _ => True

instance (stage : Stage) (reply : Reply) : Decidable (d.Passes i stage reply) := by
  unfold Passes
  split <;> infer_instance

/-- A launch of the issue goes through once it has touched the record, and only the queue
launches an issue with a pending retry. -/
def LaunchOk (reply : Reply) : Phase → Prop
  | .launching source id stage => id = i →
    if source.isRetry then stage.registered = true → d.Passes i stage reply
    else stage.commits = true → d.Clear i
  | _ => True

instance (reply : Reply) (phase : Phase) : Decidable (d.LaunchOk i reply phase) := by
  unfold LaunchOk
  split <;> infer_instance

/-! ## What is counted for an issue -/

/-- Leaving the phase aside: `out` items of the issue are out of the queue, and `wiped` says
whether a launch from the queue has wiped the plan. -/
structure Tally (out : Nat) (wiped : Bool) (d : Orchestrator) : Prop where
  known : (d.registry.get i).isSome = false →
    waiting i d.retryQueue + out + d.live i = 0 ∧ ∀ stage, (i, stage) ∉ d.followups
  counted : waiting i d.retryQueue + out =
    if wiped then 1 else if (d.registry.plan i).isSome then 1 else 0
  noPlan : wiped = true → d.registry.plan i = none
  quiet : 0 < d.live i → waiting i d.retryQueue + out = 0
  single : d.live i ≤ 1
  running : d.isRunning i = true → 0 < d.live i

/-- Nothing of the issue is about but its record. -/
structure Bare (out : Nat) (d : Orchestrator) : Prop where
  known : (d.registry.get i).isSome = true
  live : d.live i = 0
  waiting : waiting i d.retryQueue + out = 0

structure PlanInv (d : Orchestrator) : Prop where
  tally : Tally i (d.phase.held i) (d.phase.wiped i) d
  named : d.phase.Named
  launching : d.phase.launches i = true → (d.registry.get i).isSome = true

variable {d' : Orchestrator} {f : IssueRecord → IssueRecord} {i id : IssueId} {out : Nat}
  {wiped : Bool} {d : Orchestrator} {item : RetryItem}

namespace Tally

variable {cfg : Config}

variable (h : Tally i out wiped d)

include h

/-- A step that moves the items of the issue and keeps its plan and its sessions. -/
theorem transfer {out' : Nat} (his : waiting i d'.retryQueue + out' = waiting i d.retryQueue + out)
    (hli : d'.live i = d.live i := by rfl)
    (hru : d'.isRunning i = true → d.isRunning i = true := by exact fun h => h)
    (hso : (d.registry.get i).isSome = true → (d'.registry.get i).isSome = true := by
      exact fun h => h) (hpl : d'.registry.plan i = d.registry.plan i := by rfl)
    (hfo : ∀ stage, (i, stage) ∈ d'.followups → (i, stage) ∈ d.followups := by
      exact fun _ h => h) : Tally i out' wiped d' where
  known hno := by
    obtain ⟨hze, hnot⟩ := h.known (Bool.eq_false_iff.mpr fun hold => by
      rw [hso hold] at hno
      cases hno)
    rw [his, hli]
    exact ⟨hze, fun stage hmem => hnot stage (hfo stage hmem)⟩
  counted := by rw [his, hpl, h.counted]
  noPlan hw := hpl.trans (h.noPlan hw)
  quiet hpos := his.trans (h.quiet (hli ▸ hpos))
  single := hli ▸ h.single
  running hrun := hli ▸ h.running (hru hrun)

theorem congr (hre : d'.registry = d.registry)
    (hqu : d'.retryQueue = d.retryQueue) (hse : d'.sessions = d.sessions)
    (hru : d'.running = d.running) (hfo : d'.followups = d.followups) :
    Tally i out wiped d' :=
  h.transfer (by rw [hqu]) (by rw [live, hse, live])
    (by rw [isRunning, hru]; exact fun h => h) (by rw [hre]; exact fun h => h)
    (by rw [hre]) (by rw [hfo]; exact fun _ h => h)

/-- A record that is written but keeps its plan. -/
theorem setRegistry {registry : Registry}
    (hso : (d.registry.get i).isSome = true → (registry.get i).isSome = true)
    (hpl : registry.plan i = d.registry.plan i) : Tally i out wiped { d with registry } :=
  h.transfer rfl rfl (fun h => h) hso hpl

theorem modify (hf : ∀ rec, (f rec).nextRetryAt = rec.nextRetryAt) :
    Tally i out wiped { d with registry := d.registry.modify id f } :=
  h.setRegistry (fun hso => by rwa [isSome_get_modify]) (plan_modify _ _ _ f hf)

theorem clearIntent (id : IssueId) :
    Tally i out wiped { d with registry := d.registry.clearIntent id } :=
  h.modify fun _ => rfl

omit h

/-- An item that was out comes back. -/
theorem push (h : Tally i ((if item.dedupKey = i then 1 else 0) + out) wiped d) :
    Tally i out wiped { d with retryQueue := d.retryQueue ++ [item] } := by
  apply h.transfer
  rw [waiting_append, waiting_cons, waiting_nil]
  omega

/-- An item that was out is given up with its plan. -/
theorem giveUp (h : Tally i ((if id = i then 1 else 0) + out) false d) :
    Tally i out false { d with registry := d.registry.clearRetryPlan id } := by
  have hco := h.counted
  have hqu := h.quiet
  have hkn := h.known
  have hpl := plan_clearRetryPlan d.registry id i
  have hso : ((d.registry.clearRetryPlan id).get i).isSome = (d.registry.get i).isSome :=
    isSome_get_modify _ _ _ _
  by_cases hid : id = i
  · subst hid
    rw [if_pos rfl] at hco hqu hkn hpl
    have hze : waiting id d.retryQueue + out = 0 := by
      split at hco
      · omega
      · split at hco <;> omega
    refine ⟨fun hno => ?_, ?_, nofun, fun _ => hze, h.single, h.running⟩
    · have := hkn (hso ▸ hno)
      exact ⟨by show waiting id d.retryQueue + out + d.live id = 0; omega, this.2⟩
    · show waiting id d.retryQueue + out = _
      rw [hpl, hze]
      rfl
  · rw [if_neg hid, Nat.zero_add] at h
    rw [if_neg (Ne.symm hid)] at hpl
    exact h.setRegistry (fun hold => hso.trans hold) hpl

/-- Going on with the ready items moves the issue's items, and drops none of them. -/
theorem processReady {ready : List RetryItem} (h : Tally i (waiting i ready) false d)
    (hdo : i ∈ d.completed → waiting i ready = 0) (now : Nat) :
    PlanInv i (d.processReady cfg now ready) := by
  obtain ⟨queue, phase, heq, hph, hqu, hle, hke⟩ := d.processReady_spec cfg now ready
  have hsum : waiting i queue + phase.held i = waiting i d.retryQueue + waiting i ready := by
    by_cases hst : d.isRunning i = false ∧ i ∉ d.completed
    · exact hke i hst.1 hst.2
    have hze : waiting i ready = 0 := by
      by_cases hrun : d.isRunning i = true
      · have := h.quiet (h.running hrun)
        omega
      · refine hdo (by_contra fun hco => hst ⟨Bool.eq_false_iff.mpr hrun, hco⟩)
    have hge := hqu i
    have hle := hle i
    omega
  have hwi : phase.wiped i = false := by
    rcases hph with rfl | ⟨item, rest, rfl⟩ <;> rfl
  have hla : phase.launches i = false := by
    rcases hph with rfl | ⟨item, rest, rfl⟩ <;> rfl
  have hna : phase.Named := by
    rcases hph with rfl | ⟨item, rest, rfl⟩ <;> trivial
  rw [heq]
  refine ⟨?_, hna, fun hl => ?_⟩
  · rw [hwi]
    exact h.transfer hsum
  · rw [hla] at hl
    cases hl

theorem setIdle (h : Tally i 0 false d) : PlanInv i { d with phase := .idle } :=
  ⟨{ h with }, trivial, nofun⟩

theorem requeueRetry
    (h : Tally i ((if item.dedupKey = i then 1 else 0) + out) false d) (now : Nat) :
    Tally i out false (d.requeueRetry cfg now item) := by
  unfold Orchestrator.requeueRetry
  split
  · exact h.giveUp
  rename_i hre
  refine .push ?_
  rwa [requeueRetryItem_dedupKey hre]

end Tally

/-! ## Sessions -/

section Sessions

theorem live_startSession (d : Orchestrator) (i id : IssueId) (runKind : RunKind) :
    (d.startSession id runKind).live i = d.live i + if id = i then 1 else 0 := by
  unfold live startSession
  simp

theorem isRunning_startSession (d : Orchestrator) (i id : IssueId) (runKind : RunKind) :
    (d.startSession id runKind).isRunning i = (decide (i = id) || d.isRunning i) := by
  unfold isRunning startSession
  rw [Dict.get_set]
  split
  case isTrue h => simp [h]
  case isFalse h => simp [h]

theorem get_startSession (d : Orchestrator) (i id : IssueId) (runKind : RunKind) :
    ((d.startSession id runKind).registry.get i).isSome = (d.registry.get i).isSome ∧
      (d.startSession id runKind).registry.plan i = d.registry.plan i := by
  unfold startSession
  split
  · exact ⟨rfl, rfl⟩
  · exact ⟨isSome_get_modify _ _ _ _, by simp⟩

/-- A session may start if it is another issue's, or nothing of the issue is about. -/
theorem Tally.startSession (h : Tally i out wiped d) (hba : id = i → Bare i out d)
    (runKind : RunKind) : Tally i out wiped (d.startSession id runKind) := by
  obtain ⟨hso, hpl⟩ := get_startSession d i id runKind
  have hli := live_startSession d i id runKind
  have hrun := isRunning_startSession d i id runKind
  by_cases hid : id = i
  · obtain ⟨hrec, hze, his⟩ := hba hid
    rw [if_pos hid] at hli
    refine ⟨fun hno => ?_, ?_, fun hw => hpl.trans (h.noPlan hw), fun _ => his, ?_, fun _ => ?_⟩
    · rw [hso, hrec] at hno
      cases hno
    · rw [hpl]
      exact h.counted
    · omega
    · omega
  · rw [if_neg hid] at hli
    refine h.transfer rfl hli (fun hr => ?_) (fun hold => hso.trans hold) hpl
    rw [hrun] at hr
    simpa [Ne.symm hid] using hr

/-- The launch from the queue ends with the issue's session: its item is used up. -/
theorem Tally.startOwn (h : Tally i (1 + out) true d) (runKind : RunKind) :
    Tally i out false (d.startSession i runKind) ∧
      (d.startSession i runKind).registry.plan i = none := by
  have hco := h.counted
  rw [if_pos rfl] at hco
  have hze : d.live i = 0 := by
    by_contra hpos
    have := h.quiet (Nat.pos_of_ne_zero hpos)
    omega
  obtain ⟨hso, hpl⟩ := get_startSession d i i runKind
  have hli := live_startSession d i i runKind
  rw [if_pos rfl] at hli
  rw [h.noPlan rfl] at hpl
  refine ⟨⟨fun hno => ?_, ?_, nofun, fun _ => ?_, ?_, fun _ => ?_⟩, hpl⟩
  · have := (h.known (hso ▸ hno)).1
    omega
  · rw [hpl]
    show waiting i d.retryQueue + out = 0
    omega
  · show waiting i d.retryQueue + out = 0
    omega
  · omega
  · omega

end Sessions

/-! ## Launches -/

/-- A launch under way that has not wiped the issue's plan. -/
structure LaunchInv (i : IssueId) (source : Source) (id : IssueId) (d : Orchestrator) : Prop where
  tally : Tally i (source.held i) false d
  names : source.Names id
  done : i ∈ d.completed → waiting i source.rest = 0
  known : source.isRetry = false → id = i → (d.registry.get i).isSome = true

variable {source : Source} {now : Nat} {rest : List RetryItem}

namespace LaunchInv

variable {cfg : Config} (h : LaunchInv i source id d)

include h

theorem alike (hal : Alike d d')
    (hdo : i ∈ d'.completed → waiting i source.rest = 0) : LaunchInv i source id d' where
  tally := .congr (h.tally.setRegistry (fun hold => (hal.isSome i).trans hold)
    (hal.plan i)) rfl hal.queue hal.sessions hal.running hal.followups
  names := h.names
  done := hdo
  known hr hid := (hal.isSome i).trans (h.known hr hid)

theorem modify {other : IssueId} (hf : ∀ rec, (f rec).nextRetryAt = rec.nextRetryAt) :
    LaunchInv i source id { d with registry := d.registry.modify other f } :=
  ⟨h.tally.modify hf, h.names, h.done, fun hr hid => by
    rw [isSome_get_modify]
    exact h.known hr hid⟩

theorem waitFor (stage : Stage) (hwi : (launching source id stage).wiped i = false)
    (hpo : stage.polls = true → source.isRetry = false) :
    PlanInv i (d.waitFor source id stage) := by
  refine ⟨?_, ⟨h.names, hpo⟩, fun hl => ?_⟩
  · rw [show (d.waitFor source id stage).phase = .launching source id stage from rfl, hwi,
      held_launching]
    exact { h.tally with }
  · have hl : (!source.isRetry && decide (id = i)) = true := hl
    simp only [Bool.and_eq_true, Bool.not_eq_true', decide_eq_true_eq] at hl
    exact h.known hl.1 hl.2

omit h in
theorem retryReturned (h : LaunchInv i (.retry now item rest) id d) :
    PlanInv i (d.retryReturned cfg id now item rest) := by
  have hta := h.tally
  rw [show (Source.retry now item rest).held i = waiting i (item :: rest) from rfl,
    waiting_cons] at hta
  unfold Orchestrator.retryReturned
  split
  · refine Tally.processReady ?_ ?_ now
    · exact { hta.giveUp with }
    · exact h.done
  · refine Tally.processReady ?_ ?_ now
    · exact hta.push
    · exact h.done

theorem launchReturned : PlanInv i (d.launchReturned cfg id source) := by
  cases source with
  | retry => exact h.retryReturned
  | poll =>
    dsimp only [Orchestrator.launchReturned, pollReturned]
    split
    · exact (h.tally.clearIntent id).setIdle
    · exact h.tally.setIdle
  | feedback => exact h.tally.setIdle

omit h in
/-- A launch from the queue is for another issue. -/
theorem wiped_eq_false (hfo : source.isRetry = true → id ≠ i) (stage : Stage) :
    (launching source id stage).wiped i = false := by
  unfold wiped
  by_contra hw
  simp only [Bool.not_eq_false, Bool.and_eq_true, decide_eq_true_eq] at hw
  exact hfo hw.1.1 hw.1.2

omit h in
theorem rest_eq_nil (h : source.isRetry = false) : source.rest = [] := by
  cases source with
  | retry => cases h
  | poll | feedback => rfl

omit h in
/-- The condition under which a launch of the issue may start its session. -/
def MayStart (i : IssueId) (source : Source) (id : IssueId) (d : Orchestrator) : Prop :=
  id = i → source.isRetry = false ∧ d.live i = 0 ∧ waiting i d.retryQueue = 0

omit h in
theorem foreign (hst : MayStart i source id d) : source.isRetry = true → id ≠ i := by
  intro hre hid
  rw [(hst hid).1] at hre
  cases hre

theorem start (hst : MayStart i source id d) (runKind : RunKind) :
    LaunchInv i source id (d.startSession id runKind) := by
  refine ⟨h.tally.startSession ?_ runKind, h.names, h.done, fun hr hid => ?_⟩
  · intro hid
    obtain ⟨hre, hli, hqu⟩ := hst hid
    refine ⟨h.known hre hid, hli, ?_⟩
    cases source with
    | retry => cases hre
    | poll | feedback => exact hqu
  · rw [(get_startSession d i id runKind).1]
    exact h.known hr hid

end LaunchInv

/-! ## The issue's own launch from the queue, after its registration -/

variable {stage : Stage} {reply : Reply}

section Own

variable {cfg}

/-- The issue's own launch, with the plan wiped. -/
structure OwnLaunch (i : IssueId) (item : RetryItem) (rest : List RetryItem) (d : Orchestrator) :
    Prop where
  tally : Tally i (1 + waiting i rest) true d
  named : item.dedupKey = i

variable (h : OwnLaunch i item rest d)

include h

theorem OwnLaunch.rest_eq_zero : waiting i rest = 0 := by
  have := h.tally.counted
  rw [if_pos rfl] at this
  omega

theorem OwnLaunch.waitFor (stage : Stage) (hst : stage.registered = true) :
    PlanInv i (d.waitFor (.retry now item rest) i stage) := by
  have hpo : stage.polls = false := by
    cases stage <;> first | rfl | exact absurd hst (by decide)
  refine ⟨?_, ⟨h.named, fun hp => absurd (hpo.symm.trans hp) (by decide)⟩, nofun⟩
  have hwi : (launching (.retry now item rest) i stage).wiped i = true := by
    simp [wiped, Source.isRetry, hst]
  have hhe : (launching (.retry now item rest) i stage).held i = 1 + waiting i rest := by
    show waiting i (item :: rest) = _
    rw [waiting_cons, if_pos h.named]
  rw [show (d.waitFor (.retry now item rest) i stage).phase =
    .launching (.retry now item rest) i stage from rfl, hwi, hhe]
  exact { h.tally with }

theorem OwnLaunch.start (runKind : RunKind) :
    PlanInv i ((d.startSession i runKind).launchReturned cfg i (.retry now item rest)) := by
  obtain ⟨hta, hpl⟩ := h.tally.startOwn runKind
  have hrun : (d.startSession i runKind).isRunning i = true := by
    rw [isRunning_startSession]
    simp
  have hze := h.rest_eq_zero
  dsimp only [launchReturned, retryReturned]
  rw [if_pos hrun]
  refine Tally.processReady ?_ (fun _ => hze) now
  refine .congr (hta.setRegistry (fun hold => ?_) ?_) rfl rfl rfl rfl rfl
  · exact (isSome_get_modify _ _ _ _).trans hold
  · rw [plan_clearRetryPlan, if_pos h.named.symm, hpl]

theorem OwnLaunch.enter (hen : d.Enters i) : PlanInv i (d.enter cfg (.retry now item rest) i) := by
  unfold Orchestrator.enter
  split
  case isTrue hus =>
    unfold collectFeedback
    rw [if_pos (hen hus)]
    exact h.waitFor _ rfl
  · exact h.start .issue

theorem OwnLaunch.registryGuard (hop : d.Unhandled i) (hen : d.Enters i) :
    PlanInv i (d.registryGuard cfg (.retry now item rest) i) := by
  unfold Orchestrator.registryGuard
  split
  case isTrue hha => exact absurd (hop hha.1) hha.2
  · exact h.enter hen

/-- Past its registration the launch goes through, one answer after the other. -/
theorem OwnLaunch.launchStep (hinv : PlanInv i d) (hst : stage.registered = true)
    (hpa : d.Passes i stage reply) :
    PlanInv i (d.launchStep cfg (.retry now item rest) i stage reply) := by
  cases stage <;> cases hst
  · cases reply with
    | refreshed answer =>
      obtain ⟨hmi, hin, her, hac⟩ := hpa
      cases answer with
      | missing => exact absurd rfl hmi
      | inactive => exact absurd rfl hin
      | error => exact h.enter (her rfl)
      | active branch =>
        cases branch with
        | true => exact h.waitFor .findPullRequest rfl
        | false => exact h.registryGuard (hac rfl).1 (hac rfl).2
    | _ => exact hinv
  · cases reply with
    | pullRequest found =>
      obtain ⟨hen, hop, hre⟩ := hpa
      rcases found with _ | _
      · exact h.enter hen
      have hgu : PlanInv i (d.registryGuard cfg (.retry now item rest) i) :=
        h.registryGuard (hop (by simp)) hen
      dsimp only [Orchestrator.launchStep]
      rw [if_neg ?_]
      · exact hgu
      · rintro ⟨hfo, hnot⟩
        exact hnot (hre (by rw [hfo]))
    | _ => exact hinv
  · cases reply with
    | reviewFeedback =>
      cases hpa
      exact h.waitFor .followupWorkspace rfl
    | _ => exact hinv
  · cases reply with
    | followupWorkspace =>
      cases hpa
      exact h.start .reviewFollowup
    | _ => exact hinv

end Own

/-! ## One answer of a launch -/

namespace LaunchInv

variable {cfg : Config}

theorem poll (h : LaunchInv i source id d) (hpo : source.isRetry = false) (cli : Bool) :
    LaunchInv i (.poll cli) id d := by
  refine ⟨?_, trivial, fun _ => rfl, fun _ => h.known hpo⟩
  have hta := h.tally
  cases source with
  | retry => cases hpo
  | poll | feedback => exact hta

theorem setIdle (h : LaunchInv i (.poll false) id d) : PlanInv i { d with phase := .idle } :=
  h.tally.setIdle

theorem dispatched (h : ∀ cli, LaunchInv i (.poll cli) id d) {intent : Intent} {e : Orchestrator}
    (he : Dispatched d id intent e) : PlanInv i e := by
  have hre : ∀ registry cli, Intended id intent d.registry registry →
      LaunchInv i (.poll cli) id { d with registry } := fun registry cli hr =>
    ⟨(h cli).tally.setRegistry (fun hold => (hr.isSome i).trans hold) (hr.plan i), trivial,
      (h cli).done, fun hpo hid => (hr.isSome i).trans ((h cli).known hpo hid)⟩
  cases he with
  | passed hr =>
    have hil := (hre _ false hr).setIdle
    exact ⟨{ hil.tally with }, trivial, hil.launching⟩
  | waits cli stage hr => exact (hre _ cli hr).waitFor stage rfl fun _ => rfl

/-- Registering an issue that the launch may start. -/
theorem register (h : LaunchInv i source id d) (hst : MayStart i source id d) :
    LaunchInv i source id { d with registry := d.registry.register id } := by
  have hget := get_register d.registry id i .pending
  have hpl := plan_register d.registry id i .pending
  by_cases hid : id = i
  · obtain ⟨hre, hli, hqu⟩ := hst hid
    rw [if_pos hid.symm] at hget hpl
    have hhe : source.held i = 0 := by
      cases source with
      | retry => cases hre
      | poll | feedback => rfl
    have hso : ((d.registry.register id).get i).isSome = true := by
      rw [hget]
      rfl
    refine ⟨⟨fun hno => ?_, ?_, nofun, fun _ => ?_, h.tally.single,
      h.tally.running⟩, h.names, h.done, fun _ _ => hso⟩
    · rw [hso] at hno
      cases hno
    · show waiting i d.retryQueue + source.held i = _
      rw [hpl, hqu, hhe]
      rfl
    · show waiting i d.retryQueue + source.held i = 0
      rw [hqu, hhe]
  · rw [if_neg (Ne.symm hid)] at hget hpl
    refine ⟨h.tally.setRegistry (fun hold => ?_) hpl, h.names, h.done, fun hr heq => ?_⟩
    · rwa [hget]
    · exact absurd heq hid

/-- The launch from the queue registers its own issue, and wipes its plan. -/
theorem registerOwn (h : LaunchInv i (.retry now item rest) i d) :
    OwnLaunch i item rest { d with registry := d.registry.register i } := by
  have hget := get_register d.registry i i .pending
  have hpl := plan_register d.registry i i .pending
  rw [if_pos rfl] at hget hpl
  have hhe : (Source.retry now item rest).held i = 1 + waiting i rest := by
    have hna : item.dedupKey = i := h.names
    show waiting i (item :: rest) = _
    rw [waiting_cons, if_pos hna]
  have hta := h.tally
  rw [hhe] at hta
  have hco := hta.counted
  have hone : waiting i d.retryQueue + (1 + waiting i rest) = 1 := by
    rw [if_neg Bool.false_ne_true] at hco
    split at hco <;> omega
  refine ⟨⟨fun hno => ?_, hone, fun _ => hpl, hta.quiet, hta.single, hta.running⟩, h.names⟩
  rw [show ((d.registry.register i).get i).isSome = true by rw [hget]; rfl] at hno
  cases hno

theorem launchStep (h : LaunchInv i source id d) (hinv : PlanInv i d)
    (hpl : stage.polls = true → source.isRetry = false)
    (hfo : stage.registered = true → source.isRetry = true → id ≠ i)
    (hcl : stage.commits = true → id = i → source.isRetry = false →
      d.live i = 0 ∧ waiting i d.retryQueue = 0) :
    PlanInv i (d.launchStep cfg source id stage reply) := by
  have hmay : stage.registered = true → MayStart i source id d := by
    intro hst hid
    have hpo : source.isRetry = false := by
      by_contra hre
      exact hfo hst (by simpa using hre) hid
    have hco : stage.commits = true := by
      cases stage <;> first | rfl | cases hst
    exact ⟨hpo, hcl hco hid hpo⟩
  have hsp := launchStep_cases cfg d id source stage reply
  generalize d.launchStep cfg source id stage reply = e at hsp ⊢
  cases hsp with
  | dispatched _ _ _ _ hst _ he =>
    exact dispatched (fun cli => h.poll (hpl (by rw [hst]; rfl)) cli) he
  | refused hst => exact (h.poll (hpl (by rw [hst]; rfl)) false).setIdle
  | waits next hal hdo hne hpg =>
    refine (h.alike hal (hdo ▸ h.done)).waitFor next ?_ (by simp [hpg])
    unfold wiped
    by_contra hw
    simp only [Bool.not_eq_false, Bool.and_eq_true, decide_eq_true_eq] at hw
    exact hfo (hne hw.2) hw.1.1 hw.1.2
  | reset =>
    refine waitFor ?_ .workspace (by simp [wiped, Stage.registered]) nofun
    exact h.modify fun _ => rfl
  | registered hst =>
    by_cases hown : source.isRetry = true ∧ id = i
    · obtain ⟨hre, rfl⟩ := hown
      cases source with
      | retry => exact h.registerOwn.waitFor _ rfl
      | poll | feedback => cases hre
    · have hmay : MayStart i source id d := by
        intro hid
        have hpo : source.isRetry = false := by
          by_contra hre
          exact hown ⟨by simpa using hre, hid⟩
        exact ⟨hpo, hcl (by rw [hst]; rfl) hid hpo⟩
      exact (h.register hmay).waitFor _ (wiped_eq_false (foreign hmay) _) nofun
  | returned hal hdo =>
    refine launchReturned (h.alike hal fun hmem => ?_)
    rcases hdo with hsa | ⟨hst, hsa⟩
    · exact h.done (hsa ▸ hmem)
    rcases Finset.mem_insert.mp (hsa ▸ hmem) with heq | hold
    · -- only a launch that does not come from the queue may find its issue handled
      rw [rest_eq_nil (hmay hst heq.symm).1]
      rfl
    · exact h.done hold
  | started runKind hst => exact (h.start (hmay hst) runKind).launchReturned
  | ignored => exact hinv

end LaunchInv

end Orchestrator

end Orchestratord.Daemon
