import Orchestratord.Workflow.DagOrder

/-!
# What a stage leaves in the log

Two projections of the event log carry the theorems about runs: `trace`, the
stages started and finished in order, and `verdicts`, the gate verdicts. This
file says once what running a stage, booking it, skipping it and rolling back
do to the state and to both projections. `Pass` lists what a pass of the loop
can come to. No pass clears the error flag, so a successful run is made of
passes that leave it unset.
-/

namespace Orchestratord.Workflow

open Event Engine Function
open List hiding getElem?_eq_some_iff

variable {σ : Type}

/-! ## §1 Projections of the log -/

inductive Mark where
  | started (stageId : Int)
  | finished (stageId : Int)
deriving DecidableEq, Repr

def Event.mark : Event → Option Mark
  | .stageStart i _ _ => some (.started i)
  | .stageComplete i _ _ => some (.finished i)
  | _ => none

def Event.verdict : Event → Option (Int × Bool)
  | .gateApproved i _ => some (i, true)
  | .gateRejected i _ _ => some (i, false)
  | _ => none

def trace (log : List Event) : List Mark := log.filterMap mark

def verdicts (log : List Event) : List (Int × Bool) := log.filterMap verdict

variable (l₁ l₂ : List Event)

@[simp] theorem trace_append : trace (l₁ ++ l₂) = trace l₁ ++ trace l₂ := filterMap_append

@[simp] theorem verdicts_append :
    verdicts (l₁ ++ l₂) = verdicts l₁ ++ verdicts l₂ := filterMap_append

theorem trace_costWarnings (ws : List String) : trace (ws.map .costWarning) = [] := by
  simp [trace, mark]

theorem verdicts_costWarnings (ws : List String) : verdicts (ws.map .costWarning) = [] := by
  simp [verdicts, verdict]

/-! ## §2 One stage -/

/-- The verdict a stage's outcome stands for. -/
def outcomeVerdict (stage : StageNode) : Except EngineError StageResult → List (Int × Bool)
  | .ok r => if stage.kind = .gate then [(stage.id, r.status = .gateApproved)] else []
  | .error _ => []

/-- The results a stage of each kind can produce. -/
structure ResultOf (stage : StageNode) (r : StageResult) : Prop where
  gate : stage.kind = .gate → r.status = .gateApproved ∨ r.status = .gateRejected
  other : stage.kind ≠ .gate → r.status = .completed

/-- What a stage method logs, by what it came to. -/
inductive StageEvents (stage : StageNode) : Except EngineError StageResult → List Event → Prop where
  | worked (r : StageResult) (warnings : List String)
      (hkind : stage.kind = .agent ∨ stage.kind = .action) (hstatus : r.status = .completed) :
      StageEvents stage (.ok r) (warnings.map .costWarning)
  | broke (err : EngineError) (warnings : List String) :
      StageEvents stage (.error err) (warnings.map .costWarning)
  | unanswered (err : EngineError) (hkind : stage.kind = .gate) :
      StageEvents stage (.error err) [.gateRequest stage.id stage.name stage.gateMode]
  | approved (r : StageResult) (hkind : stage.kind = .gate) (hstatus : r.status = .gateApproved) :
      StageEvents stage (.ok r) [.gateRequest stage.id stage.name stage.gateMode,
        .gateApproved stage.id stage.name]
  | rejected (r : StageResult) (reason : String) (hkind : stage.kind = .gate)
      (hstatus : r.status = .gateRejected) :
      StageEvents stage (.ok r) [.gateRequest stage.id stage.name stage.gateMode,
        .gateRejected stage.id stage.name reason]
  | decided (r : StageResult) (outcome : String) (hkind : stage.kind = .decision)
      (hstatus : r.status = .completed) (houtcome : r.decisionOutcome = some outcome) :
      StageEvents stage (.ok r) [.decisionEvaluated stage.id outcome r.decisionNextStage]
  | exhausted (message outcome : String) (hkind : stage.kind = .decision) :
      StageEvents stage (.error (.workflow message)) [.decisionEvaluated stage.id outcome none]

variable {stage : StageNode} {r : StageResult}

namespace StageEvents

variable {out : Except EngineError StageResult} {inner : List Event}

theorem trace (h : StageEvents stage out inner) : trace inner = [] := by
  cases h with
  | worked | broke => exact trace_costWarnings _
  | unanswered | approved | rejected | decided | exhausted => rfl

theorem verdicts (h : StageEvents stage out inner) : verdicts inner = outcomeVerdict stage out := by
  cases h with
  | worked _ _ hki =>
    rw [verdicts_costWarnings, outcomeVerdict, if_neg]
    rcases hki with hki | hki <;> simp [hki]
  | broke => exact verdicts_costWarnings _
  | unanswered | exhausted => rfl
  | approved _ hki hst | rejected _ _ hki hst =>
    rw [outcomeVerdict, if_pos hki, hst]
    rfl
  | decided _ _ hki =>
    rw [outcomeVerdict, if_neg (by simp [hki])]
    rfl

theorem result (h : StageEvents stage (.ok r) inner) : ResultOf stage r := by
  cases h with
  | worked _ _ hki hst =>
    refine ⟨fun hga => ?_, fun _ => hst⟩
    rcases hki with hki | hki <;> cases hga.symm.trans hki
  | approved _ hki hst => exact ⟨fun _ => .inl hst, fun hne => absurd hki hne⟩
  | rejected _ _ hki hst => exact ⟨fun _ => .inr hst, fun hne => absurd hki hne⟩
  | decided _ _ hki hst => exact ⟨fun hga => (by cases hga.symm.trans hki), fun _ => hst⟩

end StageEvents

/-- A stage method leaves state and disk alone. Only an agent is charged, and only a decision
goes into the history. -/
structure StageFrame (stage : StageNode) (e : Engine σ) (out : StageOutcome σ) : Prop where
  log : ∃ inner, out.2.eventLog = e.eventLog ++ inner ∧ StageEvents stage out.1 inner
  state : out.2.state = e.state := by rfl
  budget : out.2.costTracker.budget = e.costTracker.budget := by rfl
  checkpoint : out.2.checkpoint = e.checkpoint := by rfl
  costTracker : stage.kind ≠ .agent → out.2.costTracker = e.costTracker := by intro _; rfl
  history : stage.kind ≠ .decision → out.2.decisionHistory = e.decisionHistory := by intro _; rfl

variable {S : Setup σ} {dag : List Int} {idx idx' : Nat} {m : Option String} {e e' : Engine σ}
  {out : StageOutcome σ}

/-- An exception before anything was logged. -/
theorem StageFrame.broke (err : EngineError) (env : σ) :
    StageFrame stage e (.error err, { e with env := env }) :=
  { log := ⟨[], (append_nil _).symm, .broke _ []⟩ }

theorem StageFrame.awaitRunner {ρ : Type} {out : RunOutcome ρ × σ} {text : String}
    {k : ρ → Engine σ → StageOutcome σ} (h : ∀ r env, StageFrame stage e (k r { e' with env := env }))
    (her : ∀ err env, StageFrame stage e (.error err, { e' with env := env })) :
    StageFrame stage e (awaitRunner out text e' k) := by
  unfold Workflow.awaitRunner
  cases out.1 with
  | returned r => exact h r _
  | timedOut | raised => exact her _ _

theorem runActionStage_frame (hki : stage.kind = .action) :
    StageFrame stage e (runActionStage S stage e) := by
  unfold runActionStage
  rcases S.stageRunner with _ | _
  · exact .broke _ e.env
  dsimp only
  split
  · exact .broke _ e.env
  refine .awaitRunner (fun r env => ?_) .broke
  split
  · exact .broke _ env
  · exact { log := ⟨[], (append_nil _).symm, .worked _ [] (.inr hki) rfl⟩ }

theorem CostTracker.checkBudget_budget (t : CostTracker) : t.checkBudget.2.budget = t.budget := by
  unfold checkBudget
  split
  · rfl
  · split <;> rfl

theorem settleAgentRun_frame (r : StageRunResult) (e : Engine σ) (hki : stage.kind = .agent) :
    StageFrame stage e (settleAgentRun S stage r e) := by
  have hch {t : CostTracker} (h : stage.kind ≠ .agent) : t = e.costTracker := absurd hki h
  have hbu := (e.costTracker.add r.costUsd).checkBudget_budget
  unfold settleAgentRun
  split
  · rename_i hck
    rw [hck] at hbu
    exact { StageFrame.broke _ e.env with budget := hbu, costTracker := hch }
  · rename_i warnings tracker hck
    rw [hck] at hbu
    dsimp only
    split
    · exact { log := ⟨_, rfl, .broke _ warnings⟩, budget := hbu, costTracker := hch }
    split
    · exact { log := ⟨_, rfl, .broke _ warnings⟩, budget := hbu, costTracker := hch }
    · exact { log := ⟨_, rfl, .worked _ warnings (.inl hki) rfl⟩
              budget := hbu, costTracker := hch }

theorem runAgentStage_frame (hki : stage.kind = .agent) :
    StageFrame stage e (runAgentStage S stage e) := by
  have h : StageFrame stage { e with costTracker := e.costTracker.resetStage }
      (runAgentStage S stage e) := by
    unfold runAgentStage
    rcases S.stageRunner with _ | _
    · exact .broke _ e.env
    refine .awaitRunner (fun r env => ?_) .broke
    have h := settleAgentRun_frame (S := S) r
      { e with costTracker := e.costTracker.resetStage, env := env } hki
    exact { h with }
  exact { h with costTracker := fun hne => absurd hki hne }

theorem runGateStage_frame (hki : stage.kind = .gate) :
    StageFrame stage e (runGateStage S stage e) := by
  unfold runGateStage
  rcases S.stageRunner with _ | _
  · exact .broke _ e.env
  refine .awaitRunner (fun g env => ?_) fun err env => { log := ⟨_, rfl, .unanswered _ hki⟩ }
  split
  · exact { log := ⟨_, append_assoc _ _ _, .approved _ hki rfl⟩ }
  · exact { log := ⟨_, append_assoc _ _ _, .rejected _ _ hki rfl⟩ }

theorem runDecisionStage_frame (hki : stage.kind = .decision) :
    StageFrame stage e (runDecisionStage S stage e) := by
  unfold runDecisionStage
  rcases S.stageRunner with _ | _
  · exact .broke _ e.env
  refine .awaitRunner (fun d env => ?_) .broke
  dsimp only
  split
  · exact { log := ⟨_, rfl, .exhausted _ _ hki⟩, history := fun hne => absurd hki hne }
  · exact { log := ⟨_, rfl, .decided _ _ hki rfl rfl⟩, history := fun hne => absurd hki hne }

theorem dispatchStage_frame (S : Setup σ) (stage : StageNode) (e : Engine σ) :
    StageFrame stage e (dispatchStage S stage e) := by
  unfold dispatchStage
  cases hki : stage.kind with
  | agent => exact runAgentStage_frame hki
  | gate => exact runGateStage_frame hki
  | decision => exact runDecisionStage_frame hki
  | action => exact runActionStage_frame hki

/-- **Running a stage** marks it running and logs its start, and then what its method logs. -/
structure StageRun (stage : StageNode) (e : Engine σ) (out : StageOutcome σ) : Prop where
  log : ∃ inner, out.2.eventLog =
      e.eventLog ++ .stageStart stage.id stage.name stage.phase :: inner ∧
    StageEvents stage out.1 inner
  state : out.2.state = e.state.markStageRunning stage.id
  budget : out.2.costTracker.budget = e.costTracker.budget
  checkpoint : out.2.checkpoint = e.checkpoint
  costTracker : stage.kind ≠ .agent → out.2.costTracker = e.costTracker
  history : stage.kind ≠ .decision → out.2.decisionHistory = e.decisionHistory

theorem executeStage_run (S : Setup σ) (stage : StageNode) (e : Engine σ) :
    StageRun stage e (executeStage S stage e) := by
  have h := dispatchStage_frame S stage ({ e with state := e.state.markStageRunning stage.id }.emit
      (.stageStart stage.id stage.name stage.phase))
  obtain ⟨inner, hlog, hev⟩ := h.log
  exact { h with log := ⟨inner, hlog.trans (append_assoc _ _ _), hev⟩ }

theorem StageRun.trace (h : StageRun stage e out) :
    trace out.2.eventLog = Workflow.trace e.eventLog ++ [.started stage.id] := by
  obtain ⟨_, hlog, hev⟩ := h.log
  rw [hlog, trace_append]
  exact congrArg (_ ++ .started stage.id :: ·) hev.trace

theorem StageRun.verdicts (h : StageRun stage e out) :
    verdicts out.2.eventLog = Workflow.verdicts e.eventLog ++ outcomeVerdict stage out.1 := by
  obtain ⟨_, hlog, hev⟩ := h.log
  rw [hlog, verdicts_append]
  exact congrArg (_ ++ ·) hev.verdicts

theorem StageRun.result (h : StageRun stage e out) (r : StageResult) (hr : out.1 = .ok r) :
    ResultOf stage r := by
  obtain ⟨_, -, hev⟩ := h.log
  rw [hr] at hev
  exact hev.result

/-! ## §3 Booking a finished stage -/

theorem waitForControl_eq (S : Setup σ) (e : Engine σ) :
    ∃ go env, waitForControl S e = (go, { e with env := env }) := by
  unfold waitForControl
  split
  · exact ⟨true, e.env, rfl⟩
  · exact ⟨_, _, rfl⟩

theorem saveCheckpoint_state (S : Setup σ) (i : Int) (e : Engine σ) :
    (saveCheckpoint S i e).state.completedStages = e.state.completedStages ∧
    (saveCheckpoint S i e).state.stageResults = e.state.stageResults ∧
    (saveCheckpoint S i e).eventLog = e.eventLog := by
  unfold saveCheckpoint
  split
  all_goals exact ⟨rfl, rfl, rfl⟩

theorem completeStage_costTracker (S : Setup σ) (stage : StageNode)
    (r : StageResult) (e : Engine σ) : (completeStage S stage r e).costTracker = e.costTracker := by
  unfold completeStage saveCheckpoint
  split <;> rfl

theorem completeStage_decisionHistory (S : Setup σ) (stage : StageNode) (r : StageResult)
    (e : Engine σ) : (completeStage S stage r e).decisionHistory = e.decisionHistory := by
  unfold completeStage saveCheckpoint
  split <;> rfl

theorem completeStage_completedStages (S : Setup σ) (stage : StageNode) (r : StageResult)
    (e : Engine σ) : (completeStage S stage r e).state.completedStages =
      e.state.completedStages ++ [stage.id] :=
  (saveCheckpoint_state S stage.id _).1

theorem completeStage_stageResults (S : Setup σ) (stage : StageNode) (r : StageResult)
    (e : Engine σ) : (completeStage S stage r e).state.stageResults =
      update e.state.stageResults stage.id (some r) :=
  (saveCheckpoint_state S stage.id _).2.1

theorem completeStage_eventLog (S : Setup σ) (stage : StageNode) (r : StageResult) (e : Engine σ) :
    (completeStage S stage r e).eventLog =
      e.eventLog ++ [.stageComplete stage.id stage.name r.costUsd] := by
  simp only [completeStage, emit]
  rw [(saveCheckpoint_state S stage.id _).2.2]

theorem closeRun_state (m : Option String) (e : Engine σ) : (closeRun m e).state = e.state := by
  unfold closeRun
  split
  · split <;> rfl
  · rfl

theorem closeRun_trace (m : Option String) (e : Engine σ) :
    trace (closeRun m e).eventLog = trace e.eventLog := by
  unfold closeRun
  split
  · split <;> simp [emit, trace, mark]
  · simp [emit, trace, mark]

theorem closeRun_verdicts (m : Option String) (e : Engine σ) :
    verdicts (closeRun m e).eventLog = verdicts e.eventLog := by
  unfold closeRun
  split
  · split <;> simp [emit, verdicts, verdict]
  · simp [emit, verdicts, verdict]

theorem runBatch_spec (S : Setup σ) (batch : List StageNode) (e : Engine σ) :
    (runBatch S batch e).1.map Prod.fst = batch ∧
    (runBatch S batch e).2.state.completedStages = e.state.completedStages ∧
    (runBatch S batch e).2.state.stageResults = e.state.stageResults ∧
    trace (runBatch S batch e).2.eventLog = trace e.eventLog ++ (batch.map (·.id)).map .started ∧
    ∀ p ∈ (runBatch S batch e).1, ∀ r, p.2 = .ok r → ResultOf p.1 r := by
  induction batch generalizing e with
  | nil => simp [runBatch]
  | cons stage _ ih =>
    have hrun := executeStage_run S stage e
    obtain ⟨hfst, hco, hre, htr, hof⟩ := ih (executeStage S stage e).2
    refine ⟨?_, ?_, ?_, ?_, ?_⟩
    · simp [runBatch, hfst]
    · rw [runBatch, hco, hrun.state]
      rfl
    · rw [runBatch, hre, hrun.state]
      rfl
    · rw [runBatch, htr, hrun.trace]
      simp
    intro p hp
    rcases mem_cons.mp hp with rfl | hp
    · exact hrun.result
    · exact hof p hp

theorem checkBudget_totalUsd (t : CostTracker) : t.checkBudget.2.totalUsd = t.totalUsd := by
  unfold CostTracker.checkBudget
  split
  · rfl
  · split <;> rfl

/-- What charging a stage of a batch changes. -/
structure Charged (amount : ℚ) (e e' : Engine σ) : Prop where
  state : e'.state = e.state
  decisionHistory : e'.decisionHistory = e.decisionHistory
  checkpoint : e'.checkpoint = e.checkpoint
  log : ∃ warnings : List String, e'.eventLog = e.eventLog ++ warnings.map .costWarning
  totalUsd : e'.costTracker.totalUsd = e.costTracker.totalUsd + amount

theorem Charged.trace_eq {amount : ℚ} (h : Charged amount e e') :
    trace e'.eventLog = trace e.eventLog := by
  obtain ⟨_, hlog⟩ := h.log
  rw [hlog, trace_append, trace_costWarnings, append_nil]

theorem charged_chargeBatchStage (r : StageResult) (e : Engine σ) :
    Charged r.costUsd e (chargeBatchStage r e).2 := by
  have hck := checkBudget_totalUsd (e.costTracker.resetStage.add r.costUsd)
  dsimp only [chargeBatchStage]
  split
  · exact ⟨rfl, rfl, rfl, ⟨[], (append_nil _).symm⟩, hck⟩
  · exact ⟨rfl, rfl, rfl, ⟨_, rfl⟩, hck⟩

/-- The batch scheduler only gets ACTION stages. -/
theorem schedulesParallel_action {start : Nat} {s : WorkflowState}
    (h : schedulesParallel S dag start s = true) (hst : stage ∈ S.workflow.stages)
    (hah : stage.id ∈ dag.drop start) (hop : stage.id ∉ s.completedStages) :
    stage.kind = .action := by
  rw [schedulesParallel, Bool.and_eq_true, all_eq_true] at h
  have hac := h.2 stage.id (mem_filter.mpr ⟨hah, decide_eq_true hop⟩)
  rw [isActionStage, S.workflow.getStage_of_mem hst] at hac
  exact of_decide_eq_true hac

/-! ## §4 Inversion of a pass -/

/-- The index after a finished stage that was not rejected. -/
def nextIndex (dagOrder : List Int) (idx : Nat) (stage : StageNode) (r : StageResult) : Nat :=
  if stage.kind = .decision then
    (r.decisionNextStage.bind dagOrder.idxOf?).getD (idx + 1)
  else idx + 1

/-- A gate rejection that the loop accepts because of `on_error = skip`. -/
def AcceptsRejection (stage : StageNode) (r : StageResult) : Prop :=
  stage.kind = .gate ∧ r.status = .gateRejected ∧ stage.onError = .skip ∧
    stage.gateRollbackTo = none

/-- The pass at `idx` gets as far as running the stage there. -/
structure Started (S : Setup σ) (dagOrder : List Int) (idx : Nat) (e : Engine σ)
    (stage : StageNode) (out : StageOutcome σ) : Prop where
  at_index : dagOrder[idx]? = some stage.id
  found : S.workflow.getStage stage.id = some stage
  go : (waitForControl S e).1 = true
  ready : dependenciesSatisfied e.state stage = true
  settled : executeStage S stage (waitForControl S e).2 = out

theorem Started.ran (h : Started S dag idx e stage out) :
    ∃ env, executeStage S stage { e with env := env } = out := by
  obtain ⟨_, env, hctl⟩ := waitForControl_eq S e
  refine ⟨env, ?_⟩
  rw [← h.settled, hctl]

/-- A rejection that sends the loop back. -/
def TurnsBack (stage : StageNode) (r : StageResult) : Prop :=
  stage.kind = .gate ∧ r.status = .gateRejected ∧
    (stage.onError = .rollback ∨ stage.gateRollbackTo.isSome)

instance (stage : StageNode) (r : StageResult) : Decidable (TurnsBack stage r) :=
  inferInstanceAs (Decidable (_ ∧ _))

/-- The errors that mark the stage as failed. -/
def EngineError.ofStage : EngineError → Bool
  | .stageTimeout _ | .stageFailure _ => true
  | _ => false

/-- What a pass comes to, rejections and failures included. -/
inductive Pass (S : Setup σ) (dagOrder : List Int) (idx : Nat) (m : Option String)
    (e : Engine σ) : LoopStep σ → Prop where
  | ended (h : dagOrder[idx]? = none) : Pass S dagOrder idx m e (.stop m e)
  | cancelled (i : Int) (env : σ) (hi : dagOrder[idx]? = some i) :
      Pass S dagOrder idx m e (.stop (some "workflow run cancelled") { e with env := env })
  | absent (i : Int) (env : σ) (hi : dagOrder[idx]? = some i)
      (hstage : S.workflow.getStage i = none) :
      Pass S dagOrder idx m e (.next (idx + 1) m { e with env := env })
  | skipped (stage : StageNode) (env : σ) (hi : dagOrder[idx]? = some stage.id)
      (hstage : S.workflow.getStage stage.id = some stage)
      (hdeps : dependenciesSatisfied e.state stage = false) :
      Pass S dagOrder idx m e (.next (idx + 1) m (skipStage stage { e with env := env }))
  | completed (stage : StageNode) (r : StageResult) (e' : Engine σ)
      (h : Started S dagOrder idx e stage (.ok r, e'))
      (hok : ¬ (stage.kind = .gate ∧ r.status = .gateRejected)) :
      Pass S dagOrder idx m e
        (.next (nextIndex dagOrder idx stage r) m (completeStage S stage r e'))
  | accepted (stage : StageNode) (r : StageResult) (e' : Engine σ)
      (h : Started S dagOrder idx e stage (.ok r, e')) (haccept : AcceptsRejection stage r) :
      Pass S dagOrder idx m e
        (.next (idx + 1) m (acceptRejection stage r (completeStage S stage r e')))
  | turnedBack (stage : StageNode) (r : StageResult) (e' : Engine σ)
      (h : Started S dagOrder idx e stage (.ok r, e')) (hback : TurnsBack stage r) :
      Pass S dagOrder idx m e
        (.next (handleGateRejection S dagOrder stage r (completeStage S stage r e')).1
          (some (rejectionText stage r))
          (handleGateRejection S dagOrder stage r (completeStage S stage r e')).2)
  | refused (stage : StageNode) (r : StageResult) (e' : Engine σ)
      (h : Started S dagOrder idx e stage (.ok r, e')) (hkind : stage.kind = .gate)
      (hstatus : r.status = .gateRejected) :
      Pass S dagOrder idx m e (.stop (some (rejectionText stage r)) (completeStage S stage r e'))
  | broke (stage : StageNode) (err : EngineError) (e' : Engine σ)
      (h : Started S dagOrder idx e stage (.error err, e')) (herr : err.ofStage = true)
      (hfail : stage.onError = .fail) :
      Pass S dagOrder idx m e (.stop (some err.message) (failStage stage err.message e'))
  | passedOver (stage : StageNode) (err : EngineError) (e' : Engine σ)
      (h : Started S dagOrder idx e stage (.error err, e')) (herr : err.ofStage = true)
      (hfail : stage.onError ≠ .fail)
      (hstay : ∀ text, err = .stageFailure text → stage.onError ≠ .rollback) :
      Pass S dagOrder idx m e (.next (idx + 1) (some err.message) (failStage stage err.message e'))
  | rolledBack (stage : StageNode) (text : String) (e' : Engine σ)
      (h : Started S dagOrder idx e stage (.error (.stageFailure text), e'))
      (hback : stage.onError = .rollback) :
      Pass S dagOrder idx m e
        (.next (rollbackToStage S dagOrder stage (failStage stage text e')).1 (some text)
          (rollbackToStage S dagOrder stage (failStage stage text e')).2)
  | aborted (stage : StageNode) (err : EngineError) (e' : Engine σ)
      (h : Started S dagOrder idx e stage (.error err, e')) :
      Pass S dagOrder idx m e
        (.stop (some err.message) (e'.emit (.workflowError err.message (some stage.id))))
  | raised (stage : StageNode) (err : EngineError) (e' : Engine σ)
      (h : Started S dagOrder idx e stage (.error err, e')) :
      Pass S dagOrder idx m e (.raise err e')

theorem Pass.of_settleResult (h : Started S dag idx e stage (.ok r, e')) :
    Pass S dag idx m e (settleResult S dag idx m stage r e') := by
  unfold settleResult
  split
  · rename_i hrej
    split
    · rename_i hba
      exact .turnedBack stage r e' h ⟨hrej.1, hrej.2, hba⟩
    rename_i hba
    split
    · rename_i hsk
      refine .accepted stage r e' h ⟨hrej.1, hrej.2, hsk, ?_⟩
      rw [not_or] at hba
      simpa using hba.2
    · exact .refused stage r e' h hrej.1 hrej.2
  · rename_i hok
    have hpa := completed (m := m) stage r e' h hok
    split
    · rename_i hdec
      rwa [nextIndex, if_pos hdec] at hpa
    · rename_i hdec
      rwa [nextIndex, if_neg hdec] at hpa

theorem Pass.of_settleError {err : EngineError} (h : Started S dag idx e stage (.error err, e')) :
    Pass S dag idx m e (settleError S dag idx stage err e') := by
  unfold settleError
  cases err with
  | stageTimeout =>
    dsimp only
    split
    · rename_i hfa
      exact .broke stage _ e' h rfl hfa
    · rename_i hfa
      exact .passedOver stage _ e' h rfl hfa (nofun)
  | stageFailure text =>
    dsimp only
    split
    · rename_i hfa
      exact .broke stage _ e' h rfl hfa
    rename_i hfa
    split
    · rename_i hba
      exact .rolledBack stage text e' h hba
    · rename_i hst
      exact .passedOver stage _ e' h rfl hfa (fun _ _ => hst)
  | costExceeded | workflow => exact .aborted stage _ e' h
  | foreign => exact .raised stage _ e' h

/-- **Inversion of a pass.** -/
theorem Pass.of_loopStep (S : Setup σ) (dag : List Int) (idx : Nat) (m : Option String)
    (e : Engine σ) : Pass S dag idx m e (loopStep S dag idx m e) := by
  unfold loopStep
  split
  · rename_i hend
    exact .ended hend
  rename_i i hi
  obtain ⟨_, env, hctl⟩ := waitForControl_eq S e
  rw [hctl]
  dsimp only
  split
  · exact .cancelled i env hi
  rename_i hnot
  have hgo : (waitForControl S e).1 = true := by
    rw [hctl]
    simpa using hnot
  split
  · rename_i hst
    exact .absent i env hi hst
  rename_i stage hst
  obtain ⟨-, rfl⟩ := S.workflow.getStage_some hst
  unfold visitStage
  split
  · rename_i hde
    exact .skipped stage env hi hst (by simpa using hde)
  rename_i hde
  have hre : dependenciesSatisfied e.state stage = true := by simpa using hde
  dsimp only
  split
  · rename_i r hr
    exact .of_settleResult ⟨hi, hst, hgo, hre, by rw [hctl]; exact Prod.ext hr rfl⟩
  · rename_i err herr
    exact .of_settleError ⟨hi, hst, hgo, hre, by rw [hctl]; exact Prod.ext herr rfl⟩

theorem Pass.of_next {m' : Option String} (h : loopStep S dag idx m e = .next idx' m' e') :
    Pass S dag idx m e (.next idx' m' e') := h ▸ .of_loopStep S dag idx m e

/-! ## §5 Passes of a successful run -/

/-- A pass that keeps the error flag unset, by what it did. -/
inductive CleanPass (S : Setup σ) (dagOrder : List Int) (idx : Nat) (e : Engine σ) :
    Nat → Engine σ → Prop where
  | absent (i : Int) (env : σ) (hi : dagOrder[idx]? = some i)
      (hstage : S.workflow.getStage i = none) :
      CleanPass S dagOrder idx e (idx + 1) { e with env := env }
  | skipped (i : Int) (env : σ) (stage : StageNode) (hi : dagOrder[idx]? = some i)
      (hstage : S.workflow.getStage i = some stage)
      (hdeps : dependenciesSatisfied e.state stage = false) :
      CleanPass S dagOrder idx e (idx + 1) (skipStage stage { e with env := env })
  | ran (i : Int) (env : σ) (stage : StageNode) (r : StageResult) (e' : Engine σ)
      (hi : dagOrder[idx]? = some i)
      (hstage : S.workflow.getStage i = some stage)
      (hdeps : dependenciesSatisfied e.state stage = true)
      (hrun : executeStage S stage { e with env := env } = (.ok r, e'))
      (hok : ¬ (stage.kind = .gate ∧ r.status = .gateRejected)) :
      CleanPass S dagOrder idx e (nextIndex dagOrder idx stage r) (completeStage S stage r e')
  | accepted (i : Int) (env : σ) (stage : StageNode) (r : StageResult) (e' : Engine σ)
      (hi : dagOrder[idx]? = some i)
      (hstage : S.workflow.getStage i = some stage)
      (hdeps : dependenciesSatisfied e.state stage = true)
      (hrun : executeStage S stage { e with env := env } = (.ok r, e'))
      (haccept : AcceptsRejection stage r) :
      CleanPass S dagOrder idx e (idx + 1) (acceptRejection stage r (completeStage S stage r e'))

/-- The flag of a step that goes on or stops. -/
def LoopStep.flag : LoopStep σ → Option (Option String)
  | .next _ m _ | .stop m _ => some m
  | .raise _ _ => none

/-- The flag is sticky: a pass never clears it. -/
theorem Pass.flag_sticky {m : String} {step : LoopStep σ} (h : Pass S dag idx (some m) e step) :
    step.flag ≠ some none := by
  cases h <;> simp [LoopStep.flag]

/-- **Inversion of a clean pass.** -/
theorem CleanPass.of_loopStep (h : loopStep S dag idx none e = .next idx' none e') :
    CleanPass S dag idx e idx' e' := by
  cases Pass.of_next h with
  | absent i env hi hsg => exact .absent i env hi hsg
  | skipped stage env hi hsg hde => exact .skipped stage.id env stage hi hsg hde
  | completed stage r e₁ hst hok =>
    obtain ⟨env, hrun⟩ := hst.ran
    exact .ran stage.id env stage r e₁ hst.at_index hst.found hst.ready hrun hok
  | accepted stage r e₁ hst hac =>
    obtain ⟨env, hrun⟩ := hst.ran
    exact .accepted stage.id env stage r e₁ hst.at_index hst.found hst.ready hrun hac

theorem CleanPass.lt_length (h : CleanPass S dag idx e idx' e') : idx < dag.length := by
  cases h <;> exact (getElem?_eq_some_iff.mp ‹dag[idx]? = some _›).1

/-- What a clean pass does to the state and the trace: nothing, or it books the
stage at the index. -/
theorem CleanPass.effect (h : CleanPass S dag idx e idx' e') :
    (idx' = idx + 1 ∧ e'.state.completedStages = e.state.completedStages ∧
      e'.state.stageResults = e.state.stageResults ∧ trace e'.eventLog = trace e.eventLog ∧
      e'.costTracker.budget = e.costTracker.budget ∧ e'.checkpoint = e.checkpoint ∧
      ∀ i stage, dag[idx]? = some i → S.workflow.getStage i = some stage →
        dependenciesSatisfied e.state stage = false) ∨
    ∃ i stage r, dag[idx]? = some i ∧ S.workflow.getStage i = some stage ∧
      dependenciesSatisfied e.state stage = true ∧ (stage.kind ≠ .decision → idx' = idx + 1) ∧
      e'.state.completedStages = e.state.completedStages ++ [i] ∧
      e'.state.stageResults = update e.state.stageResults i (some r) ∧
      trace e'.eventLog = trace e.eventLog ++ ([.started i] ++ [.finished i]) ∧
      e'.costTracker.budget = e.costTracker.budget ∧
      (r.status = .completed ∨ r.status = .gateApproved) := by
  cases h with
  | absent _ _ hi hst =>
    refine .inl ⟨rfl, rfl, rfl, rfl, rfl, rfl, ?_⟩
    intro j _ hj hs
    rw [hi] at hj
    cases hj
    rw [hst] at hs
    cases hs
  | skipped _ _ _ hi hst hde =>
    refine .inl ⟨rfl, rfl, rfl, ?_, rfl, rfl, ?_⟩
    · simp [skipStage, emit, trace, mark]
    intro j _ hj hs
    rw [hi] at hj
    cases hj
    rw [hst] at hs
    cases hs
    exact hde
  | ran _ env stage r _ hi hst hde hrun hok =>
    obtain ⟨-, rfl⟩ := S.workflow.getStage_some hst
    have hsp := executeStage_run S stage { e with env := env }
    rw [hrun] at hsp
    refine .inr ⟨stage.id, stage, r, hi, hst, hde, ?_, ?_, ?_, ?_, ?_, ?_⟩
    · intro hki
      rw [nextIndex, if_neg hki]
    · rw [completeStage_completedStages, hsp.state]
      rfl
    · rw [completeStage_stageResults, hsp.state]
      rfl
    · rw [completeStage_eventLog, trace_append, hsp.trace, append_assoc]
      rfl
    · rw [completeStage_costTracker]
      exact hsp.budget
    · by_cases hg : stage.kind = .gate
      · exact .inr (((hsp.result r rfl).gate hg).resolve_right fun hrej => hok ⟨hg, hrej⟩)
      · exact .inl ((hsp.result r rfl).other hg)
  | accepted _ env stage r e₁ hi hst hde hrun =>
    obtain ⟨-, rfl⟩ := S.workflow.getStage_some hst
    have hsp := executeStage_run S stage { e with env := env }
    rw [hrun] at hsp
    refine .inr ⟨stage.id, stage, { r with status := .completed }, hi, hst, hde,
      fun _ => rfl, ?_, ?_, ?_, ?_, .inl rfl⟩
    · show (completeStage S stage r e₁).state.completedStages = _
      rw [completeStage_completedStages, hsp.state]
      rfl
    · show update (completeStage S stage r e₁).state.stageResults _ _ = _
      rw [completeStage_stageResults, hsp.state, update_idem]
      rfl
    · show trace (completeStage S stage r e₁).eventLog = _
      rw [completeStage_eventLog, trace_append, hsp.trace, append_assoc]
      rfl
    · show (completeStage S stage r e₁).costTracker.budget = _
      rw [completeStage_costTracker]
      exact hsp.budget

/-- A clean stop is the end of the order. -/
theorem loopStep_stop_none (h : loopStep S dag idx m e = .stop none e') :
    dag.length ≤ idx ∧ m = none ∧ e' = e := by
  have hpa := Pass.of_loopStep S dag idx m e
  rw [h] at hpa
  cases hpa with
  | ended hend => exact ⟨getElem?_eq_none_iff.mp hend, rfl, rfl⟩

theorem runLoop_flag_sticky (S : Setup σ) (dag : List Int) (fuel idx : Nat) (m : String)
    (e e' : Engine σ) : runLoop S dag fuel idx (some m) e ≠ some (.ok none, e') := by
  induction fuel generalizing idx m e with
  | zero => simp [runLoop]
  | succ _ ih =>
    have hfl := (Pass.of_loopStep S dag idx (some m) e).flag_sticky
    rw [runLoop]
    cases hst : loopStep S dag idx (some m) e with
    | next idx' m' e₁ =>
      cases m' with
      | none => rw [hst] at hfl; exact absurd rfl hfl
      | some m' => exact ih idx' m' e₁
    | stop m' =>
      cases m' with
      | none => rw [hst] at hfl; exact absurd rfl hfl
      | some => simp
    | raise => simp

variable {fuel : Nat}

/-- A run that ends without an error is at the end of the order, or goes on after its first pass. -/
theorem runLoop_clean (h : runLoop S dag fuel idx none e = some (.ok none, e')) :
    (dag.length ≤ idx ∧ e' = e) ∨ ∃ rest idx₁ e₁, fuel = rest + 1 ∧
      loopStep S dag idx none e = .next idx₁ none e₁ ∧
      runLoop S dag rest idx₁ none e₁ = some (.ok none, e') := by
  rcases fuel with _ | rest
  · cases h
  rw [runLoop] at h
  cases hs : loopStep S dag idx none e with
  | next idx₁ m e₁ =>
    rw [hs] at h
    cases m with
    | none => exact .inr ⟨rest, idx₁, e₁, rfl, rfl, h⟩
    | some m => exact absurd h (runLoop_flag_sticky S dag rest idx₁ m e₁ e')
  | stop =>
    rw [hs] at h
    cases h
    obtain ⟨hlen, -, rfl⟩ := loopStep_stop_none hs
    exact .inl ⟨hlen, rfl⟩
  | raise =>
    rw [hs] at h
    cases h

/-- **Invariant rule for successful runs.** A property that every clean pass
preserves holds at the end of a run that ends without an error. -/
theorem runLoop_success_induct (I : Nat → Engine σ → Prop)
    (hst : ∀ idx e idx' e', I idx e → CleanPass S dag idx e idx' e' → I idx' e')
    (hI : I idx e) (h : runLoop S dag fuel idx none e = some (.ok none, e')) :
    ∃ idx', dag.length ≤ idx' ∧ I idx' e' := by
  induction fuel generalizing idx e with
  | zero => cases h
  | succ _ ih =>
    rcases runLoop_clean h with ⟨hlen, rfl⟩ | ⟨rest, idx₁, e₁, ⟨⟩, hs, hre⟩
    · exact ⟨idx, hlen, hI⟩
    · exact ih (hst _ _ _ _ hI (.of_loopStep hs)) hre

end Orchestratord.Workflow
