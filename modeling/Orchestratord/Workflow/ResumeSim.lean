import Orchestratord.Workflow.Resume

/-!
# Lockstep of an uninterrupted and a resumed run

Under a deterministic runner, a run restored from a checkpoint answers like the
run that wrote it, as long as both visit the same stages. `Sim` relates the two
engines: same completed stages, same stored payloads, same decision history, and
a spent total that differs by a constant, because the checkpoint counts ACTION
costs and the live tracker does not. Statuses agree except at gates that the
checkpoint stores as rejected.
-/

namespace Orchestratord.Workflow

open Function Orchestrator

/-! ## §1 Deterministic runners -/

/-- What a runner may read of a result: all that a checkpoint keeps but the
status. -/
def StageResult.payload (r : StageResult) :
    List String × List (String × String) × Option String × ℚ :=
  (r.outputs, r.artifacts, r.error, r.costUsd)

structure View where
  completed : List Int
  payload : Int → Option (List String × List (String × String) × Option String × ℚ)

variable (s : WorkflowState)

def WorkflowState.view : View where
  completed := s.completedStages
  payload := fun i => (s.stageResults i).map StageResult.payload

/-- A runner whose answers are a function of the stage and of that view. -/
structure Answers where
  run : StageNode → View → RunOutcome StageRunResult
  runAction : StageNode → View → RunOutcome StageRunResult
  runGate : StageNode → View → RunOutcome GateResult
  runDecision : StageNode → View → RunOutcome DecisionRunResult
  validateAll : List String → List ValidationResult

def Answers.orchestrator (A : Answers) (w : WorkflowSchema) (costBudgetUsd : ℚ) :
    Orchestrator Unit where
  workflow := w
  costBudgetUsd := costBudgetUsd
  stageRunner :=
    { run := fun stage s env => (A.run stage s.view, env)
      runAction := fun stage s env => (A.runAction stage s.view, env)
      runGate := fun stage s env => (A.runGate stage s.view, env)
      runDecision := fun stage s env => (A.runDecision stage s.view, env) }
  validateAll := fun vs env => (A.validateAll vs, env)
  restoreSnapshot := fun _ env => (true, env)
  writeCheckpoint := fun env => (true, env)

abbrev Answers.setup (A : Answers) (w : WorkflowSchema) (costBudgetUsd : ℚ) : Setup Unit :=
  (A.orchestrator w costBudgetUsd).setup

/-! ## §2 Budget checks -/

namespace CostTracker

variable {t : CostTracker}

theorem checkBudget_ok {t' : CostTracker} {ws : List String} (h : t.checkBudget = (.ok ws, t')) :
    t.totalUsd ≤ t.budget.maxTotalUsd ∧ t.stageUsd ≤ t.budget.maxPerStageUsd ∧
      t'.totalUsd = t.totalUsd ∧ t'.budget = t.budget := by
  unfold checkBudget at h
  split at h
  · cases h
  rename_i hto
  split at h
  · cases h
  · rename_i hst
    cases h
    exact ⟨not_lt.mp hto, not_lt.mp hst, rfl, rfl⟩

theorem checkBudget_of_le (hto : t.totalUsd ≤ t.budget.maxTotalUsd)
    (hst : t.stageUsd ≤ t.budget.maxPerStageUsd) :
    ∃ ws t', t.checkBudget = (.ok ws, t') ∧ t'.totalUsd = t.totalUsd ∧ t'.budget = t.budget := by
  unfold checkBudget
  rw [if_neg (not_lt.mpr hto)]
  rw [if_neg (not_lt.mpr hst)]
  exact ⟨_, _, rfl, rfl, rfl⟩

theorem checkBudget_exceeds (h : t.budget.maxTotalUsd < t.totalUsd) :
    ∃ m, t.checkBudget = (.error m, t) := by
  unfold checkBudget
  rw [if_pos h]
  exact ⟨_, rfl⟩

end CostTracker

/-! ## §3 The relation -/

def statusOf (i : Int) : Option StageStatus := (s.stageResults i).map (·.status)

/-- The resumed engine `er` follows the uninterrupted engine `e`: `δ` is the
difference of their totals, `G` the gates stored as rejected, `T` the part of
the trace before the checkpoint. -/
structure Sim (δ : ℚ) (G : Int → Prop) (T : List Mark) (e er : Engine Unit) : Prop where
  view : er.state.view = e.state.view
  status : ∀ i, ¬ G i → statusOf er.state i = statusOf e.state i
  weaker : ∀ i, dependencySatisfied er.state i = true → dependencySatisfied e.state i = true
  history : er.decisionHistory = e.decisionHistory
  total : er.costTracker.totalUsd = e.costTracker.totalUsd + δ
  budget : er.costTracker.budget = e.costTracker.budget
  trace : Workflow.trace e.eventLog = T ++ Workflow.trace er.eventLog

/-- Results that book the same way. -/
structure SameResult (r r' : StageResult) : Prop where
  payload : r'.payload = r.payload
  status : r'.status = r.status
  next : r'.decisionNextStage = r.decisionNextStage

section Lockstep

variable {A : Answers} {w : WorkflowSchema} {usd δ : ℚ} {G : Int → Prop} {T : List Mark}
  {e er : Engine Unit}

theorem dependencySatisfied_eq (i : Int) : dependencySatisfied s i =
      (decide (i ∈ s.completedStages) &&
        (statusOf s i = some .completed || statusOf s i = some .gateApproved)) := by
  unfold dependencySatisfied statusOf WorkflowState.getStageResult
  cases s.stageResults i <;> simp

variable (h : Sim δ G T e er)

include h

theorem Sim.completed : er.state.completedStages = e.state.completedStages :=
  congrArg View.completed h.view

theorem Sim.isSome_result (i : Int) :
    (er.state.stageResults i).isSome = (e.state.stageResults i).isSome := by
  have hpay := congrFun (congrArg View.payload h.view) i
  have hso := congrArg Option.isSome hpay
  simpa [WorkflowState.view] using hso

variable {S : Setup Unit} {dag : List Int} {idx idx' : Nat} {e' e₁ : Engine Unit}
  {stage : StageNode} {r : StageResult} {i : Int}

theorem Sim.dependenciesSatisfied (hG : ∀ d ∈ stage.dependsOn, ¬ G d) :
    dependenciesSatisfied er.state stage = dependenciesSatisfied e.state stage := by
  unfold Workflow.dependenciesSatisfied
  rw [Bool.eq_iff_iff, List.all_eq_true, List.all_eq_true]
  refine forall₂_congr fun d hd => ?_
  rw [dependencySatisfied_eq, dependencySatisfied_eq, h.completed, h.status d (hG d hd)]

theorem Sim.dependencies_weaker (hsat : Workflow.dependenciesSatisfied e.state stage = false) :
    Workflow.dependenciesSatisfied er.state stage = false := by
  rw [← Bool.not_eq_true] at hsat ⊢
  intro hr
  apply hsat
  unfold Workflow.dependenciesSatisfied at hr ⊢
  rw [List.all_eq_true] at hr ⊢
  exact fun d hd => h.weaker d (hr d hd)

/-- Events without marks on both sides keep the relation. -/
theorem Sim.logged (l l' : List Event) (hl : Workflow.trace l' = Workflow.trace l) :
    Sim δ G T { e with eventLog := e.eventLog ++ l } { er with eventLog := er.eventLog ++ l' } := by
  refine { h with trace := ?_ }
  rw [trace_append, trace_append, hl, h.trace, List.append_assoc]

theorem Sim.running (stage : StageNode) : Sim δ G T
      ({ e with state := e.state.markStageRunning stage.id }.emit
        (.stageStart stage.id stage.name stage.phase))
      ({ er with state := er.state.markStageRunning stage.id }.emit
        (.stageStart stage.id stage.name stage.phase)) := by
  have hma : Sim δ G T { e with state := e.state.markStageRunning stage.id }
      { er with state := er.state.markStageRunning stage.id } :=
    { h with }
  exact hma.logged _ _ rfl

/-! ## §4 One stage -/

theorem runActionStage_sim (hrun : runActionStage (A.setup w usd) stage e = (.ok r, e₁)) :
    ∃ r' er₁, runActionStage (A.setup w usd) stage er = (.ok r', er₁) ∧
      SameResult r r' ∧ Sim δ G T e₁ er₁ := by
  simp only [runActionStage, setup, Answers.orchestrator, awaitRunner] at hrun ⊢
  rw [h.view]
  split at hrun
  · cases hrun
  rename_i hus
  rw [if_neg hus]
  cases hout : A.runAction stage e.state.view with
  | timedOut | raised => rw [hout] at hrun; cases hrun
  | returned =>
    rw [hout] at hrun
    dsimp only at hrun ⊢
    split at hrun
    · cases hrun
    rename_i hsu
    cases hrun
    rw [if_neg hsu]
    exact ⟨_, _, rfl, ⟨rfl, rfl, rfl⟩,
      { h with }⟩

theorem runGateStage_sim (hrun : runGateStage (A.setup w usd) stage e = (.ok r, e₁)) :
    ∃ r' er₁, runGateStage (A.setup w usd) stage er = (.ok r', er₁) ∧
      SameResult r r' ∧ Sim δ G T e₁ er₁ := by
  have hlog := h.logged [.gateRequest stage.id stage.name stage.gateMode]
    [.gateRequest stage.id stage.name stage.gateMode] rfl
  simp only [runGateStage, setup, Answers.orchestrator, awaitRunner, Engine.emit] at hrun ⊢
  rw [h.view]
  cases hout : A.runGate stage e.state.view with
  | timedOut | raised => rw [hout] at hrun; cases hrun
  | returned =>
    rw [hout] at hrun
    dsimp only at hrun ⊢
    split at hrun
    · rename_i happ
      cases hrun
      rw [if_pos happ]
      exact ⟨_, _, rfl, ⟨rfl, rfl, rfl⟩, hlog.logged _ _ rfl⟩
    · rename_i happ
      cases hrun
      rw [if_neg happ]
      exact ⟨_, _, rfl, ⟨rfl, rfl, rfl⟩, hlog.logged _ _ rfl⟩

theorem runDecisionStage_sim (hrun : runDecisionStage (A.setup w usd) stage e = (.ok r, e₁)) :
    ∃ r' er₁, runDecisionStage (A.setup w usd) stage er = (.ok r', er₁) ∧
      SameResult r r' ∧ Sim δ G T e₁ er₁ := by
  simp only [runDecisionStage, setup, Answers.orchestrator, awaitRunner] at hrun ⊢
  rw [h.view, h.history]
  cases hout : A.runDecision stage e.state.view with
  | timedOut | raised => rw [hout] at hrun; cases hrun
  | returned d =>
    rw [hout] at hrun
    dsimp only at hrun ⊢
    split at hrun
    · cases hrun
    rename_i hgo
    cases hrun
    rw [if_neg hgo]
    refine ⟨_, _, rfl, ⟨rfl, rfl, rfl⟩, ?_⟩
    have hre : Sim δ G T
        { e with decisionHistory := (resolveDecision e.decisionHistory stage d.outcome).2 }
        { er with decisionHistory :=
          (resolveDecision e.decisionHistory stage d.outcome).2 } :=
      { h with history := rfl }
    exact hre.logged _ _ rfl

omit h in
/-- An agent run that went through, with its budget check. -/
theorem settleAgentRun_ok {rr : StageRunResult} : settleAgentRun S stage rr e = (.ok r, e₁) ↔
    ∃ ws t, (e.costTracker.add rr.costUsd).checkBudget = (.ok ws, t) ∧
      rr.success = true ∧ (validationErrors S stage e.env).1 = [] ∧
      r = { stageId := stage.id, status := .completed, outputs := rr.outputs
            artifacts := rr.artifacts, costUsd := rr.costUsd, runId := rr.runId
            conversationId := e.state.conversationId } ∧
      e₁ = { e with costTracker := t, eventLog := e.eventLog ++ ws.map .costWarning } := by
  unfold settleAgentRun
  constructor
  · intro hrun
    split at hrun
    · cases hrun
    rename_i ws t hch
    dsimp only at hrun
    split at hrun
    · cases hrun
    rename_i hsu
    split at hrun
    · cases hrun
    · rename_i hval
      cases hrun
      exact ⟨ws, t, hch, by simpa using hsu, not_not.mp hval, rfl, rfl⟩
  · rintro ⟨_, t, hch, hsu, hval, rfl, rfl⟩
    rw [hch]
    dsimp only
    rw [if_neg (by simp [hsu]), if_neg (by simpa [Engine.emitAll] using hval)]
    rfl

/-- The resumed agent stage passes its budget check exactly when the shifted
total stays within the budget. -/
theorem runAgentStage_sim (hrun : runAgentStage (A.setup w usd) stage e = (.ok r, e₁)) :
    (e₁.costTracker.totalUsd + δ ≤ e.costTracker.budget.maxTotalUsd →
      ∃ r' er₁, runAgentStage (A.setup w usd) stage er = (.ok r', er₁) ∧
        SameResult r r' ∧ Sim δ G T e₁ er₁) ∧
    (e.costTracker.budget.maxTotalUsd < e₁.costTracker.totalUsd + δ →
      ∃ m er₁, runAgentStage (A.setup w usd) stage er = (.error (.costExceeded m), er₁)) := by
  have hrun' : awaitRunner (A.run stage e.state.view, e.env)
      (timeoutText "Stage" stage (effectiveTimeout (A.setup w usd) stage))
      { e with costTracker := e.costTracker.resetStage }
      (settleAgentRun (A.setup w usd) stage) = (.ok r, e₁) := hrun
  have hre : runAgentStage (A.setup w usd) stage er =
      awaitRunner (A.run stage e.state.view, er.env) (timeoutText "Stage" stage
          (effectiveTimeout (A.setup w usd) stage))
        { er with costTracker := er.costTracker.resetStage }
        (settleAgentRun (A.setup w usd) stage) := by
    rw [← h.view]
    rfl
  rw [hre]
  unfold awaitRunner at ⊢
  cases hout : A.run stage e.state.view with
  | timedOut | raised => rw [hout] at hrun'; cases hrun'
  | returned rr =>
    rw [hout] at hrun'
    dsimp only at hrun' ⊢
    obtain ⟨_, t, hck, hsu, hval, rfl, rfl⟩ := settleAgentRun_ok.mp hrun'
    obtain ⟨-, hst, hto, hbu⟩ := CostTracker.checkBudget_ok hck
    have hto' : t.totalUsd = e.costTracker.totalUsd + rr.costUsd := hto
    have hbu' : t.budget = e.costTracker.budget := hbu
    have hsum : (er.costTracker.resetStage.add rr.costUsd).totalUsd = t.totalUsd + δ := by
      show er.costTracker.totalUsd + rr.costUsd = _
      rw [h.total, hto', add_right_comm]
    constructor
    · intro hle
      obtain ⟨_, t', hch', htot', hbud'⟩ :=
        CostTracker.checkBudget_of_le (by
            rw [hsum]
            show _ ≤ er.costTracker.budget.maxTotalUsd
            rw [h.budget]
            exact hle)
          (by
            show (0 : ℚ) + rr.costUsd ≤ er.costTracker.budget.maxPerStageUsd
            rw [h.budget]
            exact hst)
      have hset : settleAgentRun (A.setup w usd) stage rr
          { er with costTracker := er.costTracker.resetStage } = _ :=
        settleAgentRun_ok.mpr ⟨_, _, hch', hsu, hval, rfl, rfl⟩
      refine ⟨_, _, hset, ⟨rfl, rfl, rfl⟩, ?_⟩
      have hch : Sim δ G T { e with costTracker := t }
          { er with costTracker := t' } := by
        refine { h with total := ?_, budget := ?_ }
        · rw [htot', hsum]
        · rw [hbud', hbu']
          exact h.budget
      refine hch.logged _ _ ?_
      rw [trace_costWarnings, trace_costWarnings]
    · intro hlt
      have hov : (er.costTracker.resetStage.add rr.costUsd).budget.maxTotalUsd <
          (er.costTracker.resetStage.add rr.costUsd).totalUsd := by
        rw [hsum]
        show er.costTracker.budget.maxTotalUsd < _
        rwa [h.budget]
      obtain ⟨m, hm⟩ := CostTracker.checkBudget_exceeds hov
      refine ⟨m, { er with costTracker := er.costTracker.resetStage.add rr.costUsd }, ?_⟩
      unfold settleAgentRun
      rw [hm]

theorem executeStage_sim (hrun : executeStage (A.setup w usd) stage e = (.ok r, e₁))
    (hbu : stage.kind = .agent → e₁.costTracker.totalUsd + δ ≤ e.costTracker.budget.maxTotalUsd) :
    ∃ r' er₁, executeStage (A.setup w usd) stage er = (.ok r', er₁) ∧
      SameResult r r' ∧ Sim δ G T e₁ er₁ := by
  unfold executeStage dispatchStage at hrun ⊢
  cases hki : stage.kind with
  | agent =>
    rw [hki] at hrun
    exact (runAgentStage_sim (h.running stage) hrun).1 (hbu hki)
  | gate =>
    rw [hki] at hrun
    exact runGateStage_sim (h.running stage) hrun
  | decision =>
    rw [hki] at hrun
    exact runDecisionStage_sim (h.running stage) hrun
  | action =>
    rw [hki] at hrun
    exact runActionStage_sim (h.running stage) hrun

theorem executeStage_exceeds (hrun : executeStage (A.setup w usd) stage e = (.ok r, e₁))
    (hki : stage.kind = .agent)
    (hov : e.costTracker.budget.maxTotalUsd < e₁.costTracker.totalUsd + δ) :
    ∃ m er₁, executeStage (A.setup w usd) stage er = (.error (.costExceeded m), er₁) := by
  unfold executeStage dispatchStage at hrun ⊢
  rw [hki] at hrun ⊢
  exact (runAgentStage_sim (h.running stage) hrun).2 hov

/-! ## §5 Booking -/

omit h in
theorem statusOf_update {s : WorkflowState} (results : Int → Option StageResult) (i j : Int)
    (r : StageResult) (hres : s.stageResults = update results i (some r)) :
    statusOf s j = if j = i then some r.status else (results j).map (·.status) := by
  rw [statusOf, hres]
  by_cases hj : j = i
  · simp [hj]
  · simp [hj]

variable {r' : StageResult}

/-- Both sides complete a stage, with results of one payload and status, and log its end. -/
theorem Sim.store {f fr : Engine Unit} {l l' : List Event}
    (hpay : r'.payload = r.payload) (hst : r'.status = r.status)
    (hres : f.state.stageResults = update e.state.stageResults i (some r))
    (hres' : fr.state.stageResults = update er.state.stageResults i (some r'))
    (hco : f.state.completedStages = e.state.completedStages ++ [i])
    (hco' : fr.state.completedStages = er.state.completedStages ++ [i])
    (hlog : f.eventLog = e.eventLog ++ l) (hlog' : fr.eventLog = er.eventLog ++ l')
    (hma : Workflow.trace l' = Workflow.trace l) (hhi : fr.decisionHistory = f.decisionHistory)
    (hto : fr.costTracker.totalUsd = f.costTracker.totalUsd + δ)
    (hbu : fr.costTracker.budget = f.costTracker.budget) : Sim δ G T f fr := by
  refine ⟨?_, fun j hj => ?_, fun j hj => ?_, hhi, hto, hbu, ?_⟩
  · unfold WorkflowState.view
    rw [hco, hco', h.completed, hres, hres']
    congr 1
    funext j
    by_cases hj : j = i
    · simp [hj, hpay]
    · rw [update_of_ne hj, update_of_ne hj]
      exact congrFun (congrArg View.payload h.view) j
  · rw [statusOf_update _ i j r hres, statusOf_update _ i j r' hres', hst]
    split
    · rfl
    · exact h.status j hj
  · rw [dependencySatisfied_eq, statusOf_update _ i j r hres, hco]
    rw [dependencySatisfied_eq, statusOf_update _ i j r' hres', hco', hst, h.completed] at hj
    by_cases hji : j = i
    · simpa [hji] using hj
    have hw := h.weaker j
    rw [dependencySatisfied_eq, dependencySatisfied_eq, h.completed] at hw
    simp only [List.mem_append, List.mem_singleton, hji, or_false] at hj ⊢
    exact hw hj
  · rw [hlog, hlog', trace_append, trace_append, hma, h.trace, List.append_assoc]

theorem Sim.book (stage : StageNode) (hr : SameResult r r') :
    Sim δ G T (completeStage (A.setup w usd) stage r e)
      (completeStage (A.setup w usd) stage r' er) :=
  h.store hr.payload hr.status rfl rfl rfl rfl (completeStage_eventLog ..)
    (completeStage_eventLog ..) rfl h.history h.total h.budget

/-- `acceptRejection` on both sides of a booked rejection. -/
theorem Sim.accept (stage : StageNode) (hr : SameResult r r') : Sim δ G T
      (acceptRejection stage r (completeStage (A.setup w usd) stage r e))
      (acceptRejection stage r' (completeStage (A.setup w usd) stage r' er)) :=
  h.store (show StageResult.payload { r' with status := .completed } =
      StageResult.payload { r with status := .completed } from hr.payload)
    rfl (update_idem ..) (update_idem ..) rfl rfl (completeStage_eventLog ..)
    (completeStage_eventLog ..) rfl h.history h.total h.budget

/-! ## §6 One pass -/

omit h in
theorem loopStep_at (hctl : S.controlState = none) (hi : dag[idx]? = some i)
    (hst : S.workflow.getStage i = some stage) :
    loopStep S dag idx none e = visitStage S dag idx none stage e := by
  unfold loopStep waitForControl
  rw [hi, hctl]
  dsimp only
  rw [if_neg (by decide), hst]

omit h in
theorem visitStage_ran (hde : Workflow.dependenciesSatisfied e.state stage = true)
    (hrun : executeStage S stage e = (.ok r, e₁)) : visitStage S dag idx none stage e =
      settleResult S dag idx none stage r e₁ := by
  unfold visitStage
  rw [hde, if_neg (by decide), hrun]

omit h in
theorem settleResult_ran (hok : ¬ (stage.kind = .gate ∧ r.status = .gateRejected)) :
    settleResult S dag idx none stage r e =
      .next (nextIndex dag idx stage r) none (completeStage S stage r e) := by
  unfold settleResult nextIndex
  rw [if_neg hok]
  split <;> rfl

omit h in
theorem settleResult_accepted (hac : AcceptsRejection stage r) :
    settleResult S dag idx none stage r e =
      .next (idx + 1) none (acceptRejection stage r (completeStage S stage r e)) := by
  obtain ⟨hki, hrej, hsk, hro⟩ := hac
  unfold settleResult
  rw [if_pos ⟨hki, hrej⟩, if_neg (by simp [hsk, hro]), if_pos hsk]

omit h in
theorem loopStep_skip (hctl : S.controlState = none)
    (hi : dag[idx]? = some i) (hst : S.workflow.getStage i = some stage)
    (hde : Workflow.dependenciesSatisfied e.state stage = false) :
    loopStep S dag idx none e = .next (idx + 1) none (skipStage stage e) := by
  rw [loopStep_at hctl hi hst, visitStage, hde]
  rfl

omit h in
/-- The stage a clean pass runs, if its dependencies are satisfied. -/
def RunsAt (w : WorkflowSchema) (dagOrder : List Int) (idx : Nat) (e : Engine Unit)
    (stage : StageNode) : Prop :=
  ∃ i, dagOrder[idx]? = some i ∧ w.getStage i = some stage ∧
    Workflow.dependenciesSatisfied e.state stage = true

theorem Sim.skip (stage : StageNode) : Sim δ G T (skipStage stage e) (skipStage stage er) :=
  { h with trace := (h.logged [.stageSkipped stage.id stage.name "dependencies not satisfied"]
      [.stageSkipped stage.id stage.name "dependencies not satisfied"] rfl).trace }

/-- **Lockstep.** A clean pass of the uninterrupted run is matched by the resumed
run, when the stage it runs depends on no gate stored as rejected and the shifted
total stays within the budget. -/
theorem Sim.step (hsp : loopStep (A.setup w usd) dag idx none e = .next idx' none e')
    (hde : ∀ stage, RunsAt w dag idx e stage → ∀ d ∈ stage.dependsOn, ¬ G d)
    (hbu : ∀ stage, RunsAt w dag idx e stage → stage.kind = .agent →
      e'.costTracker.totalUsd + δ ≤ e.costTracker.budget.maxTotalUsd) :
    ∃ er', loopStep (A.setup w usd) dag idx none er = .next idx' none er' ∧ Sim δ G T e' er' := by
  cases CleanPass.of_loopStep hsp with
  | absent _ _ hi hst =>
    refine ⟨er, ?_, h⟩
    unfold loopStep waitForControl
    rw [hi]
    dsimp only [Answers.setup, setup] at hst ⊢
    rw [if_neg (by decide), hst]
  | skipped _ _ stage hi hst hsat =>
    exact ⟨_, loopStep_skip rfl hi hst (h.dependencies_weaker hsat), h.skip stage⟩
  | ran i _ stage _ _ hi hst hsat hrun =>
    have hat : RunsAt w dag idx e stage := ⟨i, hi, hst, hsat⟩
    have hsat' := (h.dependenciesSatisfied (hde stage hat)).trans hsat
    obtain ⟨_, _, hrun', hr, hsim⟩ := executeStage_sim h hrun (hbu stage hat)
    refine ⟨_, ?_, hsim.book stage hr⟩
    rw [loopStep_at rfl hi hst, visitStage_ran hsat' hrun', settleResult_ran (by rwa [hr.status])]
    rw [nextIndex, nextIndex, hr.next]
  | accepted i _ stage _ _ hi hst hsat hrun hac =>
    have hat : RunsAt w dag idx e stage := ⟨i, hi, hst, hsat⟩
    have hsat' := (h.dependenciesSatisfied (hde stage hat)).trans hsat
    obtain ⟨_, _, hrun', hr, hsim⟩ := executeStage_sim h hrun (hbu stage hat)
    refine ⟨_, ?_, hsim.accept stage hr⟩
    obtain ⟨hki, hrej, hsk, hro⟩ := hac
    rw [loopStep_at rfl hi hst, visitStage_ran hsat' hrun',
      settleResult_accepted ⟨hki, hr.status.trans hrej, hsk, hro⟩]

omit h in
/-- The run behind a clean pass at a stage whose dependencies are satisfied. -/
theorem CleanPass.executed (h : CleanPass S dag idx e idx' e')
    (hat : RunsAt S.workflow dag idx e stage) :
    ∃ r e₁, executeStage S stage e = (.ok r, e₁) ∧ e'.costTracker = e₁.costTracker := by
  obtain ⟨j, hj, hsj, hsat⟩ := hat
  have hsa : ∀ i, dag[idx]? = some i → S.workflow.getStage i = some stage := by
    intro i hi
    rw [hj] at hi
    cases hi
    exact hsj
  cases h with
  | absent i _ hi hst =>
    rw [hsa i hi] at hst
    cases hst
  | skipped i _ _ hi hst hsat₂ =>
    rw [hsa i hi] at hst
    cases hst
    rw [hsat] at hsat₂
    cases hsat₂
  | ran i _ _ r e₁ hi hst _ hrun | accepted i _ _ r e₁ hi hst _ hrun =>
    rw [hsa i hi] at hst
    cases hst
    exact ⟨r, e₁, hrun, completeStage_costTracker S stage r e₁⟩

/-- An agent stage that the shifted total does not allow ends the resumed run
with an error. -/
theorem Sim.step_exceeds (hsp : loopStep (A.setup w usd) dag idx none e = .next idx' none e')
    (hat : RunsAt w dag idx e stage) (hde : ∀ d ∈ stage.dependsOn, ¬ G d)
    (hki : stage.kind = .agent)
    (hov : e.costTracker.budget.maxTotalUsd < e'.costTracker.totalUsd + δ) :
    ∃ m er', loopStep (A.setup w usd) dag idx none er = .stop (some m) er' := by
  obtain ⟨r, _, hrun, htr⟩ := (CleanPass.of_loopStep hsp).executed hat
  obtain ⟨j, hj, hsj, hsat⟩ := hat
  have hsat' := (h.dependenciesSatisfied hde).trans hsat
  rw [htr] at hov
  obtain ⟨m, er₁, hov'⟩ := executeStage_exceeds h hrun hki hov
  refine ⟨m, er₁.emit (.workflowError m (some stage.id)), ?_⟩
  rw [loopStep_at rfl hj hsj, visitStage, hsat', hov']
  rfl

end Lockstep

end Orchestratord.Workflow
