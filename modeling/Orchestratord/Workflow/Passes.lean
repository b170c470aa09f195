import Orchestratord.Workflow.Trace

/-!
# Every pass of the loop

`StageEvents` lists the events a stage logs between its start and its
settlement. The theorems about runs that do not end well go through it and
through the inversion of a pass, rejections, failures and rollbacks included.
-/

namespace Orchestratord.Workflow

open List hiding getElem?_eq_some_iff

variable {σ : Type}

/-! ## §1 The events of a stage -/

variable {S : Setup σ} {dag : List Int} {fuel idx : Nat} {m : Option String}
  {e e' e₁ : Engine σ} {stage : StageNode} {out : StageOutcome σ}

/-- The events a stage can log. -/
theorem StageEvents.mem {out : Except EngineError StageResult} {inner : List Event}
    (h : StageEvents stage out inner) {a : Event} (ha : a ∈ inner) :
    (∃ text, a = .costWarning text) ∨ a = .gateRequest stage.id stage.name stage.gateMode ∨
      a = .gateApproved stage.id stage.name ∨
      (∃ reason, a = .gateRejected stage.id stage.name reason) ∨
      ∃ outcome next, a = .decisionEvaluated stage.id outcome next := by
  cases h with
  | worked | broke =>
    obtain ⟨text, -, rfl⟩ := mem_map.mp ha
    exact .inl ⟨text, rfl⟩
  | unanswered =>
    rw [mem_singleton.mp ha]
    exact .inr (.inl rfl)
  | approved =>
    simp only [mem_cons, not_mem_nil, or_false] at ha
    rcases ha with rfl | rfl
    · exact .inr (.inl rfl)
    · exact .inr (.inr (.inl rfl))
  | rejected _ reason =>
    simp only [mem_cons, not_mem_nil, or_false] at ha
    rcases ha with rfl | rfl
    · exact .inr (.inl rfl)
    · exact .inr (.inr (.inr (.inl ⟨reason, rfl⟩)))
  | decided | exhausted =>
    rw [mem_singleton.mp ha]
    exact .inr (.inr (.inr (.inr ⟨_, _, rfl⟩)))

/-! ## §2 What a pass runs -/

theorem Started.lt_length (h : Started S dag idx e stage out) : idx < dag.length :=
  (getElem?_eq_some_iff.mp h.at_index).1

theorem Started.run (h : Started S dag idx e stage out) : StageRun stage e out := by
  obtain ⟨env, hran⟩ := h.ran
  have hrun := executeStage_run S stage { e with env := env }
  rw [hran] at hrun
  exact { hrun with }

theorem Pass.lt_length {idx' : Nat} {m' : Option String} {e' : Engine σ}
    (h : Pass S dag idx m e (.next idx' m' e')) : idx < dag.length := by
  cases h with
  | absent _ _ hi | skipped _ _ hi => exact (getElem?_eq_some_iff.mp hi).1
  | completed _ _ _ h | accepted _ _ _ h | turnedBack _ _ _ h | passedOver _ _ _ h
  | rolledBack _ _ _ h => exact h.lt_length

/-- The engine a step leaves. -/
def LoopStep.engine : LoopStep σ → Engine σ
  | .next _ _ e | .stop _ e | .raise _ e => e

/-- The stage that a pass of the loop comes to run, and the engine it runs in. -/
def stageToRun (S : Setup σ) (dagOrder : List Int) (idx : Nat) (e : Engine σ) :
    Option (StageNode × Engine σ) :=
  match dagOrder[idx]? with
  | none => none
  | some stageId =>
    let out := waitForControl S e
    if !out.1 then none
    else
      match S.workflow.getStage stageId with
      | none => none
      | some stage => if !dependenciesSatisfied out.2.state stage then none else some (stage, out.2)

theorem waitForControl_state (S : Setup σ) (e : Engine σ) :
    (waitForControl S e).2.state = e.state := by
  obtain ⟨go, env, hctl⟩ := waitForControl_eq S e
  rw [hctl]

/-- The stage that is to run gets started. -/
theorem started_of_stageToRun (h : stageToRun S dag idx e = some (stage, e₁)) :
    e₁ = (waitForControl S e).2 ∧ Started S dag idx e stage (executeStage S stage e₁) := by
  unfold stageToRun at h
  split at h
  · cases h
  rename_i stageId hidx
  dsimp only at h
  split at h
  · cases h
  rename_i hgo
  split at h
  · cases h
  rename_i found hfo
  obtain ⟨-, rfl⟩ := S.workflow.getStage_some hfo
  split at h
  · cases h
  rename_i hde
  rw [waitForControl_state] at hde
  cases h
  exact ⟨rfl, hidx, hfo, by simpa using hgo, by simpa using hde, rfl⟩

theorem Started.stageToRun (h : Started S dag idx e stage out) :
    stageToRun S dag idx e = some (stage, (waitForControl S e).2) := by
  have hre := h.ready
  rw [← waitForControl_state S e] at hre
  simp only [Workflow.stageToRun, h.at_index, h.go, h.found, hre, Bool.not_true,
    Bool.false_eq_true, if_false]

/-- What a pass that runs a stage comes to. -/
theorem loopStep_of_stageToRun (m : Option String)
    (h : stageToRun S dag idx e = some (stage, e₁)) : loopStep S dag idx m e =
      match (executeStage S stage e₁).1 with
      | .ok result => settleResult S dag idx m stage result (executeStage S stage e₁).2
      | .error error => settleError S dag idx stage error (executeStage S stage e₁).2 := by
  obtain ⟨rfl, hst⟩ := started_of_stageToRun h
  have hre := hst.ready
  rw [← waitForControl_state S e] at hre
  cases hrun : executeStage S stage (waitForControl S e).2 with
  | mk result =>
    cases result <;>
      simp only [loopStep, hst.at_index, hst.go, hst.found, visitStage, hre, hrun,
        Bool.not_true, Bool.false_eq_true, if_false]

/-- What a pass that runs none does: it may skip a stage. -/
structure Quiet (e e' : Engine σ) : Prop where
  completedStages : e'.state.completedStages = e.state.completedStages
  costTracker : e'.costTracker = e.costTracker
  decisionHistory : e'.decisionHistory = e.decisionHistory
  checkpoint : e'.checkpoint = e.checkpoint
  log : ∃ skipped : List StageNode, e'.eventLog = e.eventLog ++
    skipped.map fun stage => .stageSkipped stage.id stage.name "dependencies not satisfied"
  statuses : ∀ sid, (e.state.stageStatuses sid).isSome → (e'.state.stageStatuses sid).isSome

theorem Quiet.setEnv (h : Quiet e e') (env : σ) : Quiet e { e' with env := env } := { h with }

theorem Quiet.refl (e : Engine σ) : Quiet e e :=
  ⟨rfl, rfl, rfl, rfl, ⟨[], (append_nil _).symm⟩, fun _ h => h⟩

theorem Quiet.skipStage (h : Quiet e e') (stage : StageNode) : Quiet e (skipStage stage e') := by
  obtain ⟨skipped, hlog⟩ := h.log
  refine { h with log := ⟨skipped ++ [stage], ?_⟩, statuses := ?_ }
  · simp [Workflow.skipStage, Engine.emit, hlog]
  intro sid hso
  by_cases hsid : sid = stage.id
  · simp [Workflow.skipStage, WorkflowState.setStatus, hsid]
  · simpa [Workflow.skipStage, WorkflowState.setStatus, hsid, Engine.emit] using h.statuses sid hso

theorem quiet_waitForControl (S : Setup σ) (e : Engine σ) : Quiet e (waitForControl S e).2 := by
  obtain ⟨go, env, hctl⟩ := waitForControl_eq S e
  rw [hctl]
  exact (Quiet.refl e).setEnv env

theorem loopStep_of_none (m : Option String) (h : stageToRun S dag idx e = none) :
    Quiet e (loopStep S dag idx m e).engine := by
  have hco := quiet_waitForControl S e
  cases hidx : dag[idx]? with
  | none =>
    simp only [loopStep, hidx]
    exact .refl e
  | some stageId =>
    simp only [stageToRun, hidx] at h
    simp only [loopStep, hidx]
    split
    · exact hco
    rename_i hgo
    rw [if_neg hgo] at h
    rcases hst : S.workflow.getStage stageId with _ | stage
    · exact hco
    simp only [hst] at h
    have hde : (!dependenciesSatisfied (waitForControl S e).2.state stage) = true := by
      by_contra hre
      rw [if_neg hre] at h
      cases h
    dsimp only
    rw [visitStage, if_pos hde]
    exact hco.skipStage stage

/-! ## §3 Rollbacks -/

/-- A rollback either leaves the state alone or updates it for the first
dependency. It logs nothing. -/
theorem rollbackToStage_spec (S : Setup σ) (dag : List Int) (stage : StageNode)
    (e : Engine σ) : (rollbackToStage S dag stage e).2.eventLog = e.eventLog ∧
    (rollbackToStage S dag stage e).2.decisionHistory = e.decisionHistory ∧
    (rollbackToStage S dag stage e).2.costTracker = e.costTracker ∧
    ((rollbackToStage S dag stage e).2.state = e.state ∨
      ∃ target rest, stage.dependsOn = target :: rest ∧ (rollbackToStage S dag stage e).2.state =
          updateStateOnRollback e.state target stage.id) := by
  unfold rollbackToStage
  split
  · rename_i target rest _ hde
    dsimp only
    split
    · exact ⟨rfl, rfl, rfl, .inl rfl⟩
    · split
      all_goals exact ⟨rfl, rfl, rfl, .inr ⟨target, rest, hde, rfl⟩⟩
  · exact ⟨rfl, rfl, rfl, .inl rfl⟩

/-- A gate's rollback may log the rejection once more. -/
theorem handleGateRejection_spec (S : Setup σ) (dag : List Int) (stage : StageNode)
    (r : StageResult) (e : Engine σ) :
    (∃ reasons : List String, (handleGateRejection S dag stage r e).2.eventLog =
      e.eventLog ++ reasons.map (.gateRejected stage.id stage.name)) ∧
    (handleGateRejection S dag stage r e).2.decisionHistory = e.decisionHistory ∧
    (handleGateRejection S dag stage r e).2.costTracker = e.costTracker ∧
    (((handleGateRejection S dag stage r e).2.state.completedStages = e.state.completedStages ∧
      (handleGateRejection S dag stage r e).2.state.stageResults = e.state.stageResults) ∨
      ∃ target, (handleGateRejection S dag stage r e).2.state.completedStages =
          (updateStateOnRollback e.state target stage.id).completedStages ∧
        (handleGateRejection S dag stage r e).2.state.stageResults =
          (updateStateOnRollback e.state target stage.id).stageResults) := by
  unfold handleGateRejection
  split
  · rename_i target reason _ _
    refine ⟨⟨[reason], rfl⟩, rfl, rfl, .inr ⟨target, ?_, ?_⟩⟩
    all_goals
      dsimp only [Engine.emit]
      split <;> rfl
  · obtain ⟨hlog, hhi, htr, hst⟩ := rollbackToStage_spec S dag stage e
    refine ⟨⟨[], by rw [hlog, map_nil, append_nil]⟩, hhi, htr, ?_⟩
    rcases hst with hst | ⟨target, rest, -, hst⟩
    · exact .inl (by rw [hst]; exact ⟨rfl, rfl⟩)
    · exact .inr ⟨target, by rw [hst]; exact ⟨rfl, rfl⟩⟩

/-! ## §4 Settling a stage -/

/-- The events that settle a stage, by what it came to. -/
inductive Settlement (stage : StageNode) : Except EngineError StageResult → List Event → Prop where
  | booked (r : StageResult) (reasons : List String) :
      Settlement stage (.ok r) (.stageComplete stage.id stage.name r.costUsd ::
        reasons.map (.gateRejected stage.id stage.name))
  | failed (err : EngineError) (text : String) :
      Settlement stage (.error err) [.stageFailed stage.id stage.name text]
  | aborted (err : EngineError) (text : String) :
      Settlement stage (.error err) [.workflowError text (some stage.id)]
  | raised (err : EngineError) : Settlement stage (.error err) []

/-- What settling does to the engine that the stage left. -/
structure Settles (stage : StageNode) (out : StageOutcome σ) (e' : Engine σ) : Prop where
  log : ∃ tail, e'.eventLog = out.2.eventLog ++ tail ∧ Settlement stage out.1 tail
  history : e'.decisionHistory = out.2.decisionHistory
  costTracker : e'.costTracker = out.2.costTracker

theorem settles_settleResult (r : StageResult) (e : Engine σ) :
    Settles stage (.ok r, e) (settleResult S dag idx m stage r e).engine := by
  have hbo : Settles stage (.ok r, e) (completeStage S stage r e) :=
    ⟨⟨_, completeStage_eventLog .., .booked r []⟩, completeStage_decisionHistory ..,
      completeStage_costTracker ..⟩
  unfold settleResult
  split
  · split
    · obtain ⟨⟨reasons, hlog⟩, hhi, htr, -⟩ :=
        handleGateRejection_spec S dag stage r (completeStage S stage r e)
      rw [completeStage_eventLog, append_assoc] at hlog
      exact ⟨⟨_, hlog, .booked r reasons⟩, hhi.trans hbo.history, htr.trans hbo.costTracker⟩
    · split
      all_goals exact { hbo with }
  · split
    all_goals exact hbo

theorem settles_settleError (err : EngineError) (e : Engine σ) :
    Settles stage (.error err, e) (settleError S dag idx stage err e).engine := by
  have hfa : ∀ text, Settles stage (.error err, e) (failStage stage text e) :=
    fun text => ⟨⟨_, rfl, .failed err text⟩, rfl, rfl⟩
  cases err with
  | stageTimeout text =>
    dsimp only [settleError]
    split
    all_goals exact hfa text
  | stageFailure text =>
    dsimp only [settleError]
    split
    · exact hfa text
    split
    · obtain ⟨hlog, hhi, htr, -⟩ := rollbackToStage_spec S dag stage (failStage stage text e)
      exact ⟨⟨_, hlog, .failed _ text⟩, hhi, htr⟩
    · exact hfa text
  | costExceeded text | workflow text => exact ⟨⟨_, rfl, .aborted _ text⟩, rfl, rfl⟩
  | foreign => exact ⟨⟨[], (append_nil _).symm, .raised _⟩, rfl, rfl⟩

/-- **What a pass does**: it runs no stage, or it runs one and settles it. -/
theorem loopStep_frame (S : Setup σ) (dag : List Int) (idx : Nat) (m : Option String)
    (e : Engine σ) :
    (stageToRun S dag idx e = none ∧ Quiet e (loopStep S dag idx m e).engine) ∨
    ∃ stage out, stageToRun S dag idx e = some (stage, (waitForControl S e).2) ∧
      Started S dag idx e stage out ∧
      Settles stage out (loopStep S dag idx m e).engine := by
  rcases hrun : stageToRun S dag idx e with _ | ran
  · exact .inl ⟨rfl, loopStep_of_none m hrun⟩
  obtain ⟨stage, e₁⟩ := ran
  obtain ⟨rfl, hst⟩ := started_of_stageToRun hrun
  refine .inr ⟨stage, _, rfl, hst, ?_⟩
  rw [loopStep_of_stageToRun m hrun]
  cases executeStage S stage (waitForControl S e).2 with
  | mk result e₂ =>
    cases result with
    | ok r => exact settles_settleResult r e₂
    | error err => exact settles_settleError err e₂

/-! ## §5 Runs -/

/-- The engine after at most `n` passes. -/
def loopFor (S : Setup σ) (dagOrder : List Int) : Nat → Nat → Option String → Engine σ → Engine σ
  | 0, _, _, e => e
  | n + 1, idx, errorMsg, e =>
    match loopStep S dagOrder idx errorMsg e with
    | .next idx errorMsg e => loopFor S dagOrder n idx errorMsg e
    | .stop _ e => e
    | .raise _ e => e

theorem loopFor_of_runLoop {e' : Engine σ} {out : Except EngineError (Option String)}
    (h : runLoop S dag fuel idx m e = some (out, e')) :
    loopFor S dag fuel idx m e = e' := by
  induction fuel generalizing idx m e with
  | zero => cases h
  | succ _ ih =>
    rw [runLoop] at h
    rw [loopFor]
    cases hst : loopStep S dag idx m e with
    | next =>
      rw [hst] at h
      exact ih h
    | stop | raise =>
      rw [hst] at h
      cases h
      rfl

/-- **A decreasing measure ends the loop.** -/
theorem runLoop_ends (work : Nat → Engine σ → Nat)
    (hwo : ∀ idx m e idx' m' e', Pass S dag idx m e (.next idx' m' e') →
      work idx' e' < work idx e) (hfu : work idx e < fuel) :
    ∃ out, runLoop S dag fuel idx m e = some out := by
  induction fuel generalizing idx m e with
  | zero => exact absurd hfu (Nat.not_lt_zero _)
  | succ _ ih =>
    rw [runLoop]
    split
    · rename_i idx' m' e' hst
      have hle := hwo _ _ _ _ _ _ (.of_next hst)
      exact ih (by omega)
    all_goals exact ⟨_, rfl⟩

/-! ## §6 The batch loop -/

section Outcomes

variable (S : Setup σ) (p : Parallel σ) (outcome : StageNode × Except EngineError StageResult)

theorem settleOutcome_pending : (settleOutcome S p outcome).pending =
      p.pending.filter (fun s => s.id ≠ outcome.1.id) := by
  unfold settleOutcome
  split
  · rfl
  · split <;> rfl

/-- What settling an outcome charges. -/
def charged : Except EngineError StageResult → ℚ
  | .ok r => r.costUsd
  | .error _ => 0

/-- Once it is charged, an outcome fails its stage or completes it. -/
theorem settleOutcome_engine : ∃ e, Charged (charged outcome.2) p.engine e ∧
      ((∃ text, (settleOutcome S p outcome).engine = failStage outcome.1 text e) ∨
        ∃ r, (settleOutcome S p outcome).engine = completeStage S outcome.1 r e) := by
  unfold settleOutcome
  rcases outcome.2 with _ | r
  · exact ⟨_, ⟨rfl, rfl, rfl, ⟨[], (append_nil _).symm⟩, (add_zero _).symm⟩, .inl ⟨_, rfl⟩⟩
  refine ⟨_, charged_chargeBatchStage r p.engine, ?_⟩
  dsimp only
  split
  · next heq => exact .inl ⟨_, by rw [heq]⟩
  · next heq => exact .inr ⟨r, by rw [heq]⟩

theorem foldl_settleOutcome_pending
    (outs : List (StageNode × Except EngineError StageResult)) (p : Parallel σ) :
    (outs.foldl (settleOutcome S) p).pending =
      p.pending.filter (fun s => s.id ∉ outs.map (·.1.id)) := by
  induction outs generalizing p with
  | nil => simp
  | cons _ _ ih =>
    rw [foldl_cons, ih, settleOutcome_pending, filter_filter]
    congr 1
    ext s
    rw [map_cons, Bool.eq_iff_iff]
    simp only [Bool.and_eq_true, decide_eq_true_eq, mem_cons, not_or]
    exact and_comm

theorem batchPass_pending (batch : List StageNode) (p : Parallel σ) :
    (batchPass S batch p).pending = p.pending.filter (fun s => s.id ∉ batch.map (·.id)) := by
  have hids : (runBatch S batch p.engine).1.map (·.1.id) = batch.map (·.id) := by
    conv_rhs => rw [← (runBatch_spec S batch p.engine).1, map_map]
    rfl
  rw [batchPass, foldl_settleOutcome_pending, hids]

end Outcomes

/-- **Invariant rule for the batch loop.** What the outside's answers, a batch of
pending stages and the skipping at the end preserve holds of the engine it leaves. -/
theorem parallelLoop_invariant (I : List StageNode → Engine σ → Prop)
    (henv : ∀ pending e env, I pending e → I pending { e with env := env })
    (hba : ∀ batch p, batch.Sublist p.pending →
      I p.pending p.engine → I (batchPass S batch p).pending (batchPass S batch p).engine)
    (hsk : ∀ pending e, I pending e → I [] (skipAll pending e))
    (hdo : ∀ pending e, I pending e → I [] e) {p p' : Parallel σ} (hI : I p.pending p.engine)
    (h : parallelLoop S fuel p = some p') : I [] p'.engine := by
  induction fuel generalizing p with
  | zero => cases h
  | succ _ ih =>
    rw [parallelLoop] at h
    split at h
    · cases h
      exact hdo _ _ hI
    obtain ⟨go, env, hctl⟩ := waitForControl_eq S p.engine
    have hI' := henv _ _ env hI
    rw [hctl] at h
    dsimp only at h
    split at h
    · cases h
      exact hdo _ _ hI'
    split at h
    · cases h
      exact hsk _ _ hI'
    have hsub : ((readyStages { p with engine := { p.engine with env := env } }).take
        (max 1 S.config.maxConcurrentStages).toNat).Sublist p.pending :=
      (take_sublist _ _).trans filter_sublist
    have hpa := hba _ { p with engine := { p.engine with env := env } } hsub hI'
    split at h
    · cases h
      exact hdo _ _ hpa
    · exact ih hpa h

/-- A batch is never empty, so the loop ends. -/
theorem parallelLoop_ends {p : Parallel σ} (hfu : p.pending.length < fuel) :
    ∃ p', parallelLoop S fuel p = some p' := by
  induction fuel generalizing p with
  | zero => exact absurd hfu (Nat.not_lt_zero _)
  | succ _ ih =>
    rw [parallelLoop]
    split
    · exact ⟨p, rfl⟩
    obtain ⟨go, env, hctl⟩ := waitForControl_eq S p.engine
    rw [hctl]
    dsimp only
    split
    · exact ⟨_, rfl⟩
    split
    · exact ⟨_, rfl⟩
    rename_i hre
    set q : Parallel σ := { p with engine := { p.engine with env := env } } with hq
    set batch := (readyStages q).take (max 1 S.config.maxConcurrentStages).toNat with hba
    have hsub : batch.Sublist p.pending := (take_sublist _ _).trans filter_sublist
    have hle : (batchPass S batch q).pending.length < p.pending.length := by
      rw [batchPass_pending]
      apply length_filter_lt_length_iff_exists.mpr
      have hne : batch ≠ [] := by
        rw [Ne, take_eq_nil_iff, not_or]
        exact ⟨by omega, hre⟩
      obtain ⟨s, hs⟩ := exists_mem_of_ne_nil batch hne
      exact ⟨s, hsub.subset hs, by simpa using ⟨s, hs, rfl⟩⟩
    split
    · exact ⟨_, rfl⟩
    · exact ih (by omega)

end Orchestratord.Workflow
