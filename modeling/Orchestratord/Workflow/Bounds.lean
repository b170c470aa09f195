import Orchestratord.Workflow.Decisions

/-!
# How often a call executes stages

A failure with `on_error = rollback` and a rejected gate with a rollback move
the loop back to an earlier stage. Nothing counts how often: `max_retries` is
never read by the engine. So a stage that always fails keeps a call going for
ever, and only a workflow without rollbacks has a bound.
-/

namespace Orchestratord.Workflow

open Engine WorkflowSchema WorkflowState Event
open List hiding getElem?_eq_some_iff

variable {σ : Type}

/-! ## §1 Counting executions -/

def Mark.isStarted : Mark → Bool
  | .started _ => true
  | .finished _ => false

/-- Stage executions in a log. -/
def executions (log : List Event) : Nat := (trace log).countP Mark.isStarted

variable (S : Setup σ)

/-- The engine after at most `fuel` passes of the call: of the loop, or of the
batch scheduler if it has come to its end by then. -/
def executeFor (fuel : Nat) (fromStage : Option Int) (e : Engine σ) : Engine σ :=
  match S.workflow.buildDagOrder with
  | .error _ => e
  | .ok dagOrder =>
    let start := startIndex dagOrder fromStage
    let e := prepareRun S dagOrder fromStage e
    if schedulesParallel S dagOrder start e.state then
      let pending := S.workflow.stages.filter (fun s => s.id ∉ e.state.completedStages)
      match parallelLoop S fuel { pending, engine := e } with
      | none => e
      | some p => p.engine
    else loopFor S dagOrder fuel start none e

theorem executions_eq {log log' : List Event} (h : trace log' = trace log) :
    executions log' = executions log := by
  rw [executions, h, executions]

variable (stage : StageNode)

theorem completeStage_executions (r : StageResult)
    (e : Engine σ) : executions (completeStage S stage r e).eventLog = executions e.eventLog := by
  rw [executions, completeStage_eventLog, trace_append, countP_append]
  rfl

theorem failStage_trace (message : String) (e : Engine σ) :
    trace (failStage stage message e).eventLog = trace e.eventLog := by
  simp [failStage, emit, trace, mark]

theorem executeStage_executions (e : Engine σ) :
    executions (executeStage S stage e).2.eventLog = executions e.eventLog + 1 := by
  rw [executions, (executeStage_run S stage e).trace, countP_append]
  rfl

variable {w : WorkflowSchema} {S : Setup σ} {dag : List Int} {idx : Nat} {m : Option String}
  {e : Engine σ} {stage : StageNode} {d : Int}

theorem Started.executions {out : StageOutcome σ} (h : Started S dag idx e stage out) :
    executions out.2.eventLog = Workflow.executions e.eventLog + 1 := by
  obtain ⟨env, rfl⟩ := h.ran
  exact executeStage_executions S stage { e with env := env }

variable {e' : Engine σ} {r : StageResult}

theorem executions_append (log chunk : List Event) :
    executions (log ++ chunk) = executions log + executions chunk := by
  rw [executions, trace_append, countP_append]
  rfl

/-- A pass executes at most one stage, and none past the end of the order. -/
theorem loopStep_executions (S : Setup σ) (dag : List Int) (idx : Nat) (m : Option String)
    (e : Engine σ) :
    executions (loopStep S dag idx m e).engine.eventLog = executions e.eventLog ∨
      executions (loopStep S dag idx m e).engine.eventLog = executions e.eventLog + 1 ∧
        idx < dag.length := by
  rcases loopStep_frame S dag idx m e with
    ⟨-, hqu⟩ | ⟨stage, ⟨out, e'⟩, -, hst, hse⟩
  · obtain ⟨_, hlog⟩ := hqu.log
    left
    rw [hlog, executions_append]
    simp [executions, trace, mark]
  · obtain ⟨tail, hlog, hta⟩ := hse.log
    have hno : executions tail = 0 := by
      cases hta with
      | booked => simp [executions, trace, mark, Mark.isStarted]
      | failed | aborted | raised => rfl
    refine .inr ⟨?_, hst.lt_length⟩
    rw [hlog, executions_append, hno, hst.executions]

/-! ## §2 Without rollbacks -/

/-- No stage moves the loop back. A `gate_rollback_to` counts at gates only. -/
def NeverTurnsBack (w : WorkflowSchema) : Prop :=
  ∀ s ∈ w.stages, s.onError ≠ .rollback ∧ (s.kind = .gate → s.gateRollbackTo = none)

instance (w : WorkflowSchema) : Decidable (NeverTurnsBack w) :=
  inferInstanceAs (Decidable (∀ s ∈ w.stages, _))

/-- A pass goes on to the next index. -/
theorem Pass.next_index {idx' : Nat} {m' : Option String} (hback : NeverTurnsBack S.workflow)
    (hdecision : ∀ s ∈ S.workflow.stages, s.kind ≠ .decision)
    (h : Pass S dag idx m e (.next idx' m' e')) : idx' = idx + 1 := by
  cases h with
  | absent | skipped | accepted | passedOver => rfl
  | completed _ _ _ h => rw [nextIndex, if_neg (hdecision _ (S.workflow.getStage_some h.found).1)]
  | turnedBack stage _ _ h htu =>
    obtain ⟨her, hta⟩ := hback stage (S.workflow.getStage_some h.found).1
    rcases htu.2.2 with htu' | htu'
    · exact absurd htu' her
    · rw [hta htu.1] at htu'
      cases htu'
  | rolledBack stage _ _ h hro =>
    exact absurd hro (hback stage (S.workflow.getStage_some h.found).1).1

theorem loopFor_executions (hback : NeverTurnsBack S.workflow)
    (hdecision : ∀ s ∈ S.workflow.stages, s.kind ≠ .decision) (n : Nat) :
    executions (loopFor S dag n idx m e).eventLog ≤
      executions e.eventLog + (dag.length - idx) := by
  induction n generalizing idx m e with
  | zero => exact Nat.le_add_right _ _
  | succ n ih =>
    have hone := loopStep_executions S dag idx m e
    rw [loopFor]
    split
    · rename_i idx' m' e' hst
      have hlt := (Pass.of_next hst).lt_length
      obtain rfl := (Pass.of_next hst).next_index hback hdecision
      have hre : executions (loopFor S dag n (idx + 1) m' e').eventLog ≤
          executions e'.eventLog + (dag.length - (idx + 1)) := ih
      rw [hst] at hone
      dsimp only [LoopStep.engine] at hone
      omega
    all_goals
      rename_i hst
      rw [hst] at hone
      dsimp only [LoopStep.engine] at hone
      omega

/-! ## §3 Batches -/

theorem runBatch_executions (S : Setup σ) (batch : List StageNode) (e : Engine σ) :
    executions (runBatch S batch e).2.eventLog = executions e.eventLog + batch.length := by
  induction batch generalizing e with
  | nil => rfl
  | cons _ _ ih =>
    rw [runBatch, ih, executeStage_executions, length_cons]
    omega

theorem settleOutcome_executions (S : Setup σ) (p : Parallel σ)
    (outcome : StageNode × Except EngineError StageResult) :
    executions (settleOutcome S p outcome).engine.eventLog = executions p.engine.eventLog := by
  obtain ⟨e, hch, ⟨_, heq⟩ | ⟨r, heq⟩⟩ := settleOutcome_engine S p outcome
  · rw [heq, executions_eq (failStage_trace _ _ _), executions_eq hch.trace_eq]
  · rw [heq, completeStage_executions, executions_eq hch.trace_eq]

theorem batchPass_executions (S : Setup σ) (batch : List StageNode) (p : Parallel σ) :
    executions (batchPass S batch p).engine.eventLog =
      executions p.engine.eventLog + batch.length := by
  have hfo : ∀ (outs : List (StageNode × Except EngineError StageResult)) (p : Parallel σ),
      executions (outs.foldl (settleOutcome S) p).engine.eventLog =
        executions p.engine.eventLog := by
    intro outs
    induction outs with
    | nil => exact fun p => rfl
    | cons out _ ih => exact fun p => (ih _).trans (settleOutcome_executions S p out)
  rw [batchPass, hfo]
  exact runBatch_executions S batch p.engine

/-- A batch takes at least as many stages from the pending ones as it has. -/
theorem batchPass_length {batch : List StageNode} {p : Parallel σ}
    (hsub : batch.Sublist p.pending) :
    (batchPass S batch p).pending.length + batch.length ≤ p.pending.length := by
  have hke : batch.Sublist (p.pending.filter (fun s => ! decide (s.id ∉ batch.map (·.id)))) := by
    have hse : batch.filter (fun s => ! decide (s.id ∉ batch.map (·.id))) = batch := by
      apply filter_eq_self.mpr
      intro s hs
      simpa using ⟨s, hs, rfl⟩
    have hfi := hsub.filter (fun s => ! decide (s.id ∉ batch.map (·.id)))
    rwa [hse] at hfi
  have hsp := length_eq_length_filter_add
    (fun s : StageNode => decide (s.id ∉ batch.map (·.id))) (l := p.pending)
  have hle := hke.length_le
  rw [batchPass_pending]
  omega

theorem skipAll_executions (pending : List StageNode) (e : Engine σ) :
    executions (skipAll pending e).eventLog = executions e.eventLog := by
  unfold skipAll
  induction pending generalizing e with
  | nil => rfl
  | cons _ _ ih =>
    rw [foldl_cons, ih]
    exact executions_eq (by simp [skipStage, emit, trace, mark])

theorem parallelLoop_executions {fuel : Nat} {p p' : Parallel σ}
    (h : parallelLoop S fuel p = some p') :
    executions p'.engine.eventLog ≤ executions p.engine.eventLog + p.pending.length := by
  have hend := parallelLoop_invariant (fun pending e => executions e.eventLog + pending.length ≤
      executions p.engine.eventLog + p.pending.length)
    (fun _ _ _ h => h)
    (fun batch q hsub h => by
      have hpe := batchPass_length (S := S) hsub
      rw [batchPass_executions]
      omega)
    (fun pending e h => by
      rw [skipAll_executions, length_nil]
      omega)
    (fun pending e h => by
      rw [length_nil]
      omega)
    le_rfl h
  simpa using hend

/-- **Without rollbacks** a call executes no more stages than there are. -/
theorem executeFor_executions (hback : NeverTurnsBack S.workflow)
    (hdecision : ∀ s ∈ S.workflow.stages, s.kind ≠ .decision) (fuel : Nat) (fromStage : Option Int)
    (e : Engine σ) : executions (executeFor S fuel fromStage e).eventLog ≤
      executions e.eventLog + S.workflow.stages.length := by
  unfold executeFor
  rcases hdag : S.workflow.buildDagOrder with _ | dag
  · exact Nat.le_add_right _ _
  dsimp only
  have hpr : executions (prepareRun S dag fromStage e).eventLog = executions e.eventLog :=
    executions_eq (by simp [prepareRun, emit, trace, mark])
  split
  · split
    · exact hpr.le.trans (Nat.le_add_right _ _)
    rename_i hp
    have hle := parallelLoop_executions hp
    have hpe := length_filter_le (fun s : StageNode => decide
      (s.id ∉ (prepareRun S dag fromStage e).state.completedStages)) S.workflow.stages
    dsimp only at hle
    omega
  · have hle : executions (loopFor S dag fuel (startIndex dag fromStage) none
        (prepareRun S dag fromStage e)).eventLog ≤
        executions (prepareRun S dag fromStage e).eventLog +
          (dag.length - startIndex dag fromStage) :=
      loopFor_executions hback hdecision fuel
    have hlen := (Topological.of_buildDagOrder hdag).perm.length_eq
    rw [stageIds, length_map] at hlen
    omega

/-! ## §4 A stage that never succeeds -/

/-- Everything works at once and for nothing, except stage `i`. -/
def stubbornRunner (i : Int) : StageRunner Unit where
  run := fun stage _ env => (.returned { success := stage.id ≠ i }, env)
  runAction := fun stage _ env => (.returned { success := stage.id ≠ i }, env)
  runGate := fun stage _ env => (.returned { approved := stage.id ≠ i }, env)
  runDecision := fun _ _ env => (.returned {}, env)

def stubborn (w : WorkflowSchema) (i : Int) : Setup Unit where
  workflow := w
  stageRunner := some (stubbornRunner i)
  validateAll := fun _ env => ([], env)
  restoreSnapshot := fun _ env => (true, env)

/-- Nothing was spent of the standard budget. -/
def Unspent (t : CostTracker) : Prop := t.budget = {} ∧ t.totalUsd = 0

theorem Unspent.checkBudget {t : CostTracker} (h : Unspent t) :
    ∃ t', (t.resetStage.add 0).checkBudget = (.ok [], t') ∧ Unspent t' := by
  obtain ⟨hbu, hto⟩ := h
  refine ⟨t.resetStage.add 0, ?_, ?_, ?_⟩
  · simp only [CostTracker.checkBudget, CostTracker.resetStage, CostTracker.add, hbu, hto,
      CostBudget.warnThresholdUsd]
    norm_num
  · exact hbu
  · simp [CostTracker.resetStage, CostTracker.add, hto]

/-- The stage got through. -/
def Succeeds (out : StageOutcome Unit) : Prop :=
  Unspent out.2.costTracker ∧
    ∃ r, out.1 = .ok r ∧ (r.status = .completed ∨ r.status = .gateApproved)

/-- The stage was rejected if it is a gate, and failed otherwise. -/
def Falters (stage : StageNode) (out : StageOutcome Unit) : Prop :=
  Unspent out.2.costTracker ∧
    (stage.kind = .gate ∧ (∃ r, out.1 = .ok r ∧ r.status = .gateRejected) ∨
      stage.kind ≠ .gate ∧ ∃ text, out.1 = .error (.stageFailure text))

variable {i : Int}

section

variable {e : Engine Unit}

theorem stubborn_succeeds (hco : Unspent e.costTracker) (hne : stage.id ≠ i)
    (hki : stage.kind ≠ .decision) (huses : stage.kind = .action → stage.uses ≠ "") :
    Succeeds (executeStage (stubborn w i) stage e) := by
  rw [executeStage, dispatchStage]
  cases hk : stage.kind with
  | agent =>
    obtain ⟨_, hch, hco'⟩ := hco.checkBudget
    simp only [runAgentStage, stubborn, stubbornRunner, awaitRunner, settleAgentRun, emit]
    rw [hch]
    simp only [hne, validationErrors, validateStageOutput, emitAll, ne_eq,
      not_false_eq_true, decide_true, Bool.not_true, Bool.false_eq_true, if_false,
      filter_nil, map_nil, ite_self, not_true_eq_false]
    exact ⟨hco', _, rfl, .inl rfl⟩
  | gate =>
    simp only [runGateStage, stubborn, stubbornRunner, awaitRunner, emit, hne, ne_eq,
      not_false_eq_true, decide_true, if_true]
    exact ⟨hco, _, rfl, .inr rfl⟩
  | decision => exact absurd hk hki
  | action =>
    simp only [runActionStage, stubborn, stubbornRunner, awaitRunner, emit, hne, ne_eq,
      not_false_eq_true, decide_true, huses hk, if_false, Bool.not_true, Bool.false_eq_true]
    exact ⟨hco, _, rfl, .inl rfl⟩

theorem stubborn_falters (hco : Unspent e.costTracker) (hid : stage.id = i)
    (hki : stage.kind ≠ .decision) : Falters stage (executeStage (stubborn w i) stage e) := by
  rw [executeStage, dispatchStage]
  cases hk : stage.kind with
  | agent =>
    obtain ⟨_, hch, hco'⟩ := hco.checkBudget
    simp only [runAgentStage, stubborn, stubbornRunner, awaitRunner, settleAgentRun, emit]
    rw [hch]
    simp only [hid, emitAll, ne_eq, not_true_eq_false, decide_false, Bool.not_false, if_true]
    exact ⟨hco', .inr ⟨by simp [hk], _, rfl⟩⟩
  | gate =>
    simp only [runGateStage, stubborn, stubbornRunner, awaitRunner, emit, hid, ne_eq,
      not_true_eq_false, decide_false, if_false, Bool.false_eq_true]
    exact ⟨hco, .inl ⟨hk, _, rfl, rfl⟩⟩
  | decision => exact absurd hk hki
  | action =>
    have hga : stage.kind ≠ .gate := by simp [hk]
    by_cases huses : stage.uses = ""
    · simp only [runActionStage, stubborn, huses, if_true]
      exact ⟨hco, .inr ⟨hga, _, rfl⟩⟩
    · simp only [runActionStage, stubborn, stubbornRunner, awaitRunner, emit, hid, ne_eq,
        not_true_eq_false, decide_false, huses, if_false, Bool.not_false, if_true]
      exact ⟨hco, .inr ⟨hga, _, rfl⟩⟩

end

/-! ## §5 A run that never ends -/

theorem dependencySatisfied_congr {s s' : WorkflowState}
    (hco : d ∈ s'.completedStages ↔ d ∈ s.completedStages)
    (hre : s'.stageResults d = s.stageResults d) :
    dependencySatisfied s' d = dependencySatisfied s d := by
  simp only [dependencySatisfied, getStageResult, hre, hco]

theorem dependencySatisfied_completeStage :
    dependencySatisfied (completeStage S stage r e).state d =
      if d = stage.id then decide (r.status = .completed) || decide (r.status = .gateApproved)
      else dependencySatisfied e.state d := by
  split
  · rename_i hd
    simp [dependencySatisfied, getStageResult, completeStage_completedStages,
      completeStage_stageResults, hd]
  · rename_i hd
    apply dependencySatisfied_congr
    · simp [completeStage_completedStages, hd]
    · rw [completeStage_stageResults, Function.update_of_ne hd]

theorem dependencySatisfied_failStage {text : String} (hd : d ≠ stage.id) :
    dependencySatisfied (failStage stage text e).state d = dependencySatisfied e.state d := by
  apply dependencySatisfied_congr
  · simp only [failStage, emit, markStageFailed]
    split <;> rfl
  simp only [failStage, emit, markStageFailed]
  split
  · rfl
  · exact Function.update_of_ne hd _ _

/-- The pass at a stage that is ready. -/
theorem loopStep_of_ready (hco : S.controlState = none) (hi : dag[idx]? = some stage.id)
    (hfo : S.workflow.getStage stage.id = some stage)
    (hre : dependenciesSatisfied e.state stage = true) : loopStep S dag idx m e =
      match (executeStage S stage e).1 with
      | .ok r => settleResult S dag idx m stage r (executeStage S stage e).2
      | .error err => settleError S dag idx stage err (executeStage S stage e).2 := by
  cases hrun : executeStage S stage e with
  | mk out => cases out <;> simp [loopStep, hi, waitForControl, hco, hfo, visitStage, hre, hrun]

/-- A stage whose failure or rejection moves the loop back. -/
def TurnsLoopBack (stage : StageNode) : Prop :=
  stage.onError = .rollback ∨ stage.kind = .gate ∧ stage.gateRollbackTo.isSome

theorem Topological.index_inj (ht : Topological w dag) {p q : Nat}
    (hp : dag[p]? = some i) (hq : dag[q]? = some i) : p = q :=
  (getElem?_inj (List.getElem?_eq_some_iff.mp hp).1 ht.nodup).mp (hp.trans hq.symm)

variable {pos : Nat}

theorem simpleRollbackIndex_le (ht : Topological w dag)
    (hpos : dag[pos]? = some stage.id) (hfo : w.getStage stage.id = some stage) :
    simpleRollbackIndex dag stage ≤ pos := by
  unfold simpleRollbackIndex
  cases hde : stage.dependsOn with
  | nil =>
    cases dag with
    | nil => exact Nat.zero_le _
    | cons => simp [idxOf?_cons]
  | cons d =>
    dsimp only
    rcases hin : dag.idxOf? d with _ | _
    · exact Nat.zero_le _
    have hmem := ht.dep_mem_take hpos hfo (d := d) (by simp [hde])
    obtain ⟨k, _, hget⟩ := mem_take_iff_getElem.mp hmem
    obtain ⟨_, -, hfi⟩ := idxOf?_eq_some_iff.mp hin
    rw [Option.getD_some]
    by_contra hla
    exact hfi k (by omega) hget

/-- The loop is at or before the stubborn stage, and every stage before its
place has passed. -/
structure Stuck (dagOrder : List Int) (pos idx : Nat) (e : Engine Unit) : Prop where
  before : idx ≤ pos
  cost : Unspent e.costTracker
  passed : ∀ p < idx, ∀ j, dagOrder[p]? = some j → dependencySatisfied e.state j = true

variable {s : StageNode}

section

variable (ht : Topological w dag) (hs : w.getStage s.id = some s)
  (hpos : dag[pos]? = some s.id) (hback : TurnsLoopBack s)
  (hdecision : ∀ stage ∈ w.stages, stage.kind ≠ .decision)
  (huses : ∀ stage ∈ w.stages, stage.kind = .action → stage.uses ≠ "")

include ht hs hpos in
/-- Back at an earlier index, after a pass that only touched the stubborn stage. -/
theorem Stuck.back {e e' : Engine Unit} (h : Stuck dag pos pos e) (hco : Unspent e'.costTracker)
    (hst : ∀ d, d ≠ s.id → dependencySatisfied e'.state d = dependencySatisfied e.state d) :
    Stuck dag pos (simpleRollbackIndex dag s) e' := by
  have hle := simpleRollbackIndex_le ht hpos hs
  refine ⟨hle, hco, ?_⟩
  intro p _ j hj
  have hne : j ≠ s.id := by
    rintro rfl
    have hsa := ht.index_inj hj hpos
    omega
  rw [hst j hne]
  exact h.passed p (by omega) j hj

include ht in
theorem Stuck.ready {e : Engine Unit} (h : Stuck dag pos idx e)
    (hi : dag[idx]? = some stage.id) (hfo : w.getStage stage.id = some stage) :
    dependenciesSatisfied e.state stage = true := by
  rw [dependenciesSatisfied, all_eq_true]
  intro d hd
  obtain ⟨p, _, hget⟩ := mem_take_iff_getElem.mp (ht.dep_mem_take hi hfo hd)
  exact h.passed p (by omega) d (by rw [getElem?_eq_getElem (by omega), hget])

include ht hdecision huses in
/-- Before the stubborn stage the loop advances. -/
theorem Stuck.forward {e : Engine Unit} (h : Stuck dag pos idx e) (hi : dag[idx]? = some stage.id)
    (hfo : w.getStage stage.id = some stage) (hne : stage.id ≠ s.id) (hlt : idx < pos)
    (m : Option String) : ∃ e', loopStep (stubborn w s.id) dag idx m e = .next (idx + 1) m e' ∧
      executions e'.eventLog = executions e.eventLog + 1 ∧ Stuck dag pos (idx + 1) e' := by
  have hmem := (w.getStage_some hfo).1
  obtain ⟨hco, r, hr, hst⟩ : Succeeds (executeStage (stubborn w s.id) stage e) :=
    stubborn_succeeds h.cost hne (hdecision stage hmem) (huses stage hmem)
  have hrun := executeStage_run (stubborn w s.id) stage e
  refine ⟨completeStage (stubborn w s.id) stage r (executeStage (stubborn w s.id) stage e).2,
    ?_, ?_, by omega, ?_, ?_⟩
  · rw [loopStep_of_ready rfl hi hfo (h.ready ht hi hfo), hr]
    have hok : ¬ (stage.kind = .gate ∧ r.status = .gateRejected) := by
      rintro ⟨-, hrej⟩
      rcases hst with hst | hst <;> simp [hrej] at hst
    simp only [settleResult, if_neg hok, if_neg (hdecision stage hmem)]
  · rw [completeStage_executions, executeStage_executions]
  · rwa [completeStage_costTracker]
  · intro p hp j hj
    rw [dependencySatisfied_completeStage, hrun.state]
    split
    · rcases hst with hst | hst <;> simp [hst]
    rename_i hot
    have hbe : p < idx := by
      rcases lt_or_eq_of_le (Nat.lt_succ_iff.mp hp) with hp | rfl
      · exact hp
      · rw [hi] at hj
        exact absurd (Option.some.inj hj).symm hot
    exact h.passed p hbe j hj

include ht hs hpos hback hdecision in
/-- At the stubborn stage the loop goes back. -/
theorem Stuck.turn {e : Engine Unit} (h : Stuck dag pos pos e) (m : Option String) :
    ∃ m' e', loopStep (stubborn w s.id) dag pos m e = .next (simpleRollbackIndex dag s) m' e' ∧
      executions e'.eventLog = executions e.eventLog + 1 ∧
      Stuck dag pos (simpleRollbackIndex dag s) e' := by
  have hmem := (w.getStage_some hs).1
  have hrun := executeStage_run (stubborn w s.id) s e
  obtain ⟨hco, hout⟩ : Falters s (executeStage (stubborn w s.id) s e) :=
    stubborn_falters h.cost rfl (hdecision s hmem)
  have hsa : ∀ d, dependencySatisfied (executeStage (stubborn w s.id) s e).2.state d =
      dependencySatisfied e.state d := by
    intro d
    rw [hrun.state]
    rfl
  rcases hout with ⟨hga, r, hr, hst⟩ | ⟨hga, text, hte⟩
  · refine ⟨some (rejectionText s r),
      completeStage (stubborn w s.id) s r (executeStage (stubborn w s.id) s e).2, ?_, ?_, ?_⟩
    · rw [loopStep_of_ready rfl hpos hs (h.ready ht hpos hs), hr]
      have htu : s.onError = .rollback ∨ s.gateRollbackTo.isSome := hback.imp id And.right
      simp only [settleResult, if_pos (And.intro hga hst), if_pos htu]
      rfl
    · rw [completeStage_executions, executeStage_executions]
    · refine h.back ht hs hpos ?_ ?_
      · rwa [completeStage_costTracker]
      · intro d hd
        rw [dependencySatisfied_completeStage, if_neg hd, hsa]
  · have hro : s.onError = .rollback := by
      rcases hback with hro | ⟨hga', -⟩
      · exact hro
      · exact absurd hga' hga
    refine ⟨some text, failStage s text (executeStage (stubborn w s.id) s e).2, ?_, ?_, ?_⟩
    · rw [loopStep_of_ready rfl hpos hs (h.ready ht hpos hs), hte]
      simp only [settleError, hro]
      rfl
    · rw [executions_eq (failStage_trace _ _ _), executeStage_executions]
    · refine h.back ht hs hpos hco ?_
      intro d hd
      rw [dependencySatisfied_failStage hd, hsa]

include ht hs hpos hback hdecision huses in
/-- Every pass goes on, and executes a stage. -/
theorem Stuck.loopFor (n : Nat) {e : Engine Unit} (h : Stuck dag pos idx e)
    (m : Option String) : executions (loopFor (stubborn w s.id) dag n idx m e).eventLog =
      executions e.eventLog + n := by
  induction n generalizing idx m e with
  | zero => rfl
  | succ _ ih =>
    have hlen := (getElem?_eq_some_iff.mp hpos).1
    have hbe := h.before
    rw [loopFor]
    rcases lt_or_eq_of_le h.before with hlt | rfl
    · have hi : dag[idx]? = some dag[idx] := getElem?_eq_getElem (by omega)
      obtain ⟨stage, hfo⟩ := ht.exists_getStage (mem_of_getElem? hi)
      obtain ⟨-, hid⟩ := w.getStage_some hfo
      rw [← hid] at hi hfo
      have hne : stage.id ≠ s.id := by
        intro heq
        rw [heq] at hi
        have hsa := ht.index_inj hi hpos
        omega
      obtain ⟨_, hsp, hone, hst⟩ := h.forward ht hdecision huses hi hfo hne hlt m
      rw [hsp]
      rw [ih hst, hone]
      omega
    · obtain ⟨_, _, hsp, hone, hst⟩ := h.turn ht hs hpos hback hdecision m
      rw [hsp]
      rw [ih hst, hone]
      omega

end

/-- One number bounds the stage executions of every call, whatever the runner,
the configuration and the engine. -/
def ExecutionsBounded (w : WorkflowSchema) : Prop :=
  ∃ N, ∀ (σ : Type) (S : Setup σ), S.workflow = w → ∀ fuel fromStage e,
    executions (executeFor S fuel fromStage e).eventLog ≤ executions e.eventLog + N

/-- **A stubborn stage.** A stage that moves the loop back and never succeeds
keeps a fresh engine going for any number of executions. -/
theorem not_executionsBounded (hdag : w.buildDagOrder = .ok dag)
    (hs : s ∈ w.stages) (hback : TurnsLoopBack s)
    (hdecision : ∀ stage ∈ w.stages, stage.kind ≠ .decision)
    (huses : ∀ stage ∈ w.stages, stage.kind = .action → stage.uses ≠ "") :
    ¬ ExecutionsBounded w := by
  rintro ⟨N, hbo⟩
  have ht := Topological.of_buildDagOrder hdag
  obtain ⟨pos, hlt, hget⟩ := getElem_of_mem (ht.perm.mem_iff.mpr (mem_map_of_mem hs))
  have hpos : dag[pos]? = some s.id := by rw [getElem?_eq_getElem hlt, hget]
  set e := fresh (stubborn w s.id) none () with he
  have hst : Stuck dag pos 0 (prepareRun (stubborn w s.id) dag none e) :=
    ⟨Nat.zero_le _, ⟨rfl, rfl⟩, fun p hp => absurd hp (Nat.not_lt_zero p)⟩
  have hex : executeFor (stubborn w s.id) (N + 1) none e =
      loopFor (stubborn w s.id) dag (N + 1) 0 none (prepareRun (stubborn w s.id) dag none e) := by
    rw [executeFor, show (stubborn w s.id).workflow = w from rfl, hdag]
    rfl
  have hle := hbo Unit (stubborn w s.id) rfl (N + 1) none e
  rw [hex, hst.loopFor ht (w.getStage_of_mem hs) hpos hback hdecision huses] at hle
  have hpr : executions (prepareRun (stubborn w s.id) dag none e).eventLog =
      executions e.eventLog :=
    executions_eq (by simp [prepareRun, emit, trace, mark])
  omega

/-- **Rollbacks are not bounded.** In a workflow without DECISION stages a call
has a bound on its executions if no call starts or no stage moves the loop back.
When every ACTION stage names its action, this is the only case. -/
theorem executionsBounded_iff (w : WorkflowSchema)
    (hdecision : ∀ s ∈ w.stages, s.kind ≠ .decision) :
    ((∃ message, w.buildDagOrder = .error message) ∨ NeverTurnsBack w → ExecutionsBounded w) ∧
    ((∀ s ∈ w.stages, s.kind = .action → s.uses ≠ "") → (ExecutionsBounded w ↔
        (∃ message, w.buildDagOrder = .error message) ∨ NeverTurnsBack w)) := by
  have hsu : (∃ message, w.buildDagOrder = .error message) ∨ NeverTurnsBack w →
      ExecutionsBounded w := by
    rintro (⟨message, hdag⟩ | hback)
    · refine ⟨0, ?_⟩
      rintro σ S rfl _ _ e
      rw [executeFor, hdag]
      exact le_rfl
    · refine ⟨w.stages.length, ?_⟩
      rintro σ S rfl fuel fromStage e
      exact executeFor_executions hback hdecision fuel fromStage e
  refine ⟨hsu, fun huses => ⟨fun hbo => ?_, hsu⟩⟩
  rcases hdag : w.buildDagOrder with message | _
  · exact .inl ⟨message, rfl⟩
  right
  by_contra hback
  obtain ⟨s, hs, htu⟩ : ∃ s ∈ w.stages, TurnsLoopBack s := by
    by_contra hno
    apply hback
    intro s hs
    have hfr : ¬ TurnsLoopBack s := fun htu => hno ⟨s, hs, htu⟩
    rw [TurnsLoopBack, not_or, not_and] at hfr
    exact ⟨hfr.1, fun hga => by simpa using hfr.2 hga⟩
  exact not_executionsBounded hdag hs htu hdecision huses hbo

theorem executionsBounded_diamond : ExecutionsBounded diamond ∧ (ExecutionsBounded diamond ↔
      (∃ message, diamond.buildDagOrder = .error message) ∨ NeverTurnsBack diamond) := by
  have hiff := executionsBounded_iff .diamond (by decide)
  exact ⟨hiff.1 (.inr (by decide)), hiff.2 (by decide)⟩

/-- An implementation and its tests; a failing test run rolls back. -/
def implementAndTest : WorkflowSchema where
  name := "implement and test"
  stages := [
    { id := 1, name := "Implement", kind := .agent },
    { id := 2, name := "Test", kind := .agent, dependsOn := [1], onError := .rollback }]
  distinct := by decide

/-- The tests never pass, and the call never ends. -/
theorem implementAndTest_unbounded : (∀ s ∈ implementAndTest.stages, s.kind ≠ .decision) ∧
      ¬ ExecutionsBounded implementAndTest := by
  refine ⟨by decide, ?_⟩
  have hdag : implementAndTest.buildDagOrder = .ok [1, 2] := by decide +kernel
  have hs : { id := 2, name := "Test", kind := .agent, dependsOn := [1], onError := .rollback } ∈
      implementAndTest.stages := by decide
  exact not_executionsBounded hdag hs (.inl rfl) (by decide) (by decide)

end Orchestratord.Workflow
