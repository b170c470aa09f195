import Orchestratord.Workflow.Chains
import Orchestratord.Workflow.Reruns

/-!
# Counting progress

The completed list is also the count of progress: its length over the number of stages. Booking a
stage appends to the list without looking, so the count is right exactly as long as no stage is
booked that the list has already. The batch scheduler sees to that; the sequential loop does not,
and a decision or a rollback may send it back to a stage that is still on the list.
-/

namespace Orchestratord.Workflow

open Foundation Checkpoint List WorkflowState

variable {σ : Type}

/-! ## §1 Progress of a state -/

variable {w : WorkflowSchema} {dag : List Int}

namespace WorkflowState

def completedCount (s : WorkflowState) : ℕ := s.completedStages.length

/-- `len(stage_statuses)`: no id but those of the stages ever has a status. -/
def totalStages (w : WorkflowSchema) (s : WorkflowState) : ℕ :=
  w.stageIds.countP fun sid => (s.stageStatuses sid).isSome

def progressPct (w : WorkflowSchema) (s : WorkflowState) : ℚ :=
  if s.totalStages w = 0 then 0 else (s.completedCount : ℚ) / s.totalStages w * 100

/-- What the progress figures are to satisfy. -/
structure ProgressKept (w : WorkflowSchema) (s : WorkflowState) : Prop where
  nodup : s.completedStages.Nodup
  count_le : s.completedCount ≤ w.stages.length
  pct_nonneg : 0 ≤ s.progressPct w
  pct_le : s.progressPct w ≤ 100

/-- Lists and dictionaries of the state are about stages of the workflow, and no stage is on the
completed list twice. -/
structure AboutStages (w : WorkflowSchema) (s : WorkflowState) : Prop where
  nodup : s.completedStages.Nodup
  completed : ∀ sid ∈ s.completedStages, sid ∈ w.stageIds
  results : ∀ sid, (s.stageResults sid).isSome → sid ∈ w.stageIds
  statuses : ∀ sid, (s.stageStatuses sid).isSome → sid ∈ w.stageIds

/-- A state that a run may begin with: a stage is completed only if the stages could be ordered. -/
structure Startable (w : WorkflowSchema) (s : WorkflowState) : Prop extends AboutStages w s where
  ordered : s.completedStages ≠ [] → ∃ dagOrder, w.buildDagOrder = .ok dagOrder

/-- Once a stage is completed every stage has a status. -/
structure Tracked (w : WorkflowSchema) (s : WorkflowState) : Prop extends Startable w s where
  announced : s.completedStages ≠ [] → ∀ sid ∈ w.stageIds, (s.stageStatuses sid).isSome

/-- A state of a scheduler at work, which has announced every stage. -/
structure Underway (w : WorkflowSchema) (s : WorkflowState) : Prop extends AboutStages w s where
  announced : ∀ sid ∈ w.stageIds, (s.stageStatuses sid).isSome
  ordered : ∃ dagOrder, w.buildDagOrder = .ok dagOrder

variable {s : WorkflowState} {sid : Int}

theorem Tracked.totalStages_eq (h : s.Tracked w) (hso : s.completedStages ≠ []) :
    s.totalStages w = w.stages.length := by
  rw [totalStages, countP_eq_length.mpr (h.announced hso), WorkflowSchema.stageIds, length_map]

theorem Tracked.progressKept (h : s.Tracked w) : s.ProgressKept w := by
  have hco : s.completedCount ≤ w.stages.length := by
    have hle := (subperm_of_subset h.nodup h.completed).length_le
    rwa [WorkflowSchema.stageIds, length_map] at hle
  refine ⟨h.nodup, hco, ?_, ?_⟩
  · unfold progressPct
    split
    · exact le_refl 0
    · positivity
  unfold progressPct
  split
  · norm_num
  rename_i hto
  by_cases hso : s.completedStages = []
  · simp [completedCount, hso]
  rw [h.totalStages_eq hso] at hto ⊢
  have hpos : (0 : ℚ) < w.stages.length := by exact_mod_cast pos_of_ne_zero hto
  have hra : (s.completedCount : ℚ) / w.stages.length ≤ 1 :=
    (div_le_one hpos).mpr (by exact_mod_cast hco)
  linarith

/-! ## §2 What the engine does to a state -/

theorem isSome_setStatus (s : WorkflowState) (sid : Int) (status : StageStatus) (i : Int) :
    ((s.setStatus sid status).stageStatuses i).isSome ↔ i = sid ∨ (s.stageStatuses i).isSome := by
  by_cases hi : i = sid
  all_goals simp [setStatus, hi]

theorem isSome_initStatuses (stages : List StageNode) (s : WorkflowState) (i : Int) :
    ((initStatuses stages s).stageStatuses i).isSome ↔
      i ∈ stages.map (·.id) ∨ (s.stageStatuses i).isSome := by
  unfold initStatuses
  induction stages generalizing s with
  | nil => simp
  | cons _ _ ih =>
    rw [foldl_cons, ih, isSome_setStatus, map_cons, mem_cons]
    tauto

theorem isSome_foldl_pending (ids : List Int) (m : Int → Option StageStatus) (i : Int) :
    (ids.foldl (fun m sid => Function.update m sid (some .pending)) m i).isSome ↔
      i ∈ ids ∨ (m i).isSome := by
  induction ids generalizing m with
  | nil => simp
  | cons sid _ ih =>
    rw [foldl_cons, ih]
    by_cases hi : i = sid
    · simp [hi]
    · simp [hi]

namespace Underway

variable (h : s.Underway w)

include h

theorem tracked : s.Tracked w := ⟨⟨h.toAboutStages, fun _ => h.ordered⟩, fun _ => h.announced⟩

variable (hsid : sid ∈ w.stageIds)

include hsid

theorem setStatus (status : StageStatus) : (s.setStatus sid status).Underway w := by
  refine ⟨{ h with statuses := fun i hi => ?_ }, fun i hi => ?_, h.ordered⟩
  · rcases (isSome_setStatus s sid status i).mp hi with rfl | hold
    · exact hsid
    · exact h.statuses i hold
  · exact (isSome_setStatus s sid status i).mpr (.inr (h.announced i hi))

theorem setResult (r : StageResult) :
    { s with stageResults := Function.update s.stageResults sid (some r) }.Underway w := by
  refine ⟨{ h with results := fun i hi => ?_ }, h.announced, h.ordered⟩
  by_cases hsa : i = sid
  · exact hsa ▸ hsid
  · exact h.results i (by simpa [hsa] using hi)

theorem setCompleted (hnew : sid ∉ s.completedStages) :
    { s with completedStages := s.completedStages ++ [sid] }.Underway w := by
  refine ⟨⟨concat_eq_append ▸ h.nodup.concat hnew, fun i hi => ?_, h.results, h.statuses⟩,
    h.announced, h.ordered⟩
  rcases mem_append.mp hi with hold | hla
  · exact h.completed i hold
  · exact mem_singleton.mp hla ▸ hsid

omit hsid in
theorem rollback (target failed : Int) : (updateStateOnRollback s target failed).Underway w := by
  refine ⟨⟨?_, fun i hi => h.completed i (mem_updateStateOnRollback.mp hi).1, fun i hi => ?_,
    fun i hi => ?_⟩, fun i hi => ?_, h.ordered⟩
  · show List.Nodup (List.foldl List.erase s.completedStages _)
    rw [foldl_erase_filter (fun sid => decide (target < sid))]
    exact h.nodup.filter _
  · rw [updateStateOnRollback_result] at hi
    split at hi
    · cases hi
    · exact h.results i hi
  · rcases (isSome_foldl_pending _ _ i).mp hi with hre | hold
    · exact h.completed i (List.mem_filter.mp hre).1
    · exact h.statuses i hold
  · exact (isSome_foldl_pending _ _ i).mpr (.inr (h.announced i hi))

theorem markStageRunning : (s.markStageRunning sid).Underway w :=
  { h.setStatus hsid .running with }

theorem markStageFailed (text : String) : (s.markStageFailed sid text).Underway w := by
  unfold WorkflowState.markStageFailed
  split
  · exact h.setStatus hsid .failed
  · exact (h.setStatus hsid .failed).setResult hsid _

theorem markStageCompleted (hnew : sid ∉ s.completedStages)
    (r : StageResult) : (s.markStageCompleted sid r).Underway w :=
  { ((h.setStatus hsid r.status).setCompleted hsid hnew).setResult hsid r with }

omit hsid

theorem foldl_assumeCompleted {ids : List Int} (hids : ∀ sid ∈ ids, sid ∈ w.stageIds) :
    (ids.foldl assumeCompleted s).Underway w := by
  induction ids generalizing s with
  | nil => exact h
  | cons sid _ ih =>
    have hsid := hids sid mem_cons_self
    refine ih ?_ fun i hi => hids i (mem_cons_of_mem _ hi)
    unfold assumeCompleted
    split
    · exact h
    · rename_i hnew
      exact (h.setStatus hsid .completed).setCompleted hsid hnew

end Underway

theorem Tracked.restored (h : s.Tracked w) (history : List DecisionRecord) :
    (ofState s history).restoreState.Startable w := by
  -- the statuses of a restored state are those of its results
  refine ⟨⟨h.nodup, h.completed, fun i hi => h.results i ?_, fun i hi => h.results i ?_⟩, h.ordered⟩
  all_goals simpa [restoreState, ofState] using hi

theorem startable_fresh (w : WorkflowSchema) :
    ({ workflowName := w.name, workflowVersion := w.version } : WorkflowState).Startable w :=
  ⟨⟨nodup_nil, nofun, nofun, nofun⟩, fun h => absurd rfl h⟩

/-- Without an order no stage was ever completed. -/
theorem Startable.stuck (h : s.Startable w) {message : String}
    (hdag : w.buildDagOrder = .error message) : s.Tracked w := by
  refine ⟨h, fun hso => ?_⟩
  obtain ⟨_, hok⟩ := h.ordered hso
  rw [hdag] at hok
  cases hok

theorem Startable.prepared (h : s.Startable w) (hdag : w.buildDagOrder = .ok dag) (n : Nat) :
    ((dag.take n).foldl assumeCompleted (initStatuses w.stages s)).Underway w := by
  obtain ⟨hco, hre⟩ := initStatuses_state w.stages s
  have hrd : (initStatuses w.stages s).Underway w := by
    refine ⟨⟨?_, ?_, ?_, fun i hi => ?_⟩, fun i hi => ?_, dag, hdag⟩
    · rw [hco]
      exact h.nodup
    · rw [hco]
      exact h.completed
    · rw [hre]
      exact h.results
    · exact ((isSome_initStatuses w.stages s i).mp hi).elim id (h.statuses i)
    · exact (isSome_initStatuses w.stages s i).mpr (.inl hi)
  refine hrd.foldl_assumeCompleted fun sid hsid => ?_
  exact (Topological.of_buildDagOrder hdag).perm.mem_iff.mp (mem_of_mem_take hsid)

end WorkflowState

/-- The engine has gone on: its state is that of a scheduler at work, and the checkpoint on disk
is the one that was there, or one of such a state. -/
structure Keeps (w : WorkflowSchema) (e e' : Engine σ) : Prop where
  state : e'.state.Underway w
  disk : e'.checkpoint = e.checkpoint ∨
    ∃ s history, s.Underway w ∧ e'.checkpoint = some (ofState s history)

variable {e e' : Engine σ}

theorem Keeps.trans {e'' : Engine σ} (h : Keeps w e e') (h' : Keeps w e' e'') : Keeps w e e'' := by
  refine ⟨h'.state, ?_⟩
  rcases h'.disk with hsm | hsa
  · rw [hsm]
    exact h.disk
  · exact .inr hsa

variable {S : Setup σ} {stage : StageNode} {r : StageResult} {idx : Nat} {m : Option String}

section

variable {p : Parallel σ}

theorem keeps_completeStage (h : (e.state.markStageCompleted stage.id r).Underway S.workflow) :
    Keeps S.workflow e (completeStage S stage r e) := by
  unfold completeStage saveCheckpoint
  split
  · exact ⟨h, .inl rfl⟩
  have hcu : { e.state.markStageCompleted stage.id r with
      currentStage := stage.id }.Underway S.workflow := { h with }
  refine ⟨hcu, ?_⟩
  dsimp only [Engine.emit]
  split
  · exact .inr ⟨_, _, hcu, rfl⟩
  · exact .inl rfl

variable (h : e.state.Underway S.workflow)
include h

theorem StageRun.keeps {out : StageOutcome σ} (hrun : StageRun stage e out)
    (hst : stage.id ∈ S.workflow.stageIds) : Keeps S.workflow e out.2 := by
  refine ⟨?_, .inl hrun.checkpoint⟩
  rw [hrun.state]
  exact h.markStageRunning hst

theorem keeps_failStage (hst : stage.id ∈ S.workflow.stageIds) (text : String) :
    Keeps S.workflow e (failStage stage text e) :=
  ⟨h.markStageFailed hst text, .inl rfl⟩

theorem keeps_rollbackToStage (dag : List Int) (stage : StageNode) :
    Keeps S.workflow e (rollbackToStage S dag stage e).2 := by
  unfold rollbackToStage
  split
  · dsimp only
    split
    · exact ⟨h, .inl rfl⟩
    · split
      all_goals exact ⟨h.rollback _ _, .inl rfl⟩
  · exact ⟨h, .inl rfl⟩

theorem keeps_handleGateRejection (dag : List Int) (hst : stage.id ∈ S.workflow.stageIds)
    (r : StageResult) : Keeps S.workflow e (handleGateRejection S dag stage r e).2 := by
  unfold handleGateRejection
  split
  · dsimp only [Engine.emit]
    split
    · exact ⟨(h.rollback _ _).setStatus hst _, .inl rfl⟩
    · exact ⟨h.rollback _ _, .inl rfl⟩
  · exact keeps_rollbackToStage h dag stage

/-- A stage of the loop that is not on the list is run and booked. -/
theorem Started.keeps_completeStage (hst : Started S dag idx e stage (.ok r, e'))
    (hnew : stage.id ∉ e.state.completedStages) : Keeps S.workflow e (completeStage S stage r e') := by
  have hran : Keeps S.workflow e e' := hst.run.keeps h hst.mem_stageIds
  refine hran.trans (Workflow.keeps_completeStage ?_)
  refine hran.state.markStageCompleted hst.mem_stageIds ?_ r
  rwa [hst.run.state]

/-- A pass of the loop, if the stage that it books is not on the list. -/
theorem Pass.keeps {step : LoopStep σ} (hpa : Pass S dag idx m e step)
    (hnew : ∀ stage r e', Started S dag idx e stage (.ok r, e') →
      stage.id ∉ e.state.completedStages) : Keeps S.workflow e step.engine := by
  have hbo : ∀ stage r e', Started S dag idx e stage (.ok r, e') →
      Keeps S.workflow e (completeStage S stage r e') := fun stage r e' hst =>
    hst.keeps_completeStage h (hnew stage r e' hst)
  have hran : ∀ {stage err e'}, Started S dag idx e stage (.error err, e') →
      Keeps S.workflow e e' := fun hst => hst.run.keeps h hst.mem_stageIds
  have hfa : ∀ stage err e' text, Started S dag idx e stage (.error err, e') →
      Keeps S.workflow e (failStage stage text e') := fun stage err e' text hst =>
    (hran hst).trans (keeps_failStage (hran hst).state hst.mem_stageIds text)
  cases hpa with
  | ended | cancelled | absent => exact ⟨h, .inl rfl⟩
  | skipped _ _ _ hsg =>
    exact ⟨h.setStatus (mem_map_of_mem (S.workflow.getStage_some hsg).1) _, .inl rfl⟩
  | completed stage r e' hst | refused stage r e' hst => exact hbo stage r e' hst
  | accepted stage r e' hst =>
    have hke := hbo stage r e' hst
    exact ⟨hke.state.setResult hst.mem_stageIds _, hke.disk⟩
  | turnedBack stage r e' hst =>
    have hke := hbo stage r e' hst
    exact hke.trans (keeps_handleGateRejection hke.state dag hst.mem_stageIds r)
  | broke stage err e' hst | passedOver stage err e' hst => exact hfa stage err e' _ hst
  | rolledBack stage text e' hst =>
    have hke := hfa stage _ e' text hst
    exact hke.trans (keeps_rollbackToStage hke.state dag stage)
  | aborted _ _ _ hst => exact ⟨(hran hst).state, (hran hst).disk⟩
  | raised _ _ _ hst => exact hran hst

theorem keeps_runBatch {batch : List StageNode}
    (hba : ∀ stage ∈ batch, stage ∈ S.workflow.stages) : Keeps S.workflow e (runBatch S batch e).2 := by
  induction batch generalizing e with
  | nil => exact ⟨h, .inl rfl⟩
  | cons stage _ ih =>
    have hran := (executeStage_run S stage e).keeps h (mem_map_of_mem (hba stage mem_cons_self))
    exact hran.trans (ih hran.state fun s hs => hba s (mem_cons_of_mem _ hs))

theorem keeps_skipAll {stages : List StageNode} (hst : ∀ s ∈ stages, s ∈ S.workflow.stages) :
    Keeps S.workflow e (skipAll stages e) := by
  induction stages generalizing e with
  | nil => exact ⟨h, .inl rfl⟩
  | cons stage _ ih =>
    have hsk : Keeps S.workflow e (skipStage stage e) :=
      ⟨h.setStatus (mem_map_of_mem (hst stage mem_cons_self)) _, .inl rfl⟩
    exact hsk.trans (ih hsk.state fun s hs => hst s (mem_cons_of_mem _ hs))

omit h

/-- Settling an outcome of a stage that is not on the list. -/
theorem keeps_settleOutcome {outcome : StageNode × Except EngineError StageResult}
    (hst : outcome.1.id ∈ S.workflow.stageIds)
    (hnew : outcome.1.id ∉ p.engine.state.completedStages)
    (h : p.engine.state.Underway S.workflow) :
    Keeps S.workflow p.engine (settleOutcome S p outcome).engine := by
  obtain ⟨e, hen, hse⟩ := settleOutcome_engine S p outcome
  have hch : Keeps S.workflow p.engine e := ⟨hen.state ▸ h, .inl hen.checkpoint⟩
  rcases hse with ⟨text, heq⟩ | ⟨r, heq⟩
  · rw [heq]
    exact hch.trans (keeps_failStage hch.state hst _)
  · rw [heq]
    refine hch.trans (keeps_completeStage (hch.state.markStageCompleted hst ?_ r))
    rwa [hen.state]

/-- Settling the outcomes of distinct stages none of which is on the list. -/
theorem keeps_foldl_settleOutcome {outs : List (StageNode × Except EngineError StageResult)}
    (hst : ∀ o ∈ outs, o.1.id ∈ S.workflow.stageIds) (hno : (outs.map (·.1.id)).Nodup)
    (hnew : ∀ o ∈ outs, o.1.id ∉ p.engine.state.completedStages)
    (h : p.engine.state.Underway S.workflow) :
    Keeps S.workflow p.engine (outs.foldl (settleOutcome S) p).engine := by
  induction outs generalizing p with
  | nil => exact ⟨h, .inl rfl⟩
  | cons out _ ih =>
    rw [map_cons, nodup_cons] at hno
    have hfi := keeps_settleOutcome (hst out mem_cons_self) (hnew out mem_cons_self) h
    refine hfi.trans (ih (fun o ho => hst o (mem_cons_of_mem _ ho)) hno.2
      (fun o ho hsid => ?_) hfi.state)
    rcases mem_settleOutcome hsid with hold | heq
    · exact hnew o (mem_cons_of_mem _ ho) hold
    · exact hno.1 (heq ▸ mem_map_of_mem ho)

/-- Outcomes of the next batch are settled. -/
theorem keeps_batchBooked (hpe : Chain.Pending S p.pending p.engine.state)
    (h : p.engine.state.Underway S.workflow) (n : Nat) :
    Keeps S.workflow p.engine (batchBooked S n p).engine := by
  have hsub := batchToRun_sublist S p
  have hco : Keeps S.workflow p.engine (waitForControl S p.engine).2 :=
    ⟨(waitForControl_state S p.engine).symm ▸ h, .inl (quiet_waitForControl S p.engine).checkpoint⟩
  have hran := keeps_runBatch hco.state fun stage hst => hpe.stages.subset (hsub.subset hst)
  have hsp := runBatch_spec S (batchToRun S p).1 (waitForControl S p.engine).2
  -- a stage that was run is one of the batch
  have hmem : ∀ o ∈ (runBatch S (batchToRun S p).1 (waitForControl S p.engine).2).1.take n,
      o.1 ∈ p.pending := by
    intro o ho
    apply hsub.subset
    rw [← hsp.1]
    exact mem_map_of_mem (mem_of_mem_take ho)
  refine hco.trans (hran.trans (keeps_foldl_settleOutcome
    (p := { p with engine := (runBatch S _ (waitForControl S p.engine).2).2 })
    (fun o ho => mem_map_of_mem (hpe.stages.subset (hmem o ho))) ?_ (fun o ho => ?_)
    hran.state))
  · refine (hpe.nodup.sublist (hsub.map _)).sublist ?_
    rw [← runBatch_ids S (batchToRun S p).1 (waitForControl S p.engine).2]
    exact (take_sublist _ _).map _
  · rw [hsp.2.1, waitForControl_state]
    exact hpe.fresh _ (hmem o ho)

end

/-! ## §3 Every call of `execute` -/

inductive ExecuteStep where
  | chain (i : ChainStep)
  /-- A new engine, with nothing loaded. -/
  | renew
  /-- `WorkflowRunner.run` gives its engine a new state. -/
  | reset
  /-- `execute` is called on the engine at hand. -/
  | execute (fromStage : Option Int)
  /-- `WorkflowResumer.resume`. -/
  | resume

namespace Chain

/-- A step of a chain, or a call of `execute` by another way. -/
def move (S : Setup σ) (c : Chain σ) : ExecuteStep → Chain σ
  | .chain i => c.step S i
  | .renew =>
    match c.mode with
    | .idle => ⟨.fresh S c.engine.checkpoint c.engine.env, .idle, 0⟩
    | _ => c
  | .reset =>
    match c.mode with
    | .idle => ⟨{ c.engine with state := (Engine.fresh S none c.engine.env).state }, .idle, c.spent⟩
    | _ => c
  | .execute fromStage =>
    match c.mode with
    | .idle => launch S fromStage c.engine c.spent
    | _ => c
  | .resume =>
    match c.mode, c.engine.checkpoint with
    | .idle, some d =>
      launch S (some d.currentStage)
        { c.engine with
          state := d.restoreState
          costTracker := c.engine.costTracker.loadState d.costAccumulatedUsd } c.spent
    | _, _ => c

/-- The states that a step goes through: the one it ends in, and those between the bookings of an
iteration. -/
def Passes (S : Setup σ) (c : Chain σ) (i : ExecuteStep) (c' : Chain σ) : Prop :=
  c' = c.move S i ∨ (i = .chain .advance ∧ ∃ n, c' = c.cutBooked S n)

/-- The stage that the next pass of the sequential loop books. -/
def nextBooked (S : Setup σ) (c : Chain σ) : Option Int :=
  match c.mode with
  | .looping dagOrder idx _ =>
    match stageToRun S dagOrder idx c.engine with
    | some (stage, e) => if (executeStage S stage e).1.isOk then some stage.id else none
    | none => none
  | _ => none

/-- It is not on the completed list. -/
def NextIsNew (S : Setup σ) (c : Chain σ) : Prop :=
  ∀ sid ∈ c.nextBooked S, sid ∉ c.engine.state.completedStages

instance (S : Setup σ) (c : Chain σ) : Decidable (c.NextIsNew S) := by
  unfold NextIsNew
  infer_instance

def BooksNew (S : Setup σ) (c : Chain σ) : ExecuteStep → Prop
  | .chain .advance | .chain (.cutBooked _) => c.NextIsNew S
  | _ => True

variable {c : Chain σ}

theorem Placed.move (h : Placed S c) (i : ExecuteStep) : Placed S (c.move S i) := by
  cases i with
  | chain i => exact h.step i
  | renew | reset =>
    dsimp only [Chain.move]
    split
    · trivial
    · exact h
  | execute | resume =>
    dsimp only [Chain.move]
    split
    · exact placed_launch S _ _ _
    · exact h

/-- However the runs of a workflow are begun, resumed and cut off: the loop goes through the
computed order, and the batch scheduler has only actions pending that are not completed. -/
theorem placed_throughout (env : σ) (steps : List ExecuteStep) :
    Placed S (runFrom (move S) (start S env) steps) :=
  Guarded.always (fun _ i h => h.move i) trivial steps

/-- The loop runs a stage that is not on the list. -/
theorem NextIsNew.started (h : c.NextIsNew S) (hmo : c.mode = .looping dag idx m)
    (hst : Started S dag idx c.engine stage (.ok r, e')) :
    stage.id ∉ c.engine.state.completedStages := by
  apply h stage.id
  simp only [nextBooked, hmo, hst.stageToRun, hst.settled]
  rfl

/-! ## §4 What holds in every state -/

/-- The figures of the state and of the checkpoint on disk are about stages of the workflow, each
counted once. -/
structure Tracks (S : Setup σ) (c : Chain σ) : Prop where
  state : c.engine.state.Tracked S.workflow
  working : (∀ m, c.mode ≠ .ended m) → c.mode ≠ .idle → c.engine.state.Underway S.workflow
  disk : ∀ d, c.engine.checkpoint = some d →
    ∃ s history, s.Tracked S.workflow ∧ d = ofState s history

variable (h : Tracks S c)

include h

/-- The engine has gone on with its work. -/
theorem Tracks.next (hke : Keeps S.workflow c.engine e)
    (mode : Mode) (spent : ℚ) : Tracks S ⟨e, mode, spent⟩ := by
  refine ⟨hke.state.tracked, fun _ _ => hke.state, fun d hd => ?_⟩
  rcases hke.disk with hsm | ⟨s, history, hs, hsa⟩
  · exact h.disk d (hsm ▸ hd)
  · exact ⟨s, history, hs.tracked, Option.some.inj (hd.symm.trans hsa)⟩

theorem Tracks.dead (spent : ℚ) : Tracks S ⟨c.engine, .idle, spent⟩ :=
  ⟨h.state, fun _ hid => absurd rfl hid, h.disk⟩

theorem Tracks.saveStateOnly (spent : ℚ) : Tracks S ⟨saveStateOnly S c.engine, .idle, spent⟩ := by
  unfold Workflow.saveStateOnly
  split
  · exact h.dead spent
  refine ⟨h.state, fun _ hid => absurd rfl hid, fun d hd => ?_⟩
  dsimp only at hd
  split at hd
  · exact ⟨_, _, h.state, (Option.some.inj hd).symm⟩
  · exact h.disk d hd

/-- What a new run loads. -/
theorem Tracks.loaded : (c.loaded S).state.Startable S.workflow ∧
    (c.loaded S).checkpoint = c.engine.checkpoint := by
  unfold Chain.loaded resumeEngine
  rcases hdi : c.engine.checkpoint with _ | d
  · exact ⟨startable_fresh S.workflow, rfl⟩
  obtain ⟨s, history, hs, rfl⟩ := h.disk d hdi
  dsimp only
  split
  · exact ⟨startable_fresh S.workflow, rfl⟩
  · exact ⟨hs.restored history, rfl⟩

theorem Tracks.launch (hst : e.state.Startable S.workflow)
    (hdi : e.checkpoint = c.engine.checkpoint) (fromStage : Option Int) (spent : ℚ) :
    Tracks S (launch S fromStage e spent) := by
  rcases launch_cases S fromStage e spent with
    ⟨message, hdag, hla⟩ | ⟨dag, mode, hdag, hla, -⟩
  · rw [hla]
    refine ⟨hst.stuck hdag, fun hen _ => absurd rfl (hen _), ?_⟩
    rw [hdi]
    exact h.disk
  · rw [hla]
    exact h.next (e := prepareRun S dag fromStage e)
      ⟨hst.prepared hdag (startIndex dag fromStage), .inl hdi⟩ mode spent

theorem Tracks.advance (hpl : Placed S c) (hnew : c.NextIsNew S) : Tracks S (c.advance S) := by
  have hend : ∀ {e : Engine σ} m spent, Keeps S.workflow c.engine e →
      Tracks S ⟨closeRun m e, .ended m, spent⟩ := by
    intro e m _ hke
    refine h.next ?_ _ _
    unfold closeRun
    split
    · split <;> exact ⟨hke.state, hke.disk⟩
    · exact ⟨hke.state, hke.disk⟩
  obtain ⟨e, mode, _⟩ := c
  cases mode with
  | idle | ended => exact h
  | looping dag idx m =>
    have hke := (Pass.of_loopStep S dag idx m e).keeps (h.working nofun nofun)
      fun stage r e' hsd => hnew.started rfl hsd
    dsimp only [Chain.advance]
    cases hst : loopStep S dag idx m e with
    | next =>
      rw [hst] at hke
      exact h.next hke _ _
    | stop m' =>
      rw [hst] at hke
      exact hend m' _ hke
    | raise =>
      rw [hst] at hke
      exact h.next hke _ _
  | batching pending m =>
    have hwo := h.working nofun nofun
    have hpe : Pending S pending e.state := hpl
    dsimp only [Chain.advance]
    rcases batchStep_cases S { pending, errorMsg := m, engine := e } with
      ⟨-, skipped, env, p', hsp, hsk, he'⟩ | ⟨p', hp', hgo⟩
    · have hke : Keeps S.workflow e p'.engine := by
        rw [he']
        have hski := keeps_skipAll (e := { e with env := env }) hwo
          fun s hs => hpe.stages.subset (hsk.subset hs)
        exact ⟨hski.state, hski.disk⟩
      rw [hsp]
      exact hend p'.errorMsg _ hke
    · have hke := keeps_batchBooked (p := { pending, errorMsg := m, engine := e }) hpe
        hwo (batchToRun S { pending, errorMsg := m, engine := e }).1.length
      rw [← hp'] at hke
      rcases hgo with hne | hsp
      · rw [hne]
        exact h.next hke _ _
      · rw [hsp]
        exact hend p'.errorMsg _ hke

theorem Tracks.cutRun (hpl : Placed S c) (n : Nat) : Tracks S (c.cutRun S n) := by
  obtain ⟨e, mode, spent⟩ := c
  have hco := (quiet_waitForControl S e).checkpoint
  cases mode with
  | idle | ended => exact h.dead spent
  | looping =>
    dsimp only [Chain.cutRun]
    split
    · exact h.dead spent
    · rename_i stage e₁ hrun
      obtain ⟨rfl, hst⟩ := started_of_stageToRun hrun
      exact h.next (hst.run.keeps (h.working nofun nofun) hst.mem_stageIds) _ _
  | batching pending m =>
    have hwo : (waitForControl S e).2.state.Underway S.workflow := by
      rw [waitForControl_state]
      exact h.working nofun nofun
    have hpe : Pending S pending e.state := hpl
    have hba : ∀ stage ∈ (batchToRun S { pending, errorMsg := m, engine := e }).1.take n,
        stage ∈ S.workflow.stages := fun stage hsg =>
      hpe.stages.subset ((batchToRun_sublist S _).subset (mem_of_mem_take hsg))
    have hke := keeps_runBatch hwo hba
    refine h.next ⟨hke.state, ?_⟩ _ _
    exact hco ▸ hke.disk

theorem Tracks.cutBooked (hpl : Placed S c) (hnew : c.NextIsNew S) (n : Nat) :
    Tracks S (c.cutBooked S n) := by
  obtain ⟨e, mode, spent⟩ := c
  cases mode with
  | idle | ended => exact h.dead spent
  | looping =>
    have hwo := h.working nofun nofun
    dsimp only [Chain.cutBooked]
    split
    · exact h.dead spent
    rename_i stage e₁ hrun
    obtain ⟨rfl, hst⟩ := started_of_stageToRun hrun
    cases hout : executeStage S stage (waitForControl S e).2 with
    | mk out =>
      rw [hout] at hst
      cases out with
      | error => exact h.next (hst.run.keeps hwo hst.mem_stageIds) _ _
      | ok => exact h.next (hst.keeps_completeStage hwo (hnew.started rfl hst)) _ _
  | batching pending m =>
    exact h.next (keeps_batchBooked (p := { pending, errorMsg := m, engine := e }) hpl
      (h.working nofun nofun) n) _ _

theorem Tracks.step (hpl : Placed S c) (i : ChainStep)
    (hnew : (i = .advance ∨ ∃ n, i = .cutBooked n) → c.NextIsNew S) : Tracks S (c.step S i) := by
  cases i with
  | begin =>
    dsimp only [Chain.step]
    split
    · exact h.launch h.loaded.1 h.loaded.2 _ _
    · exact h
  | advance => exact h.advance hpl (hnew (.inl rfl))
  | cutRun n => exact h.cutRun hpl n
  | cutBooked n => exact h.cutBooked hpl (hnew (.inr ⟨n, rfl⟩)) n
  | kill => exact h.dead c.spent
  | close =>
    dsimp only [Chain.step]
    unfold close
    split
    · exact ⟨h.state, fun _ hid => absurd rfl hid, nofun⟩
    · exact h.dead c.spent
    · exact h.saveStateOnly c.spent
    · exact h
  | shutdown =>
    dsimp only [Chain.step]
    split
    · exact h
    · exact h.saveStateOnly c.spent

omit h in
theorem tracks_start (S : Setup σ) (env : σ) : Tracks S (start S env) :=
  ⟨⟨startable_fresh S.workflow, fun h => absurd rfl h⟩, fun _ hid => absurd rfl hid, nofun⟩

theorem Tracks.passes (hpl : Placed S c) {i : ExecuteStep} (hnew : BooksNew S c i)
    {c' : Chain σ} (hpa : Passes S c i c') : Tracks S c' := by
  have hfr : Tracks S (start S c.engine.env) := tracks_start S c.engine.env
  rcases hpa with rfl | ⟨rfl, n, rfl⟩
  · cases i with
    | chain i =>
      apply h.step hpl i
      rintro (rfl | ⟨n, rfl⟩)
      · exact hnew
      · exact hnew
    | renew | reset =>
      dsimp only [move]
      split
      · exact ⟨hfr.state, fun _ hid => absurd rfl hid, h.disk⟩
      · exact h
    | execute =>
      dsimp only [move]
      split
      · exact h.launch h.state.toStartable rfl _ _
      · exact h
    | resume =>
      dsimp only [move]
      split
      · rename_i d _ hd
        obtain ⟨s, history, hs, rfl⟩ := h.disk d hd
        refine h.launch ?_ ?_ _ _
        · exact hs.restored history
        · rfl
      · exact h
  · exact h.cutBooked hpl hnew n

omit h

/-- A stage that is booked again is on the list twice at the time. -/
theorem nextIsNew_of_cutBooked {n : Nat}
    (hcut : (c.cutBooked S n).engine.state.completedStages.Nodup) : c.NextIsNew S := by
  intro _ hsid
  unfold nextBooked at hsid
  split at hsid
  · rename_i dag idx m hmo
    split at hsid
    · rename_i stage e₁ hrun
      obtain ⟨rfl, hst⟩ := started_of_stageToRun hrun
      simp only [cutBooked, hmo, hrun] at hcut
      cases hout : executeStage S stage (waitForControl S c.engine).2 with
      | mk out =>
        rw [hout] at hsid hcut hst
        rcases out with _ | _
        · cases hsid
        cases hsid
        rw [completeStage_completedStages, hst.run.state] at hcut
        rw [← concat_eq_append, nodup_concat] at hcut
        exact hcut.1
    · cases hsid
  · cases hsid

/-- **The progress figures are right throughout if and only if no pass books a stage that the
completed list has already.** -/
theorem progressKept_throughout_iff (S : Setup σ) (env : σ) (steps : List ExecuteStep) :
    (∀ done i c', done ++ [i] <+: steps → Passes S (runFrom (move S) (start S env) done) i c' →
      c'.engine.state.ProgressKept S.workflow) ↔
    Guarded (move S) (BooksNew S) (start S env) steps := by
  constructor
  · intro hke
    rw [Guarded.iff_forall]
    intro done i hpre
    unfold BooksNew
    split
    · exact nextIsNew_of_cutBooked (hke done _ _ hpre (.inr ⟨rfl, 0, rfl⟩)).nodup
    · exact nextIsNew_of_cutBooked (hke done _ _ hpre (.inl rfl)).nodup
    · trivial
  · intro hgu done i _ hpre hpa
    have hbe : Guarded (move S) (BooksNew S) (start S env) done :=
      hgu.of_prefix ((prefix_append done [i]).trans hpre)
    have hkp : ∀ c i, Placed S c ∧ Tracks S c → BooksNew S c i →
        Placed S (move S c i) ∧ Tracks S (move S c i) :=
      fun c i h hok => ⟨h.1.move i, h.2.passes h.1 hok (.inl rfl)⟩
    obtain ⟨hpl, htr⟩ := hbe.invariant hkp ⟨trivial, tracks_start S env⟩
    exact (htr.passes hpl (hgu.of_prefix hpre).last hpa).state.progressKept

/-- A draft and the decision about it, up to the decision. -/
theorem progressKept_refine :
    ∀ done i c', done ++ [i] <+: [.chain .begin, .chain .advance, .chain .advance] →
      Passes refineSetup (runFrom (move refineSetup) (start refineSetup ()) done) i c' →
      c'.engine.state.ProgressKept refineWorkflow := by
  refine (progressKept_throughout_iff refineSetup () _).mpr ⟨trivial, ?_, ?_, trivial⟩
  all_goals
    show NextIsNew refineSetup _
    decide +kernel

/-- The decision sends the loop back to the draft, which counts twice then. -/
theorem refine_counts_twice :
    let c := runFrom (move refineSetup) (start refineSetup ())
      [.chain .begin, .chain .advance, .chain .advance, .chain .advance]
    c.engine.state.completedStages = [1, 2, 1] ∧ refineWorkflow.stages.length = 2 ∧
      c.engine.state.progressPct refineWorkflow = 150 := by
  decide +kernel

end Chain

end Orchestratord.Workflow
