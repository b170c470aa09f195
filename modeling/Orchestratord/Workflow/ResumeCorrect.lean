import Orchestratord.Workflow.ResumeSim
import Orchestratord.Workflow.Success

/-!
# When a resumed run finishes the interrupted one

`WorkflowOrchestrator.run` resumes one past the largest completed stage id, while
the engine walks the topological order. This file states when the resumed run
executes exactly the stages the checkpoint lacks and ends like the uninterrupted
run: the stage after the largest id is the one the interrupted run was about to
visit, everything before it is completed, nothing later depends on a gate the
checkpoint stores as rejected, and the restored total leaves room in the budget.
For workflows without DECISION stages this is also necessary.
-/

namespace Orchestratord.Workflow

open Foundation Option Function
open List hiding getElem?_eq_some_iff

/-! ## §1 Statements -/

def RejectedIn (c : Checkpoint) (i : Int) : Prop :=
  ∃ r, c.stageResults i = some r ∧ r.status = .gateRejected

variable (O : Orchestrator Unit)

/-- The resumed run succeeds, starts exactly the stages the checkpoint does not
list as completed, and ends with the same completed stages with results. -/
def ResumeCorrect (c : Checkpoint) (eEnd : Engine Unit) : Prop :=
  ∃ fuel r er, run O fuel (some c) () = some (.ok r, er) ∧ r.success = true ∧
    (∀ i ∈ O.workflow.stageIds, .started i ∈ trace er.eventLog ↔ i ∉ c.completedStages) ∧
    ∀ i, (i ∈ er.state.completedStages ∧ (er.state.stageResults i).isSome) ↔
      (i ∈ eEnd.state.completedStages ∧ (eEnd.state.stageResults i).isSome)

variable (dagOrder : List Int)

/-- The uninterrupted run is at `idx` with engine `e`, right after the pass that
saved `c`. -/
def SavedAt (idx : Nat) (e : Engine Unit) (c : Checkpoint) : Prop :=
  ∃ start e₀ n idx₀ e₁, beginRun O none () = .ok (dagOrder, start, e₀) ∧
    loopPasses O.setup dagOrder n start none e₀ = some (idx₀, none, e₁) ∧
    loopStep O.setup dagOrder idx₀ none e₁ = .next idx none e ∧
    e.state.completedStages ≠ e₁.state.completedStages ∧ e.checkpoint = some c

/-- Nothing the uninterrupted run executes from `(idx, e)` on depends on a gate
that `c` stores as rejected. -/
def GatesClear (G : Int → Prop) (idx : Nat) (e : Engine Unit) : Prop :=
  ∀ n idx₁ e₁ stage, loopPasses O.setup dagOrder n idx none e = some (idx₁, none, e₁) →
    RunsAt O.workflow dagOrder idx₁ e₁ stage → ∀ d ∈ stage.dependsOn, ¬ G d

/-- From `(idx, e)` on, no agent stage of the uninterrupted run brings its total,
shifted by `δ`, over the budget. -/
def BudgetClear (δ : ℚ) (idx : Nat) (e : Engine Unit) : Prop :=
  ∀ n idx₁ e₁ idx₂ e₂ stage, loopPasses O.setup dagOrder n idx none e = some (idx₁, none, e₁) →
    loopStep O.setup dagOrder idx₁ none e₁ = .next idx₂ none e₂ →
    RunsAt O.workflow dagOrder idx₁ e₁ stage → stage.kind = .agent →
    e₂.costTracker.totalUsd + δ ≤ e₁.costTracker.budget.maxTotalUsd

/-- What the checkpoint adds to the live total: the ACTION costs so far. -/
def costShift (c : Checkpoint) (e : Engine Unit) : ℚ :=
  c.costAccumulatedUsd - e.costTracker.totalUsd

structure ResumeSafe (c : Checkpoint) (idx : Nat) (e eEnd : Engine Unit) : Prop where
  point : ∃ last, c.completedStages.max? = some last ∧ dagOrder[idx]? = some (last + 1)
  before : ∀ i ∈ dagOrder.take idx, i ∈ c.completedStages
  rest : ∀ i ∈ O.workflow.stageIds,
    .started i ∈ (trace eEnd.eventLog).drop (trace e.eventLog).length ↔ i ∉ c.completedStages
  gates : GatesClear O dagOrder (RejectedIn c) idx e
  budget : BudgetClear O dagOrder (costShift c e) idx e

variable {O : Orchestrator Unit} {S : Setup Unit} {dag : List Int} {fuel idx idx' start : Nat}
  {e e' : Engine Unit} {i : Int} {G : Int → Prop}

theorem GatesClear.next (h : GatesClear O dag G idx e)
    (hst : loopStep O.setup dag idx none e = .next idx' none e') :
    GatesClear O dag G idx' e' := by
  intro n idx₁ e₁ stage hpa
  apply h (n + 1) idx₁ e₁ stage
  rwa [loopPasses, hst]

variable {δ : ℚ}

theorem BudgetClear.next (h : BudgetClear O dag δ idx e)
    (hst : loopStep O.setup dag idx none e = .next idx' none e') :
    BudgetClear O dag δ idx' e' := by
  intro n idx₁ e₁ idx₂ e₂ stage hpa
  apply h (n + 1) idx₁ e₁ idx₂ e₂ stage
  rwa [loopPasses, hst]

/-! ## §2 What a saving pass leaves on disk -/

variable {A : Answers} {w : WorkflowSchema} {c : Checkpoint} {n : Nat} {e₀ : Engine Unit}
  {usd : ℚ}

section Saving

/-- The checkpoint against the live engine right after the pass that saved it. -/
structure SavedBy (e : Engine Unit) (c : Checkpoint) : Prop where
  completed : c.completedStages = e.state.completedStages
  payload : ∀ i, (c.stageResults i).map (fun r => (r.restored i).payload) =
    (e.state.stageResults i).map StageResult.payload
  status : ∀ i, ¬ RejectedIn c i → (c.stageResults i).map (·.status) = statusOf e.state i
  history : c.decisionHistory = e.decisionHistory

theorem savedBy_completeStage (stage : StageNode) (r : StageResult) (e : Engine Unit) :
    ∃ c, (completeStage (A.setup w usd) stage r e).checkpoint = some c ∧
      SavedBy (completeStage (A.setup w usd) stage r e) c ∧
      c.stageResults stage.id = some r.saved ∧
      ∀ i ≠ stage.id, c.stageResults i = (e.state.stageResults i).map StageResult.saved := by
  refine ⟨_, rfl, ⟨rfl, ?_, ?_, rfl⟩, ?_, ?_⟩
  · intro i
    exact map_map _ _ _
  · intro i _
    exact map_map _ _ _
  · show (update e.state.stageResults stage.id (some r) stage.id).map _ = _
    rw [update_self]
    rfl
  · intro i hi
    show (update e.state.stageResults stage.id (some r) i).map _ = _
    rw [update_of_ne hi]

/-- A pass that booked a stage saved it; another pass left the disk alone. -/
theorem CleanPass.saved (h : CleanPass (A.setup w usd) dag idx e idx' e') :
    (e'.state.completedStages = e.state.completedStages ∧ e'.checkpoint = e.checkpoint) ∨
    ∃ i c, dag[idx]? = some i ∧ e'.state.completedStages = e.state.completedStages ++ [i] ∧
      e'.checkpoint = some c ∧ SavedBy e' c ∧
      ∀ j ≠ i, c.stageResults j = (e.state.stageResults j).map StageResult.saved := by
  cases h with
  | absent | skipped => exact .inl ⟨rfl, rfl⟩
  | ran _ env stage r e₁ hi hst _ hrun =>
    have hsp := executeStage_run (A.setup w usd) stage
      { e with env := env }
    rw [hrun] at hsp
    obtain ⟨c, hdi, hsa, -, hot⟩ := savedBy_completeStage stage r e₁
    obtain ⟨-, rfl⟩ := WorkflowSchema.getStage_some _ hst
    refine .inr ⟨stage.id, c, hi, ?_, hdi, hsa, ?_⟩
    · rw [completeStage_completedStages, hsp.state]
      rfl
    · intro j hj
      rw [hot j hj, hsp.state]
      rfl
  | accepted _ env stage r e₁ hi hst _ hrun hac =>
    have hsp := executeStage_run (A.setup w usd) stage
      { e with env := env }
    rw [hrun] at hsp
    obtain ⟨c, hdi, hsa, hse, hot⟩ := savedBy_completeStage stage r e₁
    obtain ⟨-, rfl⟩ := WorkflowSchema.getStage_some _ hst
    have hre : RejectedIn c stage.id := ⟨r.saved, hse, hac.2.1⟩
    have hres : ∀ j ≠ stage.id, (acceptRejection stage r (completeStage
        (A.setup w usd) stage r e₁)).state.stageResults j =
        (completeStage (A.setup w usd) stage r e₁).state.stageResults
          j := fun j hj => update_of_ne hj _ _
    have hrs : (acceptRejection stage r (completeStage
        (A.setup w usd) stage r e₁)).state.stageResults stage.id =
        some { r with status := .completed } := update_self _ _ _
    refine .inr ⟨stage.id, c, hi, ?_, hdi, ⟨hsa.completed, ?_, ?_, hsa.history⟩, ?_⟩
    · show (completeStage (A.setup w usd) stage r e₁).state.completedStages = _
      rw [completeStage_completedStages, hsp.state]
      rfl
    · intro j
      by_cases hj : j = stage.id
      · subst hj
        rw [hse, hrs]
        rfl
      · rw [hsa.payload j, hres j hj]
    · intro j hj
      have hne : j ≠ stage.id := fun h => hj (h ▸ hre)
      rw [hsa.status j hj, statusOf, statusOf, hres j hne]
    · intro j hj
      rw [hot j hj, hsp.state]
      rfl

theorem loopPasses_succ {m m' : Option String}
    (h : loopPasses S dag (n + 1) idx m e = some (idx', m', e')) :
    ∃ idx₁ m₁ e₁, loopPasses S dag n idx m e = some (idx₁, m₁, e₁) ∧
      loopStep S dag idx₁ m₁ e₁ = .next idx' m' e' := by
  induction n generalizing idx m e with
  | zero =>
    obtain ⟨_, _, _, hst, ⟨⟩⟩ := loopPasses_next h
    exact ⟨idx, m, e, rfl, hst⟩
  | succ _ ih =>
    obtain ⟨_, _, _, hst, hre⟩ := loopPasses_next h
    obtain ⟨idx₂, m₂, e₂, hpa, hla⟩ := ih hre
    refine ⟨idx₂, m₂, e₂, ?_, hla⟩
    rwa [loopPasses, hst]

/-- Whatever a crash of the uninterrupted run finds on disk was saved by one of
its passes. -/
theorem savedAt_of_disk {e₁ : Engine Unit}
    (hbe : beginRun (A.orchestrator w usd) none () = .ok (dag, start, e₀))
    (hrun : runLoop (A.setup w usd) dag fuel start none e₀ = some (.ok none, e₁))
    (hbl : e₀.checkpoint = none)
    (hpa : loopPasses (A.setup w usd) dag n start none e₀ = some (idx, none, e))
    (hdi : e.checkpoint = some c) :
    ∃ idx' e', SavedAt (A.orchestrator w usd) dag idx' e' c := by
  induction n generalizing idx e with
  | zero =>
    cases hpa
    rw [hbl] at hdi
    cases hdi
  | succ n ih =>
    obtain ⟨idx₁, _, e₂, hpr, hst⟩ := loopPasses_succ hpa
    obtain rfl := loopPasses_flag hrun hpr
    rcases (CleanPass.of_loopStep hst).saved with
      ⟨-, hsa⟩ | ⟨i, c', -, hco, -, -, -⟩
    · exact ih hpr (hsa ▸ hdi)
    · refine ⟨idx, e, start, e₀, n, idx₁, e₂, hbe, hpr, hst, ?_, hdi⟩
      rw [hco]
      simp

end Saving

/-! ## §3 The resumed run follows the uninterrupted one -/

variable {eEnd erEnd : Engine Unit}

section Following

variable {T : List Mark} {er : Engine Unit}

theorem Sim.run (h : Sim δ G T e er) (hga : GatesClear (A.orchestrator w usd) dag G idx e)
    (hbu : BudgetClear (A.orchestrator w usd) dag δ idx e)
    (hrun : runLoop (A.setup w usd) dag fuel idx none e = some (.ok none, eEnd)) :
    ∃ erEnd, runLoop (A.setup w usd) dag fuel idx none er =
      some (.ok none, erEnd) ∧ Sim δ G T eEnd erEnd := by
  induction fuel generalizing idx e er with
  | zero => cases hrun
  | succ _ ih =>
    rcases runLoop_clean hrun with ⟨hlen, rfl⟩ | ⟨rest, idx', e', ⟨⟩, hst, hre⟩
    · refine ⟨er, ?_, h⟩
      rw [runLoop, loopStep, getElem?_eq_none_iff.mpr hlen]
    obtain ⟨_, hst', h'⟩ := h.step hst (fun stage hat => hga 0 idx e stage rfl hat)
      (fun stage hat => hbu 0 idx e idx' e' stage rfl hst hat)
    obtain ⟨erEnd, hrun', hend⟩ := ih h' (hga.next hst) (hbu.next hst) hre
    refine ⟨erEnd, ?_, hend⟩
    rwa [runLoop, hst']

/-- If the resumed run succeeds too, it never met the budget. -/
theorem Sim.budgetClear {fuel' : Nat} (h : Sim δ G T e er)
    (hga : GatesClear (A.orchestrator w usd) dag G idx e)
    (hrun : runLoop (A.setup w usd) dag fuel idx none e = some (.ok none, eEnd))
    (hre : runLoop (A.setup w usd) dag fuel' idx none er = some (.ok none, erEnd)) :
    BudgetClear (A.orchestrator w usd) dag δ idx e := by
  -- an agent stage over the budget would have stopped the resumed run
  have hfi : ∀ {idx idx' fuel' : Nat} {e e' er : Engine Unit}, Sim δ G T e er →
      GatesClear (A.orchestrator w usd) dag G idx e →
      loopStep (A.setup w usd) dag idx none e = .next idx' none e' →
      runLoop (A.setup w usd) dag fuel' idx none er = some (.ok none, erEnd) →
      ∀ stage, RunsAt w dag idx e stage → stage.kind = .agent →
        e'.costTracker.totalUsd + δ ≤ e.costTracker.budget.maxTotalUsd := by
    intro idx _ fuel' e _ _ h hga hst hre stage hat hki
    by_contra hov
    obtain ⟨m, _, hsp⟩ := h.step_exceeds hst hat (hga 0 idx e stage rfl hat) hki (not_le.mp hov)
    cases fuel' with
    | zero => cases hre
    | succ =>
      rw [runLoop, hsp] at hre
      cases hre
  intro n
  induction n generalizing fuel fuel' idx e er with
  | zero =>
    intro _ _ _ _ stage hpa hst hat hki
    cases hpa
    exact hfi h hga hst hre stage hat hki
  | succ n ih =>
    intro idx₁ e₁ idx₂ e₂ stage hpa hst hat hki
    obtain ⟨_, m, _, hne, hrs⟩ := loopPasses_next hpa
    obtain rfl : m = none := loopPasses_flag (n := 1) hrun (by rw [loopPasses, hne]; rfl)
    obtain ⟨_, hst', h'⟩ := h.step hne
      (fun stage hat => hga 0 idx e stage rfl hat) (hfi h hga hne hre)
    rcases fuel with _ | _
    · cases hrun
    cases fuel' with
    | zero => cases hre
    | succ =>
      rw [runLoop, hne] at hrun
      rw [runLoop, hst'] at hre
      exact ih h' (hga.next hne) hrun hre idx₁ e₁ idx₂ e₂ stage hrs hst hat hki

end Following

/-! ## §4 The restored engine -/

variable {last : Int}

section Restoring

theorem foldl_assumeCompleted (l : List Int) (s : WorkflowState)
    (h : ∀ i ∈ l, i ∈ s.completedStages) : l.foldl assumeCompleted s = s := by
  induction l with
  | nil => rfl
  | cons i _ ih =>
    rw [foldl_cons, assumeCompleted, if_pos (h i mem_cons_self)]
    exact ih fun j hj => h j (mem_cons_of_mem _ hj)

/-- The engine a resumed run starts its loop with. -/
def restoredEngine (O : Orchestrator Unit) (dagOrder : List Int) (c : Checkpoint)
    (last : Int) : Engine Unit :=
  prepareRun O.setup dagOrder (some (last + 1))
    { Engine.fresh O.setup (some c) () with
      state := c.restoreState
      costTracker := (Engine.fresh O.setup (some c) ()).costTracker.loadState c.costAccumulatedUsd
      decisionHistory := c.decisionHistory }

theorem beginRun_restored
    (hdag : O.workflow.buildDagOrder = .ok dag) (hla : c.completedStages.max? = some last) :
    beginRun O (some c) () = .ok (dag, startIndex dag (some (last + 1)),
      restoredEngine O dag c last) := by
  unfold beginRun loadEngine
  rw [hdag]
  dsimp only
  rw [hla]
  rfl

theorem restoredEngine_results (O : Orchestrator Unit) (dag : List Int)
    (c : Checkpoint) (last : Int)
    (hbe : ∀ i ∈ dag.take (startIndex dag (some (last + 1))), i ∈ c.completedStages) :
    (restoredEngine O dag c last).state.completedStages = c.completedStages ∧
    ∀ i, (restoredEngine O dag c last).state.stageResults i =
      (c.stageResults i).map (·.restored i) := by
  have hin := initStatuses_state O.setup.workflow.stages c.restoreState
  have hmem : ∀ i ∈ dag.take (startIndex dag (some (last + 1))),
      i ∈ (initStatuses O.setup.workflow.stages c.restoreState).completedStages := by
    rwa [hin.1]
  have hst : (restoredEngine O dag c last).state =
      initStatuses O.setup.workflow.stages c.restoreState :=
    foldl_assumeCompleted _ _ hmem
  rw [hst]
  exact ⟨hin.1, congrFun hin.2⟩

theorem sim_restored (hsa : SavedBy e c)
    (hbu : e.costTracker.budget = (A.setup w usd).config.costBudget)
    (hbe : ∀ i ∈ dag.take (startIndex dag (some (last + 1))), i ∈ c.completedStages) :
    Sim (costShift c e) (RejectedIn c) (trace e.eventLog) e
      (restoredEngine (A.orchestrator w usd) dag c last) := by
  obtain ⟨hco, hre⟩ := restoredEngine_results (A.orchestrator w usd) dag c last hbe
  have hst : ∀ i, statusOf (restoredEngine (A.orchestrator w usd) dag c
      last).state i = (c.stageResults i).map (·.status) := by
    intro i
    rw [statusOf, hre i]
    exact map_map _ _ _
  refine ⟨?_, ?_, ?_, hsa.history, ?_, hbu.symm, ?_⟩
  · unfold WorkflowState.view
    rw [hco, hsa.completed]
    congr 1
    funext i
    rw [hre i, ← hsa.payload i]
    exact map_map _ _ _
  · intro i hi
    rw [hst, hsa.status i hi]
  · intro i hi
    by_cases hrej : RejectedIn c i
    · obtain ⟨r, hr, hrs⟩ := hrej
      rw [dependencySatisfied_eq, hst, hr] at hi
      simp [hrs] at hi
    · rw [dependencySatisfied_eq, hst, hsa.status i hrej, hco,
        hsa.completed, ← dependencySatisfied_eq] at hi
      exact hi
  · show c.costAccumulatedUsd = e.costTracker.totalUsd + costShift c e
    rw [costShift, add_sub_cancel]
  · show trace e.eventLog = trace e.eventLog ++ trace [_]
    simp [trace, Event.mark]

/-! ## §5 Sufficiency -/

theorem startIndex_of_getElem (hnd : dag.Nodup)
    (h : dag[idx]? = some i) : startIndex dag (some i) = idx := by
  obtain ⟨hlt, hget⟩ := getElem?_eq_some_iff.mp h
  have hidx : dag.idxOf? i = some idx := by
    rw [idxOf?_eq_some_iff]
    refine ⟨hlt, hget, ?_⟩
    intro j _ heq
    have := (List.Nodup.getElem_inj_iff hnd).mp (heq.trans hget.symm)
    omega
  simp [startIndex, hidx]

theorem resumeCorrect_of_safe
    (hdag : w.buildDagOrder = .ok dag) (hsa : SavedBy e c) (hbu : e.costTracker.budget =
      (A.setup w usd).config.costBudget)
    (hrun : runLoop (A.setup w usd) dag fuel idx none e = some (.ok none, eEnd))
    (h : ResumeSafe (A.orchestrator w usd) dag c idx e eEnd) :
    ResumeCorrect (A.orchestrator w usd) c eEnd := by
  obtain ⟨last, hla, hpo⟩ := h.point
  have ht : Topological w dag := .of_buildDagOrder hdag
  have hst := startIndex_of_getElem ht.nodup hpo
  have hsim := sim_restored hsa hbu (by rw [hst]; exact h.before)
  obtain ⟨erEnd, hre, hend⟩ := hsim.run h.gates h.budget hrun
  have hbe : beginRun (A.orchestrator w usd) (some c) () =
      .ok (dag, idx, restoredEngine (A.orchestrator w usd) dag c last) := by
    rw [beginRun_restored hdag hla, hst]
  obtain ⟨r, hr, hs⟩ := run_of_runLoop hbe hre
  refine ⟨fuel, r, _, hr, hs, ?_, ?_⟩
  · intro i hi
    rw [← h.rest i hi, hend.trace, drop_left]
    show _ ∈ trace (closeRun none erEnd).eventLog ↔ _
    rw [closeRun_trace]
  · intro i
    show (i ∈ (closeRun none erEnd).state.completedStages ∧
      ((closeRun none erEnd).state.stageResults i).isSome) ↔ _
    rw [closeRun_state, hend.completed, hend.isSome_result]

end Restoring

/-! ## §6 Necessity without decisions -/

/-- Results are stored for completed stages only. -/
def NoStray (e : Engine Unit) : Prop :=
  ∀ i, i ∉ e.state.completedStages → e.state.stageResults i = none

theorem NoStray.pass (h : NoStray e) (hpa : CleanPass S dag idx e idx' e') : NoStray e' := by
  intro j hj
  rcases hpa.effect with ⟨-, hco, hre, -⟩ | ⟨i, stage, r, -, -, -, -, hco, hre, -⟩
  · rw [hre]
    exact h j (hco ▸ hj)
  · rw [hco, mem_append, not_or] at hj
    rw [hre, update_of_ne (by simpa using hj.2)]
    exact h j hj.1

/-- A clean run without decisions starts only stages from its start on. -/
theorem started_mem_drop (hkinds : ∀ s ∈ S.workflow.stages, s.kind ≠ .decision)
    (htc : trace e.eventLog = [])
    (hrun : runLoop S dag fuel start none e = some (.ok none, e'))
    (hi : .started i ∈ trace e'.eventLog) : i ∈ dag.drop start := by
  obtain ⟨-, -, -, hend⟩ := runLoop_success_induct
    (fun idx e => start ≤ idx ∧ ∀ i, .started i ∈ trace e.eventLog → i ∈ dag.drop start)
    (by
      rintro idx e _ _ ⟨hle, hmem⟩ hpa
      rcases hpa.effect with ⟨rfl, -, -, htr, -⟩ | ⟨j, stage, r, hj, hst, -, hne, -, -, htr, -⟩
      · exact ⟨by omega, by rw [htr]; exact hmem⟩
      have hidx := hne (hkinds stage (S.workflow.getStage_some hst).1)
      refine ⟨by omega, ?_⟩
      intro i hi
      rw [htr, mem_append] at hi
      rcases hi with hi | hi
      · exact hmem i hi
      have hij : i = j := by simpa using hi
      subst hij
      apply mem_of_getElem? (i := idx - start)
      rw [getElem?_drop, Nat.add_sub_cancel' hle]
      exact hj)
    ⟨le_refl _, by simp [htc]⟩ hrun
  exact hend i hi

variable {stage : StageNode}

/-- A stage whose dependencies are satisfied at the start is started. -/
theorem started_at_start (hi : dag[start]? = some i) (hst : S.workflow.getStage i = some stage)
    (hsat : dependenciesSatisfied e.state stage = true)
    (hrun : runLoop S dag fuel start none e = some (.ok none, e')) :
    .started i ∈ trace e'.eventLog := by
  rcases runLoop_clean hrun with ⟨hlen, -⟩ | ⟨rest, idx', e₁, -, hsp, hre⟩
  · have := (getElem?_eq_some_iff.mp hi).1
    omega
  have hfi : .started i ∈ trace e₁.eventLog := by
    rcases (CleanPass.of_loopStep hsp).effect with
      ⟨-, -, -, -, -, -, hde⟩ | ⟨j, stage', r, hj, -, -, -, -, -, htr, -⟩
    · rw [hde i stage hi hst] at hsat
      cases hsat
    rw [hi] at hj
    cases hj
    rw [htr]
    simp
  obtain ⟨-, -, hend⟩ := runLoop_success_induct (fun _ e => .started i ∈ trace e.eventLog) (by
      intro _ e _ _ hmem hpa
      rcases hpa.effect with ⟨-, -, -, htr, -⟩ | ⟨_, _, _, -, -, -, -, -, -, htr, -⟩
      · rwa [htr]
      · rw [htr]
        exact mem_append_left _ hmem)
    hfi hre
  exact hend

/-- No stage comes twice in the order. -/
theorem not_mem_take (ht : Topological w dag) {p k : Nat}
    (hi : dag[p]? = some i) (hk : k ≤ p) : i ∉ dag.take k := by
  intro hmem
  obtain ⟨q, hq⟩ := mem_iff_getElem?.mp hmem
  rw [getElem?_take] at hq
  split at hq
  · have hbo := (getElem?_eq_some_iff.mp hi).1
    have := (getElem?_inj hbo ht.nodup).mp (hi.trans hq.symm)
    omega
  · cases hq

/-- A stage that depends on a gate stored as rejected, and not asked again, is
never started. -/
theorem not_started_of_rejected (ht : Topological S.workflow dag)
    (hkinds : ∀ s ∈ S.workflow.stages, s.kind ≠ .decision) {d : Int}
    (htc : trace e.eventLog = []) (hsg : S.workflow.getStage i = some stage)
    (hd : d ∈ stage.dependsOn) (hbe : d ∈ dag.take start)
    (hrej : statusOf e.state d = some .gateRejected)
    (hrun : runLoop S dag fuel start none e = some (.ok none, e')) :
    .started i ∉ trace e'.eventLog := by
  obtain ⟨-, -, -, -, hend⟩ := runLoop_success_induct
    (fun idx e => start ≤ idx ∧ statusOf e.state d = some .gateRejected ∧
      .started i ∉ trace e.eventLog)
    (by
      rintro _ e _ _ ⟨hle, hst, hnot⟩ hpa
      rcases hpa.effect with ⟨rfl, -, hres, htr, -⟩ |
        ⟨j, stage', r, hj, hst', hsat, hne, -, hres, htr, -⟩
      · exact ⟨by omega, by rw [statusOf, hres]; exact hst, by rwa [htr]⟩
      have hidx := hne (hkinds stage' (S.workflow.getStage_some hst').1)
      have hjd : d ≠ j := by
        rintro rfl
        exact not_mem_take ht hj hle hbe
      have hji : i ≠ j := by
        rintro rfl
        rw [hsg] at hst'
        cases hst'
        have hdep := all_eq_true.mp hsat d hd
        rw [dependencySatisfied_eq, hst] at hdep
        simp at hdep
      refine ⟨by omega, ?_, ?_⟩
      · rwa [statusOf, hres, update_of_ne hjd]
      · rw [htr]
        simp [hnot, hji])
    ⟨le_refl _, hrej, by simp [htc]⟩ hrun
  exact hend

theorem startIndex_cases (dag : List Int) (x : Int) : startIndex dag (some x) = 0 ∨
      dag[startIndex dag (some x)]? = some x := by
  unfold startIndex
  cases hidx : dag.idxOf? x with
  | none => simp [hidx]
  | some =>
    right
    obtain ⟨hlt, hget, -⟩ := idxOf?_eq_some_iff.mp hidx
    simpa [hidx, getElem?_eq_some_iff] using ⟨hlt, hget⟩

/-- The uninterrupted run around the pass that saved the checkpoint. -/
structure Interrupted (A : Answers) (w : WorkflowSchema) (budgetUsd : ℚ)
    (dagOrder : List Int) (idx : Nat) (e eEnd : Engine Unit) (c : Checkpoint) : Prop where
  dag : w.buildDagOrder = .ok dagOrder
  saved : SavedBy e c
  budget : e.costTracker.budget = (A.setup w budgetUsd).config.costBudget
  stray : NoStray e
  rest : ∃ fuel, runLoop (A.setup w budgetUsd) dagOrder fuel idx none e = some (.ok none, eEnd)
  /-- Without decisions the run has walked the order up to `idx`, and the results
  in the checkpoint passed, except perhaps the last. -/
  walked : (∀ s ∈ w.stages, s.kind ≠ .decision) → Walked w dagOrder idx e ∧ 0 < idx ∧
    ∀ i ∈ dagOrder.take (idx - 1), ∃ r, c.stageResults i = some r ∧
      (r.status = .completed ∨ r.status = .gateApproved)

section Deciding

theorem Interrupted.of_savedAt (hat : SavedAt (A.orchestrator w usd) dag idx e c)
    (hbe : beginRun (A.orchestrator w usd) none () = .ok (dag, start, e₀))
    (hrun : runLoop (A.setup w usd) dag fuel start none e₀ = some (.ok none, eEnd)) :
    Interrupted A w usd dag idx e eEnd c := by
  obtain ⟨_, _, n, idx₀, e₁, hbe', hpa, hst, hbo, hdi⟩ := hat
  rw [hbe] at hbe'
  cases hbe'
  obtain ⟨hdag, rfl, rfl⟩ := beginRun_ok hbe
  obtain ⟨hco₀, _⟩ := prepareRun_fresh (A.setup w usd) dag none ()
  have hre₀ : NoStray (prepareRun (A.setup w usd) dag none (.fresh (A.setup w usd) none ())) := by
    intro i _
    exact congrFun (initStatuses_state _ _).2 i
  have hps := CleanPass.of_loopStep hst
  have hke : ∀ idx e idx' e', (NoStray e ∧ e.costTracker.budget =
        (A.setup w usd).config.costBudget) →
      CleanPass (A.setup w usd) dag idx e idx' e' → NoStray e' ∧
        e'.costTracker.budget = (A.setup w usd).config.costBudget := by
    rintro _ e _ _ ⟨hI, hbu⟩ hp
    refine ⟨hI.pass hp, ?_⟩
    rcases hp.effect with ⟨-, -, -, -, hb, -⟩ | ⟨_, _, _, -, -, -, -, -, -, -, hb, -⟩
    all_goals exact hb.trans hbu
  obtain ⟨hsy, hbu⟩ := hke _ _ _ _ (loopPasses_induct _ hke hrun hpa ⟨hre₀, rfl⟩) hps
  obtain ⟨i, _, hi, _, hdi', hsa, hot⟩ := hps.saved.resolve_left fun h => hbo h.1
  rw [hdi] at hdi'
  cases hdi'
  have hre : ∃ fuel', runLoop (A.setup w usd) dag fuel' idx none e = some (.ok none, eEnd) := by
    obtain ⟨fuel', -, hre⟩ := runLoop_after_passes hrun hpa
    cases fuel' with
    | zero => cases hre
    | succ fuel' =>
      rw [runLoop, hst] at hre
      exact ⟨fuel', hre⟩
  refine ⟨hdag, hsa, hbu, hsy, hre, ?_⟩
  intro hkinds
  have ht : Topological w dag := .of_buildDagOrder hdag
  have hwa₀ : Walked w dag 0 (prepareRun (A.setup w usd) dag
      none (.fresh (A.setup w usd) none ())) :=
    ⟨Nat.zero_le _, by simpa using hco₀, by
      exact .start _ hco₀⟩
  have hwa₁ : Walked w dag idx₀ e₁ := loopPasses_induct (Walked w dag)
    (fun _ _ _ _ hI hp => .pass ht hkinds hI hp)
    hrun hpa hwa₀
  have hwa : Walked w dag idx e := .pass ht hkinds hwa₁ hps
  have hidx : idx = idx₀ + 1 := by
    rcases hps.effect with ⟨h, -⟩ | ⟨j, stage, _, -, hsg, -, hne, -⟩
    · exact h
    · exact hne (hkinds stage (w.getStage_some hsg).1)
  refine ⟨hwa, by omega, ?_⟩
  intro j hj
  rw [hidx, Nat.add_sub_cancel] at hj
  have hji : j ≠ i := by
    rintro rfl
    exact not_mem_take ht hi le_rfl hj
  obtain ⟨r, hr, hpd⟩ := hwa₁.progress.results j (by rw [hwa₁.completed]; exact hj)
  exact ⟨r.saved, by rw [hot j hji, hr]; rfl, hpd⟩

variable (hkinds : ∀ s ∈ w.stages, s.kind ≠ .decision)

include hkinds

variable (h : Interrupted A w usd dag idx e eEnd c)

include h

/-- The stages the uninterrupted run starts after the crash. -/
theorem rest_of_walked :
    ∀ i ∈ w.stageIds, .started i ∈ (trace eEnd.eventLog).drop (trace e.eventLog).length ↔
      i ∉ c.completedStages := by
  obtain ⟨_, hrun⟩ := h.rest
  obtain ⟨hwa, -⟩ := h.walked hkinds
  have ht : Topological w dag := .of_buildDagOrder h.dag
  have hgr := runLoop_success_induct (fun idx e₁ => Walked w dag idx e₁ ∧
      ∃ tl, trace e₁.eventLog = trace e.eventLog ++ tl)
    (by
      rintro _ _ _ _ ⟨hI, tl, htl⟩ hp
      refine ⟨.pass ht hkinds hI hp, ?_⟩
      rcases hp.effect with ⟨-, -, -, htr, -⟩ | ⟨_, _, _, -, -, -, -, -, -, htr, -⟩
      · exact ⟨tl, htr.trans htl⟩
      · exact ⟨_, by rw [htr, htl, append_assoc]⟩)
    ⟨hwa, [], by simp⟩ hrun
  obtain ⟨_, hlen, hend, _, htl⟩ := hgr
  intro i hi
  rw [htl, drop_left, h.saved.completed]
  have hall : i ∈ eEnd.state.completedStages := by
    rw [hend.completed, take_of_length_le hlen]
    exact ht.perm.mem_iff.mpr hi
  have hco := hend.progress.started i
  rw [htl, count_append, hwa.progress.started i, if_pos hall] at hco
  constructor
  · intro hmem hin
    rw [if_pos hin] at hco
    have := count_pos_iff.mpr hmem
    omega
  · intro hout
    rw [if_neg hout] at hco
    exact count_pos_iff.mp (by omega)

/-- Without decisions a correct resume starts where the interrupted run stood. -/
theorem startIndex_of_correct (hre : runLoop (A.setup w usd) dag fuel
      (startIndex dag (some (last + 1))) none
      (restoredEngine (A.orchestrator w usd) dag c last) = some (.ok none, erEnd))
    (hst : ∀ i ∈ w.stageIds, .started i ∈ trace erEnd.eventLog ↔ i ∉ c.completedStages) :
    startIndex dag (some (last + 1)) = idx ∧ dag[idx]? = some (last + 1) := by
  obtain ⟨hwa, _, hrs⟩ := h.walked hkinds
  have ht : Topological w dag := .of_buildDagOrder h.dag
  have hco : c.completedStages = dag.take idx := h.saved.completed.trans hwa.completed
  have hids : ∀ {p i}, dag[p]? = some i → i ∈ w.stageIds :=
    fun hp => ht.perm.mem_iff.mp (mem_of_getElem? hp)
  set start := startIndex dag (some (last + 1)) with hsta
  rcases lt_trichotomy start idx with hlt | heq | hgt
  · -- the stage at the start is completed, and its dependencies are satisfied
    have hbo : start < dag.length := lt_of_lt_of_le hlt hwa.le
    have hi : dag[start]? = some dag[start] := getElem?_eq_getElem hbo
    obtain ⟨stage, hsg⟩ := ht.exists_getStage (mem_of_getElem? hi)
    have hta : ∀ k, k ≤ idx → ∀ d ∈ dag.take k, d ∈ c.completedStages := by
      intro k hk d hd
      rw [hco]
      exact take_subset_take_left dag hk hd
    obtain ⟨hdo, hres⟩ := restoredEngine_results (A.orchestrator w usd) dag c
      last (by rw [← hsta]; exact hta start (by omega))
    have hsat : dependenciesSatisfied
        (restoredEngine (A.orchestrator w usd) dag c last).state stage = true := by
      refine all_eq_true.mpr fun d hd => ?_
      have hmem := ht.dep_mem_take hi hsg hd
      obtain ⟨r, hr, hpd⟩ := hrs d (take_subset_take_left dag (by omega) hmem)
      rw [dependencySatisfied_eq, statusOf, hdo, hres d, hr]
      simpa [SavedResult.restored, hta start (by omega) d hmem] using hpd
    have hmem := started_at_start hi hsg hsat hre
    exact absurd (hta idx (le_refl _) _ (by
      rw [mem_iff_getElem?]
      exact ⟨start, by rw [getElem?_take, if_pos hlt, hi]⟩))
      ((hst _ (hids hi)).mp hmem)
  · refine ⟨heq, ?_⟩
    rcases startIndex_cases dag (last + 1) with hze | hfo
    · omega
    · rwa [← hsta, heq] at hfo
  · -- the stage the interrupted run was at is never started
    exfalso
    have hbo : start < dag.length := by
      rcases startIndex_cases dag (last + 1) with hze | hfo
      · omega
      · exact (getElem?_eq_some_iff.mp hfo).1
    have hi : dag[idx]? = some dag[idx] := getElem?_eq_getElem (lt_trans hgt hbo)
    have hnot : dag[idx] ∉ c.completedStages := by
      rw [hco]
      exact not_mem_take ht hi le_rfl
    have hmem := (hst _ (hids hi)).mpr hnot
    have hdr := started_mem_drop hkinds rfl hre hmem
    obtain ⟨p, hp⟩ := mem_iff_getElem?.mp hdr
    rw [getElem?_drop] at hp
    have := (getElem?_inj (lt_trans hgt hbo) ht.nodup).mp (hi.trans hp.symm)
    omega

theorem safe_of_resumeCorrect (hcr : ResumeCorrect (A.orchestrator w usd) c eEnd) :
    ResumeSafe (A.orchestrator w usd) dag c idx e eEnd := by
  obtain ⟨_, hrun⟩ := h.rest
  obtain ⟨hwa, _, -⟩ := h.walked hkinds
  have ht : Topological w dag := .of_buildDagOrder h.dag
  have hco : c.completedStages = dag.take idx := h.saved.completed.trans hwa.completed
  obtain ⟨last, hla⟩ : ∃ last, c.completedStages.max? = some last := by
    rw [← isSome_iff_exists, isSome_max?_iff, hco]
    intro hnil
    have hlen := congrArg length hnil
    rw [length_take, min_eq_left hwa.le, length_nil] at hlen
    omega
  obtain ⟨_, r, _, hres, hs, hsd, -⟩ := hcr
  obtain ⟨_, _, _, erEnd, hbg, hre, rfl⟩ := run_success hres hs
  rw [beginRun_restored h.dag hla] at hbg
  cases hbg
  have hst' : ∀ i ∈ w.stageIds, .started i ∈ trace erEnd.eventLog ↔ i ∉ c.completedStages := by
    intro i hi
    rw [← hsd i hi]
    show _ ↔ _ ∈ trace (closeRun none erEnd).eventLog
    rw [closeRun_trace]
  obtain ⟨hst, hpo⟩ := startIndex_of_correct hkinds h hre hst'
  have hbe : ∀ i ∈ dag.take idx, i ∈ c.completedStages := by
    rw [hco]
    exact fun i hi => hi
  have hsim := sim_restored h.saved h.budget (by rw [hst]; exact hbe)
  rw [hst] at hre
  have hga : GatesClear (A.orchestrator w usd) dag (RejectedIn c) idx e := by
    rintro n idx₁ _ stage hpa ⟨i, hi, hsg, -⟩ d hd ⟨_, hsr, hrej⟩
    -- `d` is stored, hence completed before the crash; `stage` comes after it
    have hdm : d ∈ dag.take idx := by
      by_contra hno
      have hnn := h.stray d (by rw [hwa.completed]; exact hno)
      have hpay := h.saved.payload d
      rw [hsr, hnn] at hpay
      cases hpay
    have hle : idx ≤ idx₁ := loopPasses_induct (fun j _ => idx ≤ j) (by
        intro _ _ _ _ _ hp
        rcases hp.effect with ⟨rfl, -⟩ | ⟨_, stage', _, -, hsg', -, hne, -⟩
        · omega
        · rw [hne (hkinds stage' (w.getStage_some hsg').1)]
          omega)
      hrun hpa (le_refl _)
    have hnot : i ∉ c.completedStages := by
      rw [hco]
      exact not_mem_take ht hi hle
    have hmem := (hst' i (ht.perm.mem_iff.mp (mem_of_getElem? hi))).mpr hnot
    refine not_started_of_rejected ht hkinds rfl hsg hd hdm ?_ hre hmem
    obtain ⟨-, hrs⟩ := restoredEngine_results (A.orchestrator w usd) dag c
      last (by rw [hst]; exact hbe)
    rw [statusOf, hrs d, hsr]
    exact congrArg some hrej
  exact ⟨⟨last, hla, hpo⟩, hbe, rest_of_walked hkinds h, hga, hsim.budgetClear hga hrun hre⟩

omit h

omit hkinds

/-- **Resume.** Whatever checkpoint a crash of a successful run leaves on disk, it
was saved by one of the run's passes. Resuming from it is correct if the state
right after that pass is safe to resume; without DECISION stages, exactly then. -/
theorem resume_correct_iff_safe (A : Answers) (w : WorkflowSchema) (budgetUsd : ℚ) (fuel : Nat)
    (r : WorkflowResult) (eEnd : Engine Unit)
    (hrun : run (A.orchestrator w budgetUsd) fuel none () = some (.ok r, eEnd))
    (hs : r.success = true) (n idx : Nat) (m : Option String) (e : Engine Unit)
    (hcrash : runPasses (A.orchestrator w budgetUsd) n none () = some (idx, m, e)) (c : Checkpoint)
    (hdisk : e.checkpoint = some c) : ∃ dagOrder idx' e', w.buildDagOrder = .ok dagOrder ∧
      SavedAt (A.orchestrator w budgetUsd) dagOrder idx' e' c ∧
      (ResumeSafe (A.orchestrator w budgetUsd) dagOrder c idx' e' eEnd →
        ResumeCorrect (A.orchestrator w budgetUsd) c eEnd) ∧ ((∀ s ∈ w.stages, s.kind ≠ .decision) →
        (ResumeCorrect (A.orchestrator w budgetUsd) c eEnd ↔
          ResumeSafe (A.orchestrator w budgetUsd) dagOrder c idx' e' eEnd)) := by
  obtain ⟨dagOrder, _, e₀, e₁, hbe, hlo, rfl⟩ := run_success hrun hs
  rw [runPasses, hbe] at hcrash
  obtain rfl := loopPasses_flag hlo hcrash
  have hbl : e₀.checkpoint = none := by
    obtain ⟨-, -, rfl⟩ := beginRun_ok hbe
    rfl
  obtain ⟨idx', e', hat⟩ := savedAt_of_disk hbe hlo hbl hcrash hdisk
  have h := Interrupted.of_savedAt hat hbe hlo
  -- closing the run and deleting its checkpoint changes none of what is compared
  have hcr : ResumeCorrect (A.orchestrator w budgetUsd) c
      { closeRun none e₁ with checkpoint := none } ↔
        ResumeCorrect (A.orchestrator w budgetUsd) c e₁ := by
    unfold ResumeCorrect
    rw [closeRun_state]
  have hsa : ResumeSafe (A.orchestrator w budgetUsd) dagOrder c idx' e'
      { closeRun none e₁ with checkpoint := none } ↔
        ResumeSafe (A.orchestrator w budgetUsd) dagOrder c idx' e' e₁ := by
    have htc := closeRun_trace none e₁
    constructor
    · exact fun hsf => { hsf with rest := by rw [← htc]; exact hsf.rest }
    · exact fun hsf => { hsf with rest := by rw [htc]; exact hsf.rest }
  obtain ⟨_, hre⟩ := h.rest
  have hsu : ResumeSafe (A.orchestrator w budgetUsd) dagOrder c idx' e'
      { closeRun none e₁ with checkpoint := none } → ResumeCorrect (A.orchestrator w budgetUsd) c
          { closeRun none e₁ with checkpoint := none } := fun hsf =>
    hcr.mpr (resumeCorrect_of_safe h.dag h.saved h.budget hre (hsa.mp hsf))
  refine ⟨dagOrder, idx', e', h.dag, hat, hsu, fun hkinds => ⟨fun hc => ?_, hsu⟩⟩
  exact hsa.mpr (safe_of_resumeCorrect hkinds h (hcr.mp hc))

end Deciding

/-! ## §7 Two interrupted runs -/

/-- Every stage succeeds and every gate approves, whatever the state. -/
def approvingAnswers : Answers where
  run := fun _ _ => .returned { success := true }
  runAction := fun _ _ => .returned { success := true }
  runGate := fun _ _ => .returned { approved := true }
  runDecision := fun _ _ => .returned {}
  validateAll := fun _ => []

/-- The checkpoint a crash after `n` passes of a first run leaves. -/
def crashDisk (O : Orchestrator Unit) (n : Nat) : Option Checkpoint :=
  (runPasses O n none ()).bind (·.2.2.checkpoint)

def reviewRun : Orchestrator Unit := approvingAnswers.orchestrator reviewWorkflow 0

theorem exists_crash (h : crashDisk O n = some c) :
    ∃ idx m e, runPasses O n none () = some (idx, m, e) ∧ e.checkpoint = some c := by
  rw [crashDisk, bind_eq_some_iff] at h
  obtain ⟨⟨idx, m, e⟩, hrun, hdi⟩ := h
  exact ⟨idx, m, e, hrun, hdi⟩

/-- The completed stages that have a result. -/
def finishedStages (e : Engine Unit) : List Int :=
  e.state.completedStages.filter fun i => (e.state.stageResults i).isSome

/-- A crash after the plan stage: ids follow the order, and resuming is safe. -/
theorem resume_correct_iff_safe_review : ∃ c eEnd dagOrder idx e,
    crashDisk reviewRun 1 = some c ∧ c.completedStages = [1] ∧
    ResumeCorrect reviewRun c eEnd ∧ ResumeSafe reviewRun dagOrder c idx e eEnd := by
  have hrun : succeeded (run reviewRun 4 none ()) = true := by decide +kernel
  have hfi : (run reviewRun 4 none ()).map (fun out => finishedStages out.2) =
      some [1, 2, 3] := by decide +kernel
  have hch : (crashDisk reviewRun 1).map (·.completedStages) = some [1] := by
    decide +kernel
  have hre : succeeded (run reviewRun 4 (crashDisk reviewRun 1) ()) = true := by
    decide +kernel
  have hse : (run reviewRun 4 (crashDisk reviewRun 1) ()).map
      (fun out => (finishedStages out.2, trace out.2.eventLog)) =
        some ([1, 2, 3], [.started 2, .finished 2, .started 3, .finished 3]) := by decide +kernel
  obtain ⟨r, eEnd, h, hs⟩ := exists_of_succeeded hrun
  obtain ⟨c, hc, hco⟩ := map_eq_some_iff.mp hch
  rw [hc] at hre hse
  obtain ⟨r', er, h', hs'⟩ := exists_of_succeeded hre
  rw [h, map_some, some.injEq] at hfi
  rw [h', map_some, some.injEq, Prod.mk.injEq] at hse
  obtain ⟨hdo, htc⟩ := hse
  have hcr : ResumeCorrect reviewRun c eEnd := by
    refine ⟨4, r', er, h', hs', ?_, fun i => ?_⟩
    · rw [htc, hco]
      decide
    · have hsa : i ∈ finishedStages er ↔ i ∈ finishedStages eEnd := by rw [hdo, hfi]
      simpa only [finishedStages, mem_filter] using hsa
  obtain ⟨idx₁, m, e₁, hpa, hdi⟩ := exists_crash hc
  obtain ⟨dagOrder, idx, e, -, -, -, hiff⟩ := resume_correct_iff_safe approvingAnswers
    reviewWorkflow 0 4 r eEnd h hs 1 idx₁ m e₁ hpa c hdi
  exact ⟨c, eEnd, dagOrder, idx, e, hc, hco, hcr, (hiff (by decide)).mp hcr⟩

/-- Two agent stages whose ids run against their dependency. -/
def reversedWorkflow : WorkflowSchema where
  name := "reversed"
  stages := [
    { id := 2, name := "plan", kind := .agent },
    { id := 1, name := "build", kind := .agent, dependsOn := [2] }]
  distinct := by decide

def reversedRun : Orchestrator Unit := approvingAnswers.orchestrator reversedWorkflow 0

/-- After a crash behind stage 2 the resumed run looks for stage 3, does not find
it, and starts over with stage 2. -/
theorem reversed_resume_reexecutes : ∃ r eEnd c,
    run reversedRun 3 none () = some (.ok r, eEnd) ∧ r.success = true ∧
    crashDisk reversedRun 1 = some c ∧ c.completedStages = [2] ∧
    (run reversedRun 3 (some c) ()).map (fun out => trace out.2.eventLog) =
      some [.started 2, .finished 2, .started 1, .finished 1] ∧
    ¬ ResumeCorrect reversedRun c eEnd := by
  have hrun : succeeded (run reversedRun 3 none ()) = true := by decide +kernel
  have hch : (crashDisk reversedRun 1).map (·.completedStages) = some [2] := by
    decide +kernel
  have htc : (run reversedRun 3 (crashDisk reversedRun 1) ()).map
      (fun out => trace out.2.eventLog) =
        some [.started 2, .finished 2, .started 1, .finished 1] := by decide +kernel
  have hsta : startIndex [2, 1] (some 3) = 0 := by decide
  obtain ⟨r, eEnd, h, hs⟩ := exists_of_succeeded hrun
  obtain ⟨c, hc, hco⟩ := map_eq_some_iff.mp hch
  rw [hc] at htc
  refine ⟨r, eEnd, c, h, hs, hc, hco, htc, ?_⟩
  rintro ⟨_, _, _, hres, hs', hst, -⟩
  have hdag : reversedWorkflow.buildDagOrder = .ok [2, 1] := by decide
  have hla : c.completedStages.max? = some 2 := by
    rw [hco]
    decide
  obtain ⟨_, _, _, erEnd, hbe, hlo, rfl⟩ := run_success hres hs'
  have hbe' : beginRun reversedRun (some c) () =
      .ok ([2, 1], startIndex [2, 1] (some 3), restoredEngine reversedRun [2, 1] c 2) :=
    beginRun_restored hdag hla
  rw [hbe', hsta] at hbe
  cases hbe
  have hsg : reversedRun.setup.workflow.getStage 2 =
      some { id := 2, name := "plan", kind := .agent } := by decide
  have hmem := started_at_start (by decide) hsg rfl hlo
  refine (hst 2 (by decide)).mp ?_ (by rw [hco]; decide)
  show _ ∈ trace (closeRun none erEnd).eventLog
  rwa [closeRun_trace]

end Orchestratord.Workflow
