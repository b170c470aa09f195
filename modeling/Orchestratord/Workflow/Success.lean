import Orchestratord.Workflow.Trace

/-!
# A successful workflow ran every stage

For a workflow without DECISION stages, a fresh `execute` that reports success
has started and finished every stage exactly once, each after all the stages it
depends on, and stored a completed or approved result for each. Both schedulers
keep the same invariant, `Progress`; a pass of the sequential loop is a batch of
one stage.
-/

namespace Orchestratord.Workflow

open Foundation Function
open List hiding getElem?_eq_some_iff

variable {σ : Type}

/-! ## §1 Progress -/

def Passed (r : StageResult) : Prop := r.status = .completed ∨ r.status = .gateApproved

structure Progress (w : WorkflowSchema) (tr : List Mark) (s : WorkflowState) : Prop where
  started : ∀ i, tr.count (.started i) = if i ∈ s.completedStages then 1 else 0
  finished : ∀ i, tr.count (.finished i) = if i ∈ s.completedStages then 1 else 0
  deps : ∀ pre i post, tr = pre ++ .started i :: post → ∀ d ∈ w.dependsOn i, .finished d ∈ pre
  results : ∀ i ∈ s.completedStages, ∃ r, s.stageResults i = some r ∧ Passed r

variable {w : WorkflowSchema} {S : Setup σ} {dag : List Int} {fuel : Nat} {s : WorkflowState}
  {e e' : Engine σ} {p : Parallel σ}

theorem Progress.start (w : WorkflowSchema) (h : s.completedStages = []) : Progress w [] s where
  started := by simp [h]
  finished := by simp [h]
  deps := by simp
  results := by simp [h]

variable {tr : List Mark}

theorem Progress.finished_mem (h : Progress w tr s) {d : Int}
    (hd : d ∈ s.completedStages) : .finished d ∈ tr := by
  have hco := h.finished d
  rw [if_pos hd] at hco
  exact count_pos_iff.mp (by omega)

theorem count_map_started (b : List Int) (hnd : b.Nodup) (i : Int) :
    (b.map Mark.started).count (.started i) = if i ∈ b then 1 else 0 := by
  rw [count_map_of_injective b _ (fun _ _ h => Mark.started.inj h), hnd.count]

theorem count_map_finished (b : List Int) (hnd : b.Nodup) (i : Int) :
    (b.map Mark.finished).count (.finished i) = if i ∈ b then 1 else 0 := by
  rw [count_map_of_injective b _ (fun _ _ h => Mark.finished.inj h), hnd.count]

/-- A batch of new stages whose dependencies are all completed. -/
theorem Progress.batch {s' : WorkflowState} (h : Progress w tr s) {b : List Int}
    (hnd : b.Nodup) (hnew : ∀ i ∈ b, i ∉ s.completedStages)
    (hde : ∀ i ∈ b, ∀ d ∈ w.dependsOn i, d ∈ s.completedStages)
    (hco : s'.completedStages = s.completedStages ++ b)
    (hpa : ∀ i ∈ b, ∃ r, s'.stageResults i = some r ∧ Passed r)
    (hsa : ∀ i ∉ b, s'.stageResults i = s.stageResults i) :
    Progress w (tr ++ (b.map .started ++ b.map .finished)) s' := by
  have hcn : ∀ i, (if i ∈ s.completedStages then 1 else 0) +
      (if i ∈ b then 1 else 0) = if i ∈ s'.completedStages then 1 else 0 := by
    intro i
    rw [hco]
    by_cases hb : i ∈ b
    · simp [hb, hnew i hb]
    · simp [hb]
  refine ⟨?_, ?_, ?_, ?_⟩
  · intro i
    have hze : (b.map Mark.finished).count (.started i) = 0 := by
      rw [count_eq_zero]
      simp
    rw [count_append, count_append, h.started, count_map_started b hnd, hze, add_zero, hcn]
  · intro i
    have hze : (b.map Mark.started).count (.finished i) = 0 := by
      rw [count_eq_zero]
      simp
    rw [count_append, count_append, h.finished, count_map_finished b hnd, hze, zero_add, hcn]
  · intro pre i post heq d hd
    -- the start lies in the old trace, or in the batch and hence after all of it
    have hba : ∀ l, b.map .started ++ b.map .finished = l ++ .started i :: post → i ∈ b := by
      intro l hl
      have hmem : .started i ∈ b.map Mark.started ++ b.map .finished := by
        rw [hl]
        simp
      simpa using hmem
    rcases append_eq_append_iff.mp heq with ⟨l, rfl, hl⟩ | ⟨l, htr, hl⟩
    · exact mem_append_left _ (h.finished_mem (hde i (hba l hl) d hd))
    cases l with
    | nil =>
      rw [append_nil] at htr
      subst htr
      exact h.finished_mem (hde i (hba [] hl.symm) d hd)
    | cons _ l =>
      obtain ⟨rfl, -⟩ := hl
      exact h.deps pre i l htr d hd
  · intro i hi
    rw [hco, mem_append] at hi
    by_cases hb : i ∈ b
    · exact hpa i hb
    · rw [hsa i hb]
      exact h.results i (hi.resolve_right hb)

variable {stage : StageNode}

theorem dependenciesSatisfied_of_results (hmem : ∀ d ∈ stage.dependsOn, d ∈ s.completedStages)
    (hres : ∀ i ∈ s.completedStages, ∃ r, s.stageResults i = some r ∧ Passed r) :
    dependenciesSatisfied s stage = true := by
  rw [dependenciesSatisfied, all_eq_true]
  intro d hd
  obtain ⟨r, hr, hpa⟩ := hres d (hmem d hd)
  have hst : (r.status = .completed || r.status = .gateApproved) = true := by
    simpa [Passed] using hpa
  simp [dependencySatisfied, WorkflowState.getStageResult, hr, hmem d hd, hst]

/-! ## §2 The sequential loop -/

/-- The loop walks the order: what is behind the index is done. -/
structure Walked (w : WorkflowSchema) (dagOrder : List Int) (idx : Nat) (e : Engine σ) : Prop where
  le : idx ≤ dagOrder.length
  completed : e.state.completedStages = dagOrder.take idx
  progress : Progress w (trace e.eventLog) e.state

theorem Walked.pass (ht : Topological S.workflow dag)
    (hki : ∀ s ∈ S.workflow.stages, s.kind ≠ .decision) {idx idx' : Nat}
    (h : Walked S.workflow dag idx e) (hpa : CleanPass S dag idx e idx' e') :
    Walked S.workflow dag idx' e' := by
  have hidx := hpa.lt_length
  obtain ⟨j, stage₀, hj, hst₀⟩ : ∃ j stage, dag[idx]? = some j ∧
      S.workflow.getStage j = some stage := by
    have hj : dag[idx]? = some dag[idx] := getElem?_eq_getElem hidx
    obtain ⟨stage, hst⟩ := ht.exists_getStage (mem_of_getElem? hj)
    exact ⟨_, stage, hj, hst⟩
  have hbe : ∀ d ∈ stage₀.dependsOn, d ∈ e.state.completedStages := by
    intro d hd
    rw [h.completed]
    exact ht.dep_mem_take hj hst₀ hd
  rcases hpa.effect with ⟨-, -, -, -, -, -, hde⟩ |
    ⟨i, stage, r, hi, hst, -, hne, hco, hre, htr, -, hps⟩
  · have hsat := dependenciesSatisfied_of_results hbe h.progress.results
    rw [hde j stage₀ hj hst₀] at hsat
    cases hsat
  rw [hj] at hi
  cases hi
  rw [hst₀] at hst
  cases hst
  have hta : dag.take (idx + 1) = dag.take idx ++ [j] := by
    obtain ⟨_, hget⟩ := getElem?_eq_some_iff.mp hj
    rw [← hget, take_append_getElem]
  have hnew : j ∉ dag.take idx := by
    have hnd : (dag.take (idx + 1)).Nodup := (take_sublist _ _).nodup ht.nodup
    rw [hta] at hnd
    intro hmem
    exact (nodup_append.mp hnd).2.2 j hmem j mem_cons_self rfl
  rw [hne (hki stage₀ (S.workflow.getStage_some hst₀).1)]
  refine ⟨hidx, ?_, ?_⟩
  · rw [hco, h.completed, hta]
  rw [htr]
  refine h.progress.batch (nodup_singleton _) ?_ ?_ hco ?_ ?_
  · intro i hi
    rwa [mem_singleton.mp hi, h.completed]
  · intro i hi d hd
    rw [mem_singleton.mp hi, S.workflow.dependsOn_getStage hst₀] at hd
    exact hbe d hd
  · intro i hi
    refine ⟨r, ?_, hps⟩
    rw [mem_singleton.mp hi, hre, update_self]
  · intro i hi
    rw [hre, update_of_ne (fun hij => hi (mem_singleton.mpr hij))]

/-! ## §3 The parallel scheduler -/

theorem firstError_ne_none (m : Option String) (text : String) : firstError m text ≠ none := by
  unfold firstError
  split <;> simp

/-- Inversion of an outcome that leaves the error unset. -/
theorem settleOutcome_clean {out : Except EngineError StageResult}
    (h : (settleOutcome S p (stage, out)).errorMsg = none) : ∃ r, out = .ok r ∧ p.errorMsg = none ∧
      (settleOutcome S p (stage, out)).stopRequested = p.stopRequested ∧
      (settleOutcome S p (stage, out)).pending = p.pending.filter (fun s => s.id ≠ stage.id) ∧
      (settleOutcome S p (stage, out)).engine =
        completeStage S stage r (chargeBatchStage r p.engine).2 := by
  unfold settleOutcome at h ⊢
  rcases out with _ | r
  · exact absurd h (firstError_ne_none _ _)
  dsimp only at h ⊢
  split at h
  · exact absurd h (firstError_ne_none _ _)
  · rename_i hch
    exact ⟨r, rfl, h, rfl, rfl, by rw [hch]⟩

variable (outs : List (StageNode × Except EngineError StageResult))

theorem foldl_settleOutcome_errorMsg
    (p : Parallel σ) (h : (outs.foldl (settleOutcome S) p).errorMsg = none) :
    p.errorMsg = none := by
  induction outs generalizing p with
  | nil => exact h
  | cons o _ ih =>
    obtain ⟨r, -, herr, -⟩ := settleOutcome_clean (ih (settleOutcome S p o) h)
    exact herr

theorem batchPass_errorMsg {batch : List StageNode} (h : (batchPass S batch p).errorMsg = none) :
    p.errorMsg = none :=
  foldl_settleOutcome_errorMsg (runBatch S batch p.engine).1
    { p with engine := (runBatch S batch p.engine).2 } h

variable {p' : Parallel σ}

/-- The error of the batch loop is sticky too. -/
theorem parallelLoop_errorMsg (hrun : parallelLoop S fuel p = some p')
    (hcl : p'.errorMsg = none) : p.errorMsg = none := by
  induction fuel generalizing p with
  | zero => cases hrun
  | succ _ ih =>
    rw [parallelLoop] at hrun
    split at hrun
    · cases hrun
      exact hcl
    have hpa : ∀ batch, (batchPass S batch
        { p with engine := (waitForControl S p.engine).2 }).errorMsg = none →
        p.errorMsg = none := fun _ => batchPass_errorMsg
    dsimp only at hrun
    split at hrun
    · cases hrun
      cases hcl
    split at hrun
    · cases hrun
      exact hcl
    split at hrun
    · cases hrun
      exact hpa _ hcl
    · exact hpa _ (ih hrun)

/-- A batch settled without an error: every stage of it is booked. -/
theorem settleBatch_clean (p : Parallel σ) (hof : ∀ o ∈ outs, ∀ r, o.2 = .ok r → Passed r)
    (h : (outs.foldl (settleOutcome S) p).errorMsg = none) : p.errorMsg = none ∧
    (outs.foldl (settleOutcome S) p).stopRequested = p.stopRequested ∧
    (outs.foldl (settleOutcome S) p).pending =
      p.pending.filter (fun s => s.id ∉ outs.map (·.1.id)) ∧
    (outs.foldl (settleOutcome S) p).engine.state.completedStages =
      p.engine.state.completedStages ++ outs.map (·.1.id) ∧
    trace (outs.foldl (settleOutcome S) p).engine.eventLog =
      trace p.engine.eventLog ++ (outs.map (·.1.id)).map .finished ∧ (∀ i ∈ outs.map (·.1.id), ∃ r,
      (outs.foldl (settleOutcome S) p).engine.state.stageResults i = some r ∧ Passed r) ∧
    ∀ i ∉ outs.map (·.1.id), (outs.foldl (settleOutcome S) p).engine.state.stageResults i =
        p.engine.state.stageResults i := by
  induction outs generalizing p with
  | nil => refine ⟨h, rfl, ?_, ?_, ?_, ?_, ?_⟩ <;> simp
  | cons o outs ih =>
    obtain ⟨stage, out⟩ := o
    rw [foldl_cons] at h ⊢
    obtain ⟨herr, hst, hpe, hco, htr, hpa, hsa⟩ :=
      ih (settleOutcome S p (stage, out)) (fun o ho => hof o (mem_cons_of_mem _ ho)) h
    obtain ⟨r, rfl, herr₀, hst₀, hpe₀, hen₀⟩ := settleOutcome_clean herr
    have hch := charged_chargeBatchStage r p.engine
    have hco₁ : (settleOutcome S p (stage, .ok r)).engine.state.completedStages =
        p.engine.state.completedStages ++ [stage.id] := by
      rw [hen₀, completeStage_completedStages, hch.state]
    have hre₁ : (settleOutcome S p (stage, .ok r)).engine.state.stageResults =
        update p.engine.state.stageResults stage.id (some r) := by
      rw [hen₀, completeStage_stageResults, hch.state]
    have htr₁ : trace (settleOutcome S p (stage, .ok r)).engine.eventLog =
        trace p.engine.eventLog ++ [.finished stage.id] := by
      rw [hen₀, completeStage_eventLog, trace_append, hch.trace_eq]
      rfl
    refine ⟨herr₀, hst.trans hst₀, ?_, ?_, ?_, ?_, ?_⟩
    · rw [hpe, hpe₀, filter_filter]
      refine filter_congr fun s _ => ?_
      rw [Bool.eq_iff_iff]
      simp [and_comm]
    · rw [hco, hco₁]
      simp
    · rw [htr, htr₁]
      simp
    · intro i hi
      by_cases hre : i ∈ outs.map (·.1.id)
      · exact hpa i hre
      have hi' : i = stage.id := by
        rcases mem_cons.mp hi with h | h
        · exact h
        · exact absurd h hre
      refine ⟨r, ?_, hof _ mem_cons_self r rfl⟩
      rw [hsa i hre, hre₁, hi', update_self]
    · intro i hi
      rw [map_cons, mem_cons, not_or] at hi
      rw [hsa i hi.2, hre₁, update_of_ne hi.1]

/-- Acyclicity: as long as a stage is open, one is ready. -/
theorem Topological.exists_ready (ht : Topological w dag) {completed : List Int}
    {s : StageNode} (hs : s ∈ w.stages) (hop : s.id ∉ completed) :
    ∃ x ∈ w.stages, x.id ∉ completed ∧ ∀ d ∈ x.dependsOn, d ∈ completed := by
  have hmem : s.id ∈ dag := ht.perm.mem_iff.mpr (mem_map_of_mem hs)
  have hsp := takeWhile_append_dropWhile (p := fun i => decide (i ∈ completed)) (l := dag)
  cases hdr : dag.dropWhile (fun i => decide (i ∈ completed)) with
  | nil =>
    have := dropWhile_eq_nil_iff.mp hdr s.id hmem
    exact absurd (of_decide_eq_true this) hop
  | cons i =>
    have hne : dag.dropWhile (fun i => decide (i ∈ completed)) ≠ [] := by
      rw [hdr]
      simp
    have hi : i ∉ completed := by
      have := head_dropWhile_not (fun i => decide (i ∈ completed)) hne
      simpa [hdr] using this
    have him : i ∈ dag := by
      rw [← hsp, hdr]
      simp
    obtain ⟨x, hx, rfl⟩ := mem_map.mp (ht.perm.mem_iff.mp him)
    refine ⟨x, hx, hi, ?_⟩
    intro d hd
    rw [hdr] at hsp
    have hbe := ht.deps _ _ _ hsp.symm d (by rwa [w.dependsOn_of_mem hx])
    simpa using mem_takeWhile_imp hbe

/-- Between two batches: what is not completed is pending. -/
structure Batched (w : WorkflowSchema) (p : Parallel σ) : Prop where
  pending : p.pending = w.stages.filter (fun s => s.id ∉ p.engine.state.completedStages)
  running : p.stopRequested = false
  progress : Progress w (trace p.engine.eventLog) p.engine.state

theorem Batched.pass (hki : ∀ s ∈ S.workflow.stages, s.kind = .action) (h : Batched S.workflow p)
    (n : Nat) (hcl : (batchPass S ((readyStages p).take n) p).errorMsg = none) :
    Batched S.workflow (batchPass S ((readyStages p).take n) p) := by
  set batch := (readyStages p).take n
  obtain ⟨hfst, hco, hrs, htr, hof⟩ := runBatch_spec S batch p.engine
  rw [batchPass] at hcl ⊢
  set outs := (runBatch S batch p.engine).1
  have hids : outs.map (·.1.id) = batch.map (·.id) := by
    rw [← hfst, map_map]
    rfl
  have hre : ∀ s ∈ batch, s ∈ S.workflow.stages ∧ s.id ∉ p.engine.state.completedStages ∧
      ∀ d ∈ s.dependsOn, d ∈ p.engine.state.completedStages := by
    intro s hs
    have hs' := mem_of_mem_take hs
    rw [readyStages, h.pending, mem_filter, mem_filter] at hs'
    obtain ⟨⟨hmem, hop⟩, hde⟩ := hs'
    exact ⟨hmem, by simpa using hop, by simpa using hde⟩
  have hps : ∀ o ∈ outs, ∀ r, o.2 = .ok r → Passed r := by
    intro o ho r hr
    have hmem : o.1 ∈ batch := by
      rw [← hfst]
      exact mem_map_of_mem ho
    refine .inl ((hof o ho r hr).other ?_)
    rw [hki o.1 (hre o.1 hmem).1]
    decide
  have hnd : (batch.map (·.id)).Nodup := by
    have hsub : batch.Sublist S.workflow.stages := by
      refine (take_sublist _ _).trans ?_
      rw [readyStages, h.pending]
      exact filter_sublist.trans filter_sublist
    exact (hsub.map _).nodup S.workflow.distinct
  obtain ⟨-, hst, hpe, hco', htr', hpa, hsa⟩ :=
    settleBatch_clean outs { p with engine := (runBatch S batch p.engine).2 } hps hcl
  rw [hids] at hpe hco' htr' hpa hsa
  refine ⟨?_, hst.trans h.running, ?_⟩
  · rw [hpe, hco', hco, h.pending, filter_filter]
    refine filter_congr fun s _ => ?_
    rw [Bool.eq_iff_iff]
    simp [and_comm]
  rw [htr', htr, append_assoc]
  refine h.progress.batch hnd ?_ ?_ ?_ hpa ?_
  · intro i hi
    obtain ⟨s, hs, rfl⟩ := mem_map.mp hi
    exact (hre s hs).2.1
  · intro i hi d hd
    obtain ⟨s, hs, rfl⟩ := mem_map.mp hi
    rw [S.workflow.dependsOn_of_mem (hre s hs).1] at hd
    exact (hre s hs).2.2 d hd
  · rw [hco', hco]
  · intro i hi
    rw [hsa i hi, hrs]

variable (ht : Topological S.workflow dag)

include ht

theorem parallelLoop_clean (hki : ∀ s ∈ S.workflow.stages, s.kind = .action)
    (h : Batched S.workflow p) (hrun : parallelLoop S fuel p = some p')
    (hcl : p'.errorMsg = none) : Batched S.workflow p' ∧ p'.pending = [] := by
  induction fuel generalizing p with
  | zero => cases hrun
  | succ _ ih =>
    rw [parallelLoop] at hrun
    split at hrun
    · rename_i hpe
      cases hrun
      exact ⟨h, hpe⟩
    rename_i s rest hpe
    obtain ⟨go, env, hctl⟩ := waitForControl_eq S p.engine
    rw [hctl] at hrun
    have h' : Batched S.workflow { p with engine := { p.engine with env := env } } :=
      { h with }
    dsimp only at hrun
    split at hrun
    · cases hrun
      cases hcl
    split at hrun
    · rename_i hre
      -- an open stage and no ready one contradict the topological order
      have hs : s ∈ S.workflow.stages ∧ s.id ∉ p.engine.state.completedStages := by
        have : s ∈ p.pending := by simp [hpe]
        rw [h.pending] at this
        simpa using this
      obtain ⟨x, hx, hop, hde⟩ := ht.exists_ready hs.1 hs.2
      have hmem : x ∈ readyStages { p with engine := { p.engine with env := env } } := by
        rw [readyStages, h'.pending, mem_filter, mem_filter]
        exact ⟨⟨hx, by simpa using hop⟩, by simpa using hde⟩
      rw [hre] at hmem
      cases hmem
    · split at hrun
      · rename_i hst
        cases hrun
        have hb := h'.pass hki _ hcl
        rw [hb.running] at hst
        cases hst
      · exact ih (h'.pass hki _ (parallelLoop_errorMsg hrun hcl)) hrun

/-! ## §4 A fresh run -/

omit ht in
theorem initStatuses_state (stages : List StageNode) (s : WorkflowState) :
    (initStatuses stages s).completedStages = s.completedStages ∧
    (initStatuses stages s).stageResults = s.stageResults := by
  induction stages generalizing s with
  | nil => exact ⟨rfl, rfl⟩
  | cons stage _ ih => exact ih (s.setStatus stage.id .pending)

omit ht in
theorem prepareRun_fresh (S : Setup σ) (dag : List Int) (disk : Option Checkpoint) (env : σ) :
    (prepareRun S dag none (.fresh S disk env)).state.completedStages = [] ∧
    trace (prepareRun S dag none (.fresh S disk env)).eventLog = [] :=
  ⟨(initStatuses_state _ _).1, rfl⟩

theorem schedulesParallel_kinds (hs : s.completedStages = [])
    (h : schedulesParallel S dag 0 s = true) :
    ∀ stage ∈ S.workflow.stages, stage.kind = .action := by
  intro stage hst
  have hmem : stage.id ∈ dag := ht.perm.mem_iff.mpr (mem_map_of_mem hst)
  exact schedulesParallel_action h hst hmem (by simp [hs])

/-- Everything completed, from a run of either scheduler. -/
structure Finished (w : WorkflowSchema) (r : WorkflowResult) (e : Engine σ) : Prop where
  all : ∀ i ∈ w.stageIds, i ∈ e.state.completedStages
  progress : Progress w (trace e.eventLog) e.state
  results : r.stageResults = e.state.stageResults

variable {r : WorkflowResult}

theorem executeSequential_finished (hki : ∀ s ∈ S.workflow.stages, s.kind ≠ .decision)
    (hst : e.state.completedStages = []) (htr : trace e.eventLog = [])
    (h : executeSequential S dag fuel 0 e = some (.ok r, e')) (hs : r.success = true) :
    Finished S.workflow r e' := by
  rw [executeSequential, Option.map_eq_some_iff] at h
  obtain ⟨⟨out, e₁⟩, hlo, hout⟩ := h
  rcases out with _ | errorMsg
  · cases hout
  cases hout
  have hno : errorMsg = none := Option.isNone_iff_eq_none.mp hs
  subst hno
  have hwa : Walked S.workflow dag 0 e :=
    ⟨Nat.zero_le _, by simpa using hst, by rw [htr]; exact .start _ hst⟩
  obtain ⟨idx, hlen, hend⟩ := runLoop_success_induct
    (Walked S.workflow dag) (fun _ _ _ _ hI hp => hI.pass ht hki hp)
    hwa hlo
  have hdo : e₁.state.completedStages = dag := by
    rw [hend.completed, take_of_length_le hlen]
  refine ⟨?_, ?_, rfl⟩
  · intro i hi
    rw [closeRun_state, hdo]
    exact ht.perm.mem_iff.mpr hi
  · rw [closeRun_trace, closeRun_state]
    exact hend.progress

theorem executeParallelActions_finished (hki : ∀ s ∈ S.workflow.stages, s.kind = .action)
    (hst : e.state.completedStages = []) (htr : trace e.eventLog = [])
    (h : executeParallelActions S fuel e = some (.ok r, e')) (hs : r.success = true) :
    Finished S.workflow r e' := by
  rw [executeParallelActions, Option.map_eq_some_iff] at h
  obtain ⟨p, hlo, hout⟩ := h
  cases hout
  have hno : p.errorMsg = none := Option.isNone_iff_eq_none.mp hs
  obtain ⟨hend, hem⟩ := parallelLoop_clean ht hki
    ⟨rfl, rfl, by rw [htr]; exact .start _ hst⟩ hlo hno
  refine ⟨?_, ?_, rfl⟩
  · intro i hi
    obtain ⟨s, hs, rfl⟩ := mem_map.mp hi
    rw [closeRun_state]
    by_contra hop
    have hmem : s ∈ p.pending := by
      rw [hend.pending, mem_filter]
      exact ⟨hs, by simpa using hop⟩
    rw [hem] at hmem
    cases hmem
  · rw [closeRun_trace, closeRun_state]
    exact hend.progress

omit ht

/-- **Success is sound.** A fresh run of either scheduler that reports success
has started and finished every stage once, each after all its dependencies had
finished, and holds a completed or approved result for each. -/
theorem execute_success_sound (S : Setup σ) (hkinds : ∀ s ∈ S.workflow.stages, s.kind ≠ .decision)
    (fuel : Nat) (disk : Option Checkpoint) (env : σ) (r : WorkflowResult) (e' : Engine σ)
    (h : execute S fuel none (Engine.fresh S disk env) = some (.ok r, e')) (hs : r.success = true) :
    ∀ stage ∈ S.workflow.stages, (trace e'.eventLog).count (.started stage.id) = 1 ∧
      (trace e'.eventLog).count (.finished stage.id) = 1 ∧
      (∀ pre post, trace e'.eventLog = pre ++ .started stage.id :: post →
        ∀ d ∈ stage.dependsOn, .finished d ∈ pre) ∧ ∃ res, r.stageResults stage.id = some res ∧
        (res.status = .completed ∨ res.status = .gateApproved) := by
  have hfi : Finished S.workflow r e' := by
    unfold execute at h
    split at h
    · cases h
      cases hs
    rename_i dag hdag
    have ht := Topological.of_buildDagOrder hdag
    obtain ⟨hco, htr⟩ := prepareRun_fresh S dag disk env
    dsimp only at h
    split at h
    · rename_i hpar
      exact executeParallelActions_finished ht (schedulesParallel_kinds ht hco hpar) hco htr h hs
    · exact executeSequential_finished ht hkinds hco htr h hs
  intro stage hst
  have hdo := hfi.all stage.id (mem_map_of_mem hst)
  refine ⟨?_, ?_, ?_, ?_⟩
  · rw [hfi.progress.started, if_pos hdo]
  · rw [hfi.progress.finished, if_pos hdo]
  · intro pre post heq d hd
    exact hfi.progress.deps pre stage.id post heq d (by rwa [S.workflow.dependsOn_of_mem hst])
  · rw [hfi.results]
    exact hfi.progress.results stage.id hdo

/-! ## §5 A run of three stages -/

/-- A runner whose every stage succeeds and whose every gate approves. -/
def approvingRunner : StageRunner Unit where
  run := fun _ _ env => (.returned { success := true }, env)
  runAction := fun _ _ env => (.returned { success := true }, env)
  runGate := fun _ _ env => (.returned { approved := true }, env)
  runDecision := fun _ _ env => (.returned {}, env)

/-- Plan, review gate, deployment. -/
def reviewWorkflow : WorkflowSchema where
  name := "review"
  stages := [
    { id := 1, name := "plan", kind := .agent },
    { id := 2, name := "review", kind := .gate, dependsOn := [1] },
    { id := 3, name := "deploy", kind := .action, dependsOn := [2, 1], uses := "deploy" }]
  distinct := by decide

def reviewSetup : Setup Unit where
  workflow := reviewWorkflow
  stageRunner := some approvingRunner
  validateAll := fun _ env => ([], env)
  restoreSnapshot := fun _ env => (true, env)

/-- The run returned and reported success. -/
def succeeded (out : Option (Except EngineError WorkflowResult × Engine σ)) : Bool :=
  match out with
  | some (.ok r, _) => r.success
  | _ => false

theorem exists_of_succeeded {out : Option (Except EngineError WorkflowResult × Engine σ)}
    (h : succeeded out = true) : ∃ r e, out = some (.ok r, e) ∧ r.success = true := by
  unfold succeeded at h
  split at h
  · exact ⟨_, _, rfl, h⟩
  · cases h

theorem execute_success_sound_review : ∃ r e',
    execute reviewSetup 4 none (Engine.fresh reviewSetup none ()) = some (.ok r, e') ∧
    r.success = true ∧ (trace e'.eventLog).count (.started 3) = 1 := by
  have hrun : succeeded (execute reviewSetup 4 none (.fresh reviewSetup none ())) = true := by
    decide +kernel
  obtain ⟨r, e', h, hs⟩ := exists_of_succeeded hrun
  have hso := execute_success_sound reviewSetup (by decide) 4 none () r e' h hs
  exact ⟨r, e', h, hs, (hso _ (by decide : reviewWorkflow.stages[2] ∈ _)).1⟩

end Orchestratord.Workflow
