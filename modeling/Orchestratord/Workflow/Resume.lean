import Orchestratord.Workflow.Trace

/-!
# Interrupted runs

`WorkflowOrchestrator.run` over the checkpoint on disk, and the points at which
a run can be cut: between two passes of the loop, in a pass after the stage has
run but before it is booked, and after the booking has written the checkpoint.
The orchestrator's engine is always sequential, with snapshots enabled.
-/

namespace Orchestratord.Workflow

variable {σ : Type}

/-! ## §1 The orchestrator -/

structure Orchestrator (σ : Type) where
  workflow : WorkflowSchema
  costBudgetUsd : ℚ := 0
  agentTimeoutSeconds : Int := 1800
  stageRunner : StageRunner σ
  validateAll : List String → σ → List ValidationResult × σ
  restoreSnapshot : Int → σ → Bool × σ
  writeCheckpoint : σ → Bool × σ

variable (O : Orchestrator σ)

def Orchestrator.setup : Setup σ where
  workflow := O.workflow
  config :=
    { costBudget := { maxTotalUsd := if O.costBudgetUsd = 0 then 50 else O.costBudgetUsd }
      defaultTimeoutSeconds := O.agentTimeoutSeconds
      enableSnapshots := true }
  stageRunner := some O.stageRunner
  validateAll := O.validateAll
  restoreSnapshot := O.restoreSnapshot
  checkpointManager := some O.writeCheckpoint

/-- `from_stage` and engine of a run: a checkpoint with completed stages is
restored and resumed one past its largest stage id. -/
def loadEngine (disk : Option Checkpoint) (env : σ) : Option Int × Engine σ :=
  let fresh := .fresh O.setup disk env
  match disk with
  | none => (none, fresh)
  | some c =>
    match c.completedStages.max? with
    | none => (none, fresh)
    | some last =>
      (some (last + 1),
        { fresh with
          state := c.restoreState
          costTracker := fresh.costTracker.loadState c.costAccumulatedUsd
          decisionHistory := c.decisionHistory })

/-- After `execute`: delete the checkpoint of a success, save one for a failure. -/
def closeCheckpoint (r : WorkflowResult) (e : Engine σ) :
    Except EngineError WorkflowResult × Engine σ :=
  if r.success then (.ok r, { e with checkpoint := none })
  else
    let out := O.writeCheckpoint e.env
    if out.1 then
      (.ok r, { e with env := out.2, checkpoint := some (.ofState e.state []) })
    else (.error (.workflow "Failed to save checkpoint"), { e with env := out.2 })

def run (fuel : Nat) (disk : Option Checkpoint) (env : σ) :
    Option (Except EngineError WorkflowResult × Engine σ) :=
  let start := loadEngine O disk env
  (execute O.setup fuel start.1 start.2).map fun out =>
    match out.1 with
    | .ok r => closeCheckpoint O r out.2
    | .error err => (.error err, out.2)

/-- Order, start index and engine at the loop's first pass. -/
def beginRun (disk : Option Checkpoint) (env : σ) : Except String (List Int × Nat × Engine σ) :=
  let start := loadEngine O disk env
  O.workflow.buildDagOrder.map fun dagOrder =>
    (dagOrder, startIndex dagOrder start.1, prepareRun O.setup dagOrder start.1 start.2)

theorem schedulesParallel_orchestrator (dag : List Int) (start : Nat)
    (s : WorkflowState) : schedulesParallel O.setup dag start s = false := by
  simp [schedulesParallel, Orchestrator.setup]

variable {S : Setup σ} {dag : List Int} {n fuel idx idx' : Nat} {m' : Option String}
  {e e' e₁ : Engine σ} {O : Orchestrator σ} {disk : Option Checkpoint} {env : σ} {start : Nat}

theorem beginRun_ok (h : beginRun O disk env = .ok (dag, start, e)) :
    O.workflow.buildDagOrder = .ok dag ∧ start = startIndex dag (loadEngine O disk env).1 ∧
      e = prepareRun O.setup dag (loadEngine O disk env).1 (loadEngine O disk env).2 := by
  rw [beginRun] at h
  cases hdag : O.workflow.buildDagOrder with
  | error =>
    rw [hdag] at h
    cases h
  | ok =>
    rw [hdag] at h
    cases h
    exact ⟨rfl, rfl, rfl⟩

/-- A successful run is a clean run of the sequential loop. -/
theorem run_success {r : WorkflowResult}
    (h : run O fuel disk env = some (.ok r, e')) (hs : r.success = true) :
    ∃ dag start e e₁, beginRun O disk env = .ok (dag, start, e) ∧
      runLoop O.setup dag fuel start none e = some (.ok none, e₁) ∧
      e' = { closeRun none e₁ with checkpoint := none } := by
  rw [run, Option.map_eq_some_iff] at h
  obtain ⟨⟨out, e₂⟩, hex, hcl⟩ := h
  rcases out with _ | r₂
  · cases hcl
  dsimp only at hcl
  have hr : r₂.success = true ∧ r₂ = r ∧ e' = { e₂ with checkpoint := none } := by
    unfold closeCheckpoint at hcl
    split at hcl
    · rename_i hsu
      cases hcl
      exact ⟨hsu, rfl, rfl⟩
    · rename_i hfa
      dsimp only at hcl
      split at hcl
      · cases hcl
        exact absurd hs hfa
      · cases hcl
  obtain ⟨hs₂, rfl, rfl⟩ := hr
  rw [execute] at hex
  cases hdag : O.setup.workflow.buildDagOrder with
  | error =>
    rw [hdag] at hex
    cases hex
    cases hs₂
  | ok dag =>
    rw [hdag] at hex
    dsimp only at hex
    rw [schedulesParallel_orchestrator, if_neg (by decide), executeSequential,
      Option.map_eq_some_iff] at hex
    obtain ⟨⟨out, e₁⟩, hlo, hout⟩ := hex
    rcases out with _ | m
    · cases hout
    cases hout
    have hm : m = none := Option.isNone_iff_eq_none.mp hs₂
    subst hm
    refine ⟨dag, _, _, e₁, ?_, hlo, rfl⟩
    have hdag' : O.workflow.buildDagOrder = .ok dag := hdag
    rw [beginRun, hdag']
    rfl

/-- Conversely, a clean run of the loop makes the run a success. -/
theorem run_of_runLoop (hbe : beginRun O disk env = .ok (dag, start, e))
    (hlo : runLoop O.setup dag fuel start none e = some (.ok none, e₁)) :
    ∃ r, run O fuel disk env = some (.ok r, { closeRun none e₁ with checkpoint := none }) ∧
      r.success = true := by
  obtain ⟨hdag, rfl, rfl⟩ := beginRun_ok hbe
  have hdag' : O.setup.workflow.buildDagOrder = .ok dag := hdag
  refine ⟨runResult O.setup none (closeRun none e₁).state.conversationId (closeRun none e₁), ?_, rfl⟩
  rw [run, execute, hdag']
  dsimp only
  rw [schedulesParallel_orchestrator, executeSequential, hlo]
  rfl

/-! ## §2 Passes -/

/-- `n` passes of the loop, none of which ended it. -/
def loopPasses (S : Setup σ) (dagOrder : List Int) :
    Nat → Nat → Option String → Engine σ → Option (Nat × Option String × Engine σ)
  | 0, idx, errorMsg, e => some (idx, errorMsg, e)
  | n + 1, idx, errorMsg, e =>
    match loopStep S dagOrder idx errorMsg e with
    | .next idx errorMsg e => loopPasses S dagOrder n idx errorMsg e
    | _ => none

variable {m : Option String}

theorem loopPasses_next {out : Nat × Option String × Engine σ}
    (h : loopPasses S dag (n + 1) idx m e = some out) :
    ∃ idx₁ m₁ e₁, loopStep S dag idx m e = .next idx₁ m₁ e₁ ∧
      loopPasses S dag n idx₁ m₁ e₁ = some out := by
  rw [loopPasses] at h
  cases hst : loopStep S dag idx m e with
  | next idx₁ m₁ e₁ =>
    rw [hst] at h
    exact ⟨idx₁, m₁, e₁, rfl, h⟩
  | stop | raise =>
    rw [hst] at h
    cases h

/-- What a run has left to do after some passes. -/
theorem runLoop_after_passes {out : Except EngineError (Option String) × Engine σ}
    (hrun : runLoop S dag fuel idx m e = some out)
    (hpa : loopPasses S dag n idx m e = some (idx', m', e')) :
    ∃ fuel', fuel = fuel' + n ∧ runLoop S dag fuel' idx' m' e' = some out := by
  induction n generalizing fuel idx m e with
  | zero =>
    cases hpa
    exact ⟨fuel, rfl, hrun⟩
  | succ _ ih =>
    obtain ⟨_, _, _, hst, hpa⟩ := loopPasses_next hpa
    cases fuel with
    | zero => cases hrun
    | succ =>
      rw [runLoop, hst] at hrun
      obtain ⟨fuel', _, hre⟩ := ih hrun hpa
      exact ⟨fuel', by omega, hre⟩

/-- Passes of a run that ends without an error left the flag unset. -/
theorem loopPasses_flag (hrun : runLoop S dag fuel idx m e = some (.ok none, e₁))
    (hpa : loopPasses S dag n idx m e = some (idx', m', e')) : m' = none := by
  obtain ⟨fuel', -, hre⟩ := runLoop_after_passes hrun hpa
  cases m' with
  | none => rfl
  | some text => exact absurd hre (runLoop_flag_sticky S dag fuel' idx' text e' e₁)

/-- What clean passes preserve. -/
theorem loopPasses_induct (I : Nat → Engine σ → Prop)
    (hst : ∀ idx e idx' e', I idx e → CleanPass S dag idx e idx' e' → I idx' e')
    (hrun : runLoop S dag fuel idx none e = some (.ok none, e₁))
    (hpa : loopPasses S dag n idx none e = some (idx', m', e')) (hI : I idx e) :
    I idx' e' := by
  induction n generalizing fuel idx e with
  | zero =>
    cases hpa
    exact hI
  | succ n ih =>
    obtain ⟨_, m₁, _, hs, hpa⟩ := loopPasses_next hpa
    cases fuel with
    | zero => cases hrun
    | succ =>
      rw [runLoop, hs] at hrun
      obtain rfl : m₁ = none := loopPasses_flag (n := 0) hrun rfl
      exact ih hrun hpa (hst _ _ _ _ hI (.of_loopStep hs))

/-- The state of a run after `n` passes of its loop. -/
def runPasses (O : Orchestrator σ) (n : Nat) (disk : Option Checkpoint) (env : σ) :
    Option (Nat × Option String × Engine σ) :=
  match beginRun O disk env with
  | .error _ => none
  | .ok (dagOrder, start, e) => loopPasses O.setup dagOrder n start none e

end Orchestratord.Workflow
