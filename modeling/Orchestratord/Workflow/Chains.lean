import Orchestratord.Foundation.Runs
import Orchestratord.Workflow.Decisions
import Orchestratord.Workflow.Resume

/-!
# Chains of runs joined by checkpoints

A run of a workflow ends in success, in failure or by the death of its process, and the next one
takes up the checkpoint it left, if there is one. The machine here goes through such a chain: one
step is the start of a run, one iteration of the scheduler that the run has come to, its closing,
or its end at any point in between. The event log goes on from run to run, and so does the sum of
the costs that the runner reported; both start anew when there is no checkpoint to go on from.
-/

namespace Orchestratord.Workflow

open Foundation List

variable {σ : Type}

/-! ## §1 One iteration -/

/-- The next batch, and the engine it runs in. -/
def batchToRun (S : Setup σ) (p : Parallel σ) : List StageNode × Engine σ :=
  let control := waitForControl S p.engine
  let ready := readyStages { p with engine := control.2 }
  (if !control.1 || p.pending.isEmpty then []
    else ready.take (max 1 S.config.maxConcurrentStages).toNat, control.2)

/-- The next batch has run, and its first `n` outcomes are settled. -/
def batchBooked (S : Setup σ) (n : Nat) (p : Parallel σ) : Parallel σ :=
  let batch := batchToRun S p
  let outs := runBatch S batch.1 batch.2
  (outs.1.take n).foldl (settleOutcome S) { p with engine := outs.2 }

inductive BatchStep (σ : Type) where
  | next (p : Parallel σ)
  | stop (p : Parallel σ)

/-- One iteration of the batch loop. -/
def batchStep (S : Setup σ) (p : Parallel σ) : BatchStep σ :=
  match p.pending with
  | [] => .stop p
  | _ :: _ =>
    let control := waitForControl S p.engine
    let p := { p with engine := control.2 }
    if !control.1 then
      .stop { p with errorMsg := some "workflow run cancelled", stopRequested := true }
    else
      let ready := readyStages p
      if ready = [] then .stop { p with engine := skipAll p.pending p.engine }
      else
        let p := batchPass S (ready.take (max 1 S.config.maxConcurrentStages).toNat) p
        if p.stopRequested then .stop p else .next p

theorem parallelLoop_succ (S : Setup σ) (fuel : Nat) (p : Parallel σ) :
    parallelLoop S (fuel + 1) p = match batchStep S p with
      | .next p => parallelLoop S fuel p
      | .stop p => some p := by
  rw [parallelLoop, batchStep]
  rcases p.pending with _ | _
  · rfl
  dsimp only
  by_cases hgo : (!(waitForControl S p.engine).1) = true
  · rw [if_pos hgo, if_pos hgo]
  rw [if_neg hgo]
  split
  · rfl
  · split <;> rfl

/-! ## §2 Reported costs -/

def RunOutcome.cost : RunOutcome StageRunResult → ℚ
  | .returned r => r.costUsd
  | .timedOut | .raised _ => 0

/-- What the runner reports for a stage. Gates and decisions report no cost. -/
def reportedCost (S : Setup σ) (stage : StageNode) (e : Engine σ) : ℚ :=
  let state := e.state.markStageRunning stage.id
  match S.stageRunner, stage.kind with
  | some runner, .agent => (runner.run stage state e.env).1.cost
  | some runner, .action =>
    if stage.uses = "" then 0 else (runner.runAction stage state e.env).1.cost
  | _, _ => 0

/-- What it reports for the stages of a batch. -/
def batchCost (S : Setup σ) : List StageNode → Engine σ → ℚ
  | [], _ => 0
  | stage :: rest, e => reportedCost S stage e + batchCost S rest (executeStage S stage e).2

/-! ## §3 The machine -/

inductive Mode where
  /-- No run is on. -/
  | idle
  | looping (dagOrder : List Int) (idx : Nat) (errorMsg : Option String)
  | batching (pending : List StageNode) (errorMsg : Option String)
  /-- `execute` has come to its end. -/
  | ended (errorMsg : Option String)
deriving DecidableEq

structure Chain (σ : Type) where
  /-- The engine of the run; between runs only its disk, its world and its log count. -/
  engine : Engine σ
  mode : Mode
  /-- The sum of the costs that the runner reported in the runs of the chain. -/
  spent : ℚ

inductive ChainStep where
  | begin
  | advance
  /-- The process dies in an iteration, when the stage has run, or `n` stages of the batch. -/
  | cutRun (n : Nat)
  /-- It dies when the stage has been booked, or `n` outcomes of the batch. -/
  | cutBooked (n : Nat)
  | kill
  | close
  | shutdown

/-- `from_stage` and engine of a run over the checkpoint on disk. -/
def resumeEngine (S : Setup σ) (disk : Option Checkpoint) (env : σ) : Option Int × Engine σ :=
  let fresh := .fresh S disk env
  match disk with
  | none => (none, fresh)
  | some c =>
    match c.completedStages.max? with
    | none => (none, fresh)
    | some last =>
      (some (last + 1),
        { fresh with
          state := c.restoreState
          costTracker := fresh.costTracker.loadState c.costAccumulatedUsd
          decisionHistory := c.decisionHistory })

/-- Write a checkpoint of the state alone, as is done outside of the engine. -/
def saveStateOnly (S : Setup σ) (e : Engine σ) : Engine σ :=
  match S.checkpointManager with
  | none => e
  | some write =>
    let out := write e.env
    { e with
      env := out.2
      checkpoint := if out.1 then some (.ofState e.state []) else e.checkpoint }

namespace Chain

variable (S : Setup σ)

/-- No checkpoint, and nothing run yet. -/
def start (env : σ) : Chain σ := ⟨.fresh S none env, .idle, 0⟩

variable (c : Chain σ)

/-- The engine of a new run, before the run prepares it. -/
def loaded : Engine σ :=
  { (resumeEngine S c.engine.checkpoint c.engine.env).2 with
    eventLog := if c.engine.checkpoint.isSome then c.engine.eventLog else [] }

/-- What the costs of a new run are added to. -/
def carriedOver : ℚ := if c.engine.checkpoint.isSome then c.spent else 0

/-- `execute`, up to the first iteration of its scheduler. -/
def launch (fromStage : Option Int) (e : Engine σ) (spent : ℚ) : Chain σ :=
  match S.workflow.buildDagOrder with
  | .error message => ⟨e, .ended (some message), spent⟩
  | .ok dagOrder =>
    let idx := startIndex dagOrder fromStage
    let e := prepareRun S dagOrder fromStage e
    if schedulesParallel S dagOrder idx e.state then
      ⟨e, .batching (S.workflow.stages.filter (fun s => s.id ∉ e.state.completedStages)) none, spent⟩
    else ⟨e, .looping dagOrder idx none, spent⟩

def begin : Chain σ :=
  launch S (resumeEngine S c.engine.checkpoint c.engine.env).1 (c.loaded S) c.carriedOver

/-- What the runner reports in the iteration. -/
def iterationCost : ℚ :=
  match c.mode with
  | .looping dagOrder idx _ =>
    match stageToRun S dagOrder idx c.engine with
    | none => 0
    | some (stage, e) => reportedCost S stage e
  | .batching pending errorMsg =>
    let batch := batchToRun S { pending, errorMsg, engine := c.engine }
    batchCost S batch.1 batch.2
  | _ => 0

/-- One iteration of the scheduler; an exception ends the run. -/
def advance : Chain σ :=
  let spent := c.spent + c.iterationCost S
  match c.mode with
  | .looping dagOrder idx errorMsg =>
    match loopStep S dagOrder idx errorMsg c.engine with
    | .next idx errorMsg e => ⟨e, .looping dagOrder idx errorMsg, spent⟩
    | .stop errorMsg e => ⟨closeRun errorMsg e, .ended errorMsg, spent⟩
    | .raise _ e => ⟨e, .idle, spent⟩
  | .batching pending errorMsg =>
    match batchStep S { pending, errorMsg, engine := c.engine } with
    | .next p => ⟨p.engine, .batching p.pending p.errorMsg, spent⟩
    | .stop p => ⟨closeRun p.errorMsg p.engine, .ended p.errorMsg, spent⟩
  | _ => c

/-- The engine, and the costs reported, when the stages of an iteration have run. -/
def cutRun (n : Nat) (c : Chain σ) : Chain σ :=
  match c.mode with
  | .looping dagOrder idx _ =>
    match stageToRun S dagOrder idx c.engine with
    | none => ⟨c.engine, .idle, c.spent⟩
    | some (stage, e) => ⟨(executeStage S stage e).2, .idle, c.spent + reportedCost S stage e⟩
  | .batching pending errorMsg =>
    let batch := batchToRun S { pending, errorMsg, engine := c.engine }
    ⟨(runBatch S (batch.1.take n) batch.2).2, .idle, c.spent + batchCost S (batch.1.take n) batch.2⟩
  | _ => ⟨c.engine, .idle, c.spent⟩

/-- The same when stages have been booked as well. -/
def cutBooked (n : Nat) (c : Chain σ) : Chain σ :=
  match c.mode with
  | .looping dagOrder idx _ =>
    match stageToRun S dagOrder idx c.engine with
    | none => ⟨c.engine, .idle, c.spent⟩
    | some (stage, e) =>
      let out := executeStage S stage e
      let e' := match out.1 with
        | .ok result => completeStage S stage result out.2
        | .error _ => out.2
      ⟨e', .idle, c.spent + reportedCost S stage e⟩
  | .batching pending errorMsg =>
    let p := { pending, errorMsg, engine := c.engine }
    let batch := batchToRun S p
    ⟨(batchBooked S n p).engine, .idle, c.spent + batchCost S batch.1 batch.2⟩
  | _ => ⟨c.engine, .idle, c.spent⟩

/-- The end of `WorkflowOrchestrator.run`: a success deletes the checkpoint, a failure saves the
state once more. -/
def close : Chain σ :=
  match c.mode, S.checkpointManager with
  | .ended none, some _ => ⟨{ c.engine with checkpoint := none }, .idle, c.spent⟩
  | .ended none, none => ⟨c.engine, .idle, c.spent⟩
  | .ended (some _), _ => ⟨saveStateOnly S c.engine, .idle, c.spent⟩
  | _, _ => c

def step : ChainStep → Chain σ
  | .begin =>
    match c.mode with
    | .idle => c.begin S
    | _ => c
  | .advance => c.advance S
  | .cutRun n => c.cutRun S n
  | .cutBooked n => c.cutBooked S n
  | .kill => ⟨c.engine, .idle, c.spent⟩
  | .close => c.close S
  | .shutdown =>
    match c.mode with
    | .idle => c
    | _ => ⟨saveStateOnly S c.engine, .idle, c.spent⟩

end Chain

/-! ## §4 What the machine goes through is what a run does -/

variable {S : Setup σ} {dag : List Int} {idx : Nat} {e e' : Engine σ} {stage : StageNode}
  {p : Parallel σ}

theorem batchStep_next {p' : Parallel σ} (h : batchStep S p = .next p') :
    p'.stopRequested = false := by
  unfold batchStep at h
  split at h
  · cases h
  dsimp only at h
  split at h
  · cases h
  split at h
  · cases h
  split at h
  · cases h
  · rename_i hgo
    cases h
    exact Bool.eq_false_iff.mpr hgo

variable {out : StageOutcome σ}

theorem Started.mem_stageIds (h : Started S dag idx e stage out) : stage.id ∈ S.workflow.stageIds :=
  mem_map_of_mem (S.workflow.getStage_some h.found).1

theorem Quiet.skipAll (h : Quiet e e') (stages : List StageNode) : Quiet e (skipAll stages e') := by
  induction stages generalizing e' with
  | nil => exact h
  | cons stage _ ih => exact ih (h.skipStage stage)

variable {pending : List StageNode}

namespace Chain

variable {fuel : Nat} {m : Option String}

/-- Up to `n` iterations of the machine. -/
def iterate (S : Setup σ) (c : Chain σ) (n : Nat) : Chain σ :=
  runFrom (step S) c (replicate n .advance)

/-- Within `fuel` iterations the machine comes to the mode and the engine given; or it is still
in its scheduler after them. -/
def ComesTo (S : Setup σ) (c : Chain σ) (fuel : Nat) : Option (Mode × Engine σ) → Prop
  | none => match (iterate S c fuel).mode with
    | .looping .. | .batching .. => True
    | .idle | .ended _ => False
  | some (mode, e') => ∃ n ≤ fuel, ∃ spent, iterate S c n = ⟨e', mode, spent⟩

theorem ComesTo.advance {c : Chain σ} {result : Option (Mode × Engine σ)}
    (h : ComesTo S (c.advance S) fuel result) : ComesTo S c (fuel + 1) result := by
  cases result with
  | none => exact h
  | some =>
    obtain ⟨n, hn, hre⟩ := h
    exact ⟨n + 1, Nat.succ_le_succ hn, hre⟩

theorem ComesTo.here (e' : Engine σ) (mode : Mode) (spent : ℚ) :
    ComesTo S ⟨e', mode, spent⟩ fuel (some (mode, e')) := ⟨0, Nat.zero_le fuel, spent, rfl⟩

/-- Where `_run_loop` leaves the machine. -/
def loopEnd : Except EngineError (Option String) × Engine σ → Mode × Engine σ
  | (.ok m', e') => (.ended m', closeRun m' e')
  | (.error _, e') => (.idle, e')

theorem comesTo_runLoop (spent : ℚ) : ComesTo S ⟨e, .looping dag idx m, spent⟩ fuel
    ((runLoop S dag fuel idx m e).map loopEnd) := by
  induction fuel generalizing idx m e spent with
  | zero => trivial
  | succ _ ih =>
    apply ComesTo.advance
    rw [runLoop, Chain.advance]
    dsimp only
    cases loopStep S dag idx m e with
    | next => exact ih _
    | stop | raise => exact .here _ _ _

theorem comesTo_parallelLoop (spent : ℚ) : ComesTo S ⟨e, .batching pending m, spent⟩ fuel
    ((parallelLoop S fuel { pending, errorMsg := m, engine := e }).map fun p =>
      (.ended p.errorMsg, closeRun p.errorMsg p.engine)) := by
  induction fuel generalizing pending m e spent with
  | zero => trivial
  | succ _ ih =>
    apply ComesTo.advance
    rw [parallelLoop_succ, Chain.advance]
    dsimp only
    cases hst : batchStep S { pending, errorMsg := m, engine := e } with
    | next p₁ =>
      obtain ⟨_, _, stop₁, _⟩ := p₁
      obtain rfl : stop₁ = false := batchStep_next hst
      exact ih _
    | stop => exact .here _ _ _

/-- Where `execute` leaves the machine. -/
def executeEnd : Except EngineError WorkflowResult × Engine σ → Mode × Engine σ
  | (.ok r, e') => (.ended r.error, e')
  | (.error _, e') => (.idle, e')

/-- An execution is a run of the machine, whichever scheduler it takes. -/
theorem comesTo_execute (fromStage : Option Int) (spent : ℚ) :
    ComesTo S (launch S fromStage e spent) fuel ((execute S fuel fromStage e).map executeEnd) := by
  unfold launch execute
  cases S.workflow.buildDagOrder with
  | error => exact .here _ _ _
  | ok dag =>
    dsimp only
    split
    · rw [executeParallelActions, Option.map_map]
      exact comesTo_parallelLoop spent
    · rw [executeSequential, Option.map_map]
      convert comesTo_runLoop spent using 2
      funext out
      obtain ⟨_ | _, _⟩ := out <;> rfl

theorem success_of_execute {fromStage : Option Int} {r : WorkflowResult}
    (h : execute S fuel fromStage e = some (.ok r, e')) : r.success = r.error.isNone := by
  unfold execute at h
  split at h
  · cases h
    rfl
  dsimp only at h
  split at h
  · obtain ⟨_, -, hout⟩ := Option.map_eq_some_iff.mp h
    cases hout
    rfl
  · obtain ⟨⟨_ | _, _⟩, -, hout⟩ := Option.map_eq_some_iff.mp h
    all_goals cases hout
    rfl

variable (O : Orchestrator σ) (disk : Option Checkpoint) (env : σ)

theorem begin_orchestrator :
    ∃ spent, step O.setup ⟨.fresh O.setup disk env, .idle, 0⟩ .begin =
      launch O.setup (loadEngine O disk env).1 (loadEngine O disk env).2 spent := by
  refine ⟨carriedOver ⟨.fresh O.setup disk env, .idle, 0⟩, ?_⟩
  show launch O.setup (resumeEngine O.setup disk env).1 (loaded O.setup _) _ = _
  cases disk with
  | none => rfl
  | some c =>
    unfold loaded resumeEngine loadEngine
    dsimp only [Engine.fresh]
    cases c.completedStages.max? <;> rfl

theorem close_orchestrator {r : WorkflowResult} (hr : r.success = r.error.isNone) (spent : ℚ) :
    close O.setup ⟨e, .ended r.error, spent⟩ = ⟨(closeCheckpoint O r e).2, .idle, spent⟩ := by
  unfold closeCheckpoint
  rw [hr]
  cases r.error with
  | none => rfl
  | some =>
    show mk (saveStateOnly O.setup e) .idle spent = _
    cases hwr : O.writeCheckpoint e.env with
    | mk written => cases written <;> simp [saveStateOnly, Orchestrator.setup, hwr]

/-- **A run of the orchestrator is a run of the machine**: begin, one iteration for each pass of
its loop, close. It runs out of fuel exactly while the machine is in its scheduler. -/
theorem run_chain (fuel : Nat) :
    match run O fuel disk env, step O.setup ⟨.fresh O.setup disk env, .idle, 0⟩ .begin with
    | none, begun => ComesTo O.setup begun fuel none
    | some (_, e'), begun =>
      ∃ n ≤ fuel, ∃ spent, close O.setup (iterate O.setup begun n) = ⟨e', .idle, spent⟩ := by
  obtain ⟨spent, hbe⟩ := begin_orchestrator O disk env
  have hco : ComesTo O.setup (launch O.setup _ (loadEngine O disk env).2 spent) fuel _ :=
    comesTo_execute (loadEngine O disk env).1 spent
  dsimp only [run]
  rw [hbe]
  cases hex : execute O.setup fuel (loadEngine O disk env).1 (loadEngine O disk env).2 with
  | none =>
    rw [hex] at hco
    exact hco
  | some out =>
    rw [hex] at hco
    obtain ⟨n, hn, spent', hit⟩ := hco
    refine ⟨n, hn, spent', ?_⟩
    rw [hit]
    obtain ⟨_ | _, _⟩ := out
    · rfl
    · exact close_orchestrator O (success_of_execute hex) spent'

end Chain

/-! ## §5 What is pending -/

theorem batchToRun_sublist (S : Setup σ) (p : Parallel σ) :
    (batchToRun S p).1.Sublist p.pending := by
  dsimp only [batchToRun]
  split
  · exact nil_sublist _
  · exact (take_sublist _ _).trans filter_sublist

theorem runBatch_ids (S : Setup σ) (batch : List StageNode) (e : Engine σ) :
    (runBatch S batch e).1.map (·.1.id) = batch.map (·.id) := by
  conv_rhs => rw [← (runBatch_spec S batch e).1, map_map]
  rfl

theorem batchPass_eq_batchBooked (S : Setup σ) (p : Parallel σ) :
    batchPass S (batchToRun S p).1 { p with engine := (batchToRun S p).2 } =
      batchBooked S (batchToRun S p).1.length p := by
  have hle : (runBatch S (batchToRun S p).1 (batchToRun S p).2).1.length =
      (batchToRun S p).1.length := by
    conv_rhs => rw [← (runBatch_spec S (batchToRun S p).1 (batchToRun S p).2).1, length_map]
  rw [batchPass, batchBooked, ← hle]
  rw [take_length]

/-- What an iteration of the batch loop comes to: it runs no stage and ends the loop, or it runs
the batch. -/
theorem batchStep_cases (S : Setup σ) (p : Parallel σ) :
    ((batchToRun S p).1 = [] ∧ ∃ skipped env p', batchStep S p = .stop p' ∧
      skipped.Sublist p.pending ∧ p'.engine = skipAll skipped { p.engine with env := env }) ∨
    ∃ p', p' = batchBooked S (batchToRun S p).1.length p ∧
      (batchStep S p = .next p' ∨ batchStep S p = .stop p') := by
  obtain ⟨go, env, hctl⟩ := waitForControl_eq S p.engine
  cases hpe : p.pending with
  | nil =>
    refine .inl ⟨by simp [batchToRun, hpe], [], p.engine.env, p, ?_, .slnil, rfl⟩
    simp only [batchStep, hpe]
  | cons =>
    have hop : p.pending.isEmpty = false := by rw [hpe]; rfl
    cases go with
    | false =>
      refine .inl ⟨by simp [batchToRun, hctl], [], env, ?_⟩
      simp only [batchStep, hpe, hctl]
      exact ⟨_, rfl, nil_sublist _, rfl⟩
    | true =>
      by_cases hre : readyStages { p with engine := { p.engine with env := env } } = []
      · refine .inl ⟨by simp [batchToRun, hctl, hre], p.pending, env, ?_⟩
        simp only [batchStep, hpe, hctl, Bool.not_true, Bool.false_eq_true, if_false]
        rw [if_pos (hpe ▸ hre)]
        exact ⟨_, rfl, .refl _, rfl⟩
      right
      have hba : batchToRun S p =
          ((readyStages { p with engine := { p.engine with env := env } }).take
            (max 1 S.config.maxConcurrentStages).toNat, { p.engine with env := env }) := by
        simp only [batchToRun, hctl, hop, Bool.not_true, Bool.or_false, Bool.false_eq_true,
          if_false]
      rw [← batchPass_eq_batchBooked, hba]
      refine ⟨_, rfl, ?_⟩
      simp only [batchStep, hpe, hctl, Bool.not_true, Bool.false_eq_true, if_false]
      rw [if_neg (hpe ▸ hre)]
      split
      · exact .inr rfl
      · exact .inl rfl

theorem settleOutcome_completedStages (S : Setup σ) (p : Parallel σ)
    (outcome : StageNode × Except EngineError StageResult) :
    (settleOutcome S p outcome).engine.state.completedStages = p.engine.state.completedStages ∨
      (settleOutcome S p outcome).engine.state.completedStages =
        p.engine.state.completedStages ++ [outcome.1.id] := by
  obtain ⟨e, hch, ⟨_, heq⟩ | ⟨r, heq⟩⟩ := settleOutcome_engine S p outcome
  · left
    rw [heq, ← hch.state]
    dsimp only [failStage, WorkflowState.markStageFailed]
    split <;> rfl
  · right
    rw [heq, ← hch.state]
    exact completeStage_completedStages S _ _ _

variable {sid : Int}

/-- What settling an outcome adds to the completed list is its own stage. -/
theorem mem_settleOutcome {outcome : StageNode × Except EngineError StageResult}
    (h : sid ∈ (settleOutcome S p outcome).engine.state.completedStages) :
    sid ∈ p.engine.state.completedStages ∨ sid = outcome.1.id := by
  rcases settleOutcome_completedStages S p outcome with heq | heq
  · exact .inl (heq ▸ h)
  · rwa [heq, mem_append, mem_singleton] at h

theorem mem_foldl_settleOutcome {outs : List (StageNode × Except EngineError StageResult)}
    (h : sid ∈ (outs.foldl (settleOutcome S) p).engine.state.completedStages) :
    sid ∈ p.engine.state.completedStages ∨ sid ∈ outs.map (·.1.id) := by
  induction outs generalizing p with
  | nil => exact .inl h
  | cons _ _ ih =>
    rw [map_cons, mem_cons]
    rcases ih h with hin | hin
    · rcases mem_settleOutcome hin with hold | hown
      · exact .inl hold
      · exact .inr (.inl hown)
    · exact .inr (.inr hin)

namespace Chain

/-- The stages that the batch scheduler has pending: actions that are not completed. -/
structure Pending (S : Setup σ) (pending : List StageNode) (s : WorkflowState) : Prop where
  stages : pending.Sublist S.workflow.stages
  actions : ∀ stage ∈ pending, stage.kind = .action
  fresh : ∀ stage ∈ pending, stage.id ∉ s.completedStages

theorem Pending.nodup {s : WorkflowState} (h : Pending S pending s) : (pending.map (·.id)).Nodup :=
  S.workflow.distinct.sublist (h.stages.map _)

theorem Pending.batchBooked (h : Pending S p.pending p.engine.state) (n : Nat) :
    Pending S (batchBooked S n p).pending (batchBooked S n p).engine.state := by
  have hran : (runBatch S (batchToRun S p).1 (batchToRun S p).2).2.state.completedStages =
      p.engine.state.completedStages := by
    rw [(runBatch_spec S _ _).2.1]
    exact congrArg _ (waitForControl_state S p.engine)
  rw [Workflow.batchBooked, foldl_settleOutcome_pending]
  refine ⟨filter_sublist.trans h.stages, ?_, ?_⟩
  · intro stage hst
    exact h.actions stage (mem_filter.mp hst).1
  intro stage hst hdo
  obtain ⟨hmem, hot⟩ := mem_filter.mp hst
  rcases mem_foldl_settleOutcome hdo with hold | hba
  · exact h.fresh stage hmem (hran ▸ hold)
  · exact of_decide_eq_true hot hba

variable (S : Setup σ)

def Placed (c : Chain σ) : Prop :=
  match c.mode with
  | .looping dagOrder _ _ => S.workflow.buildDagOrder = .ok dagOrder
  | .batching pending _ => Pending S pending c.engine.state
  | _ => True

variable (fromStage : Option Int) (e : Engine σ) (spent : ℚ)

/-- The ways in which `execute` begins. -/
theorem launch_cases : (∃ message, S.workflow.buildDagOrder = .error message ∧
      launch S fromStage e spent = ⟨e, .ended (some message), spent⟩) ∨
    ∃ dag mode, S.workflow.buildDagOrder = .ok dag ∧
      launch S fromStage e spent = ⟨prepareRun S dag fromStage e, mode, spent⟩ ∧
      (mode = .looping dag (startIndex dag fromStage) none ∨
        (mode = .batching (S.workflow.stages.filter
            (fun s => s.id ∉ (prepareRun S dag fromStage e).state.completedStages)) none ∧
          schedulesParallel S dag (startIndex dag fromStage)
            (prepareRun S dag fromStage e).state = true)) := by
  cases hdag : S.workflow.buildDagOrder with
  | error message =>
    refine .inl ⟨message, rfl, ?_⟩
    simp only [launch, hdag]
  | ok dag =>
    right
    by_cases hpar : schedulesParallel S dag (startIndex dag fromStage)
        (prepareRun S dag fromStage e).state = true
    · refine ⟨dag, _, rfl, ?_, .inr ⟨rfl, hpar⟩⟩
      simp only [launch, hdag, if_pos hpar]
    · refine ⟨dag, _, rfl, ?_, .inl rfl⟩
      simp only [launch, hdag, if_neg hpar]

theorem placed_launch : Placed S (launch S fromStage e spent) := by
  rcases launch_cases S fromStage e spent with
    ⟨message, -, hla⟩ | ⟨dag, mode, hdag, hla, hmo⟩
  · rw [hla]
    trivial
  rw [hla]
  rcases hmo with rfl | ⟨rfl, hpar⟩
  · exact hdag
  · refine ⟨filter_sublist, pending_action hdag hpar, ?_⟩
    intro _ hst
    exact of_decide_eq_true (mem_filter.mp hst).2

variable {S} {c : Chain σ}

theorem Placed.advance (h : Placed S c) : Placed S (c.advance S) := by
  obtain ⟨e, mode, _⟩ := c
  cases mode with
  | idle | ended => trivial
  | looping =>
    dsimp only [Chain.advance]
    split
    · exact h
    · trivial
    · trivial
  | batching pending m =>
    dsimp only [Chain.advance]
    rcases batchStep_cases S { pending, errorMsg := m, engine := e } with
      ⟨-, skipped, env, p', hst, -⟩ | ⟨p', hp', hne | hst⟩
    · rw [hst]
      trivial
    · rw [hne, hp']
      exact .batchBooked (p := { pending, errorMsg := m, engine := e }) h _
    · rw [hst]
      trivial

/-- A chain keeps to its place. -/
theorem Placed.step (h : Placed S c) (i : ChainStep) : Placed S (c.step S i) := by
  cases i with
  | begin =>
    dsimp only [Chain.step]
    split
    · exact placed_launch S _ _ _
    · exact h
  | advance => exact h.advance
  | cutRun =>
    dsimp only [Chain.step]
    unfold cutRun
    split
    · split <;> trivial
    · trivial
    · trivial
  | cutBooked =>
    dsimp only [Chain.step]
    unfold cutBooked
    split
    · split <;> trivial
    · trivial
    · trivial
  | kill => trivial
  | close =>
    dsimp only [Chain.step]
    unfold close
    split
    · trivial
    · trivial
    · trivial
    · exact h
  | shutdown =>
    dsimp only [Chain.step]
    split
    · exact h
    · trivial

end Chain

end Orchestratord.Workflow
