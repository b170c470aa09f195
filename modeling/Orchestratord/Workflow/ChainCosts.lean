import Orchestratord.Workflow.Chains

/-!
# Costs along a chain

The tracker adds the cost of an agent run when the runner returns, and the batch scheduler adds the
cost of an action when it settles the outcome. The sequential loop adds nothing for an action, and
no scheduler adds the cost of an action that failed. A run that goes on from a checkpoint starts
from the total that the state had accumulated, which counts booked stages only.

So the total of the tracker is the sum of the reported costs exactly as long as no iteration reports
a cost that is not tracked and no run begins from another total than the sum so far.
-/

namespace Orchestratord.Workflow

open Foundation List

variable {σ : Type}

/-! ## §1 What one stage adds -/

/-- What the runner reports for a stage and the stage's run does not add to the tracker. -/
def untrackedRun (S : Setup σ) (stage : StageNode) (e : Engine σ) : ℚ :=
  if stage.kind = .action then reportedCost S stage e else 0

/-- What is reported in a batch of actions and not charged. -/
def untrackedBatch (S : Setup σ) : List StageNode → Engine σ → ℚ
  | [], _ => 0
  | stage :: rest, e =>
    (if (executeStage S stage e).1.isOk then 0 else reportedCost S stage e) +
      untrackedBatch S rest (executeStage S stage e).2

variable (S : Setup σ) (dag : List Int) (idx : Nat) (stage : StageNode) (e : Engine σ)

theorem settleAgentRun_totalUsd (r : StageRunResult) (e : Engine σ) :
    (settleAgentRun S stage r e).2.costTracker.totalUsd = e.costTracker.totalUsd + r.costUsd := by
  have hadd : ((e.costTracker.add r.costUsd).checkBudget).2.totalUsd =
      e.costTracker.totalUsd + r.costUsd := checkBudget_totalUsd _
  unfold settleAgentRun
  split
  · rename_i heq
    rwa [heq] at hadd
  · rename_i heq
    rw [heq] at hadd
    dsimp only
    split
    · exact hadd
    · split
      · exact hadd
      · exact hadd

theorem runAgentStage_totalUsd :
    (runAgentStage S stage e).2.costTracker.totalUsd = e.costTracker.totalUsd +
      match S.stageRunner with
      | none => 0
      | some runner => (runner.run stage e.state e.env).1.cost := by
  unfold runAgentStage
  rcases S.stageRunner with _ | runner
  · exact (add_zero _).symm
  dsimp only
  cases runner.run stage e.state e.env with
  | mk out =>
    cases out with
    | returned r => exact settleAgentRun_totalUsd S stage r _
    | timedOut | raised => exact (add_zero _).symm

/-- A stage's run adds what is reported, but for an action. -/
theorem executeStage_totalUsd :
    (executeStage S stage e).2.costTracker.totalUsd + untrackedRun S stage e =
      e.costTracker.totalUsd + reportedCost S stage e := by
  unfold untrackedRun
  cases hki : stage.kind with
  | agent =>
    rw [if_neg (by decide), add_zero, executeStage, dispatchStage, hki]
    rw [runAgentStage_totalUsd, reportedCost, hki]
    cases S.stageRunner with
    | none | some => rfl
  | gate | decision =>
    rw [(executeStage_run S stage e).costTracker (by simp [hki]), reportedCost, hki]
    cases S.stageRunner with
    | none | some => rfl
  | action => rw [if_pos rfl, (executeStage_run S stage e).costTracker (by simp [hki])]

/-- The result of an action has the cost that was reported, and one that ends in an exception of
another class has reported none. -/
theorem executeStage_action {stage : StageNode} (hki : stage.kind = .action) (e : Engine σ) :
    (∀ r, (executeStage S stage e).1 = .ok r → r.costUsd = reportedCost S stage e) ∧
      ∀ text, (executeStage S stage e).1 = .error (.foreign text) → reportedCost S stage e = 0 := by
  unfold executeStage dispatchStage reportedCost
  rw [hki]
  dsimp only [runActionStage]
  rcases S.stageRunner with _ | runner
  · exact ⟨fun r hr => (by cases hr), fun text ht => (by cases ht)⟩
  dsimp only [awaitRunner, Engine.emit]
  by_cases hus : stage.uses = ""
  · rw [if_pos hus]
    exact ⟨fun r hr => (by cases hr), fun text ht => (by cases ht)⟩
  rw [if_neg hus, if_neg hus]
  cases runner.runAction stage (e.state.markStageRunning stage.id) e.env with
  | mk out =>
    cases out with
    | returned result =>
      dsimp only
      cases result.success with
      | false => exact ⟨fun r hr => (by cases hr), fun text ht => (by cases ht)⟩
      | true =>
        refine ⟨fun r hr => ?_, nofun⟩
        cases hr
        rfl
    | timedOut => exact ⟨fun r hr => (by cases hr), fun text ht => (by cases ht)⟩
    | raised => exact ⟨fun r hr => (by cases hr), fun _ _ => rfl⟩

/-! ## §2 What one iteration adds -/

variable {m : Option String} {e e' : Engine σ} {err : EngineError}

theorem settleResult_ne_raise {S : Setup σ} {dag : List Int} {idx : Nat}
    {stage : StageNode} {r : StageResult} :
    settleResult S dag idx m stage r e ≠ .raise err e' := by
  unfold settleResult
  split
  · split
    · nofun
    · split <;> nofun
  · split <;> nofun

theorem foreign_of_raise {S : Setup σ} {dag : List Int} {idx : Nat} {stage : StageNode}
    {error : EngineError} (h : settleError S dag idx stage error e = .raise err e') :
    ∃ text, error = .foreign text := by
  cases error with
  | foreign text => exact ⟨text, rfl⟩
  | stageTimeout =>
    dsimp only [settleError] at h
    split at h <;> cases h
  | stageFailure =>
    dsimp only [settleError] at h
    split at h
    · cases h
    · split at h <;> cases h
  | costExceeded | workflow => cases h

/-- What a pass adds: its stage's run, if there is one. -/
theorem loopStep_totalUsd (m : Option String) (e : Engine σ) :
    (loopStep S dag idx m e).engine.costTracker.totalUsd + (match stageToRun S dag idx e with
          | none => 0
          | some (stage, e) => untrackedRun S stage e) = e.costTracker.totalUsd +
        match stageToRun S dag idx e with
        | none => 0
        | some (stage, e) => reportedCost S stage e := by
  rcases loopStep_frame S dag idx m e with
    ⟨hno, hqu⟩ | ⟨stage, out, hrun, hsd, hse⟩
  · rw [hno, hqu.costTracker]
  have hst := executeStage_totalUsd S stage (waitForControl S e).2
  rw [(quiet_waitForControl S e).costTracker, hsd.settled] at hst
  rwa [hrun, hse.costTracker]

theorem settleOutcome_totalUsd (p : Parallel σ)
    (outcome : StageNode × Except EngineError StageResult) :
    (settleOutcome S p outcome).engine.costTracker.totalUsd =
      p.engine.costTracker.totalUsd + charged outcome.2 := by
  obtain ⟨e, hch, ⟨_, heq⟩ | ⟨r, heq⟩⟩ := settleOutcome_engine S p outcome
  · rw [heq]
    exact hch.totalUsd
  · rw [heq, completeStage_costTracker]
    exact hch.totalUsd

theorem foldl_settleOutcome_totalUsd (outs : List (StageNode × Except EngineError StageResult))
    (p : Parallel σ) : (outs.foldl (settleOutcome S) p).engine.costTracker.totalUsd =
      p.engine.costTracker.totalUsd + (outs.map fun out => charged out.2).sum := by
  induction outs generalizing p with
  | nil => exact (add_zero _).symm
  | cons _ _ ih => rw [foldl_cons, ih, settleOutcome_totalUsd, map_cons, sum_cons, add_assoc]

/-- A batch of actions runs without the tracker, and charges what was reported but for the actions
that failed. -/
theorem runBatch_totalUsd {batch : List StageNode} (hki : ∀ stage ∈ batch, stage.kind = .action)
    (e : Engine σ) : (runBatch S batch e).2.costTracker.totalUsd = e.costTracker.totalUsd ∧
      ((runBatch S batch e).1.map fun out => charged out.2).sum + untrackedBatch S batch e =
        batchCost S batch e := by
  induction batch generalizing e with
  | nil => exact ⟨rfl, add_zero 0⟩
  | cons stage _ ih =>
    have hkn := hki stage mem_cons_self
    obtain ⟨hto, _⟩ := ih (fun s hs => hki s (mem_cons_of_mem _ hs)) (executeStage S stage e).2
    have hst := executeStage_totalUsd S stage e
    rw [untrackedRun, if_pos hkn] at hst
    have hown : charged (executeStage S stage e).1 +
        (if (executeStage S stage e).1.isOk then 0 else reportedCost S stage e) =
        reportedCost S stage e := by
      have hco := (executeStage_action S hkn e).1
      cases hout : (executeStage S stage e).1 with
      | error => exact zero_add _
      | ok r => exact (add_zero _).trans (hco r hout)
    refine ⟨hto.trans (add_right_cancel hst), ?_⟩
    rw [runBatch, untrackedBatch, batchCost, map_cons, sum_cons]
    linarith

/-! ## §3 The tracker over a chain -/

/-- The total that a run over the checkpoint begins with. -/
def Checkpoint.loadedTotal (d : Checkpoint) : ℚ :=
  match d.completedStages.max? with
  | none => 0
  | some _ => d.costAccumulatedUsd

namespace Chain

/-- What the next iteration reports and does not track. -/
def untracked (S : Setup σ) (c : Chain σ) : ℚ :=
  match c.mode with
  | .looping dagOrder idx _ =>
    match stageToRun S dagOrder idx c.engine with
    | none => 0
    | some (stage, e) => untrackedRun S stage e
  | .batching pending errorMsg =>
    let batch := batchToRun S { pending, errorMsg, engine := c.engine }
    untrackedBatch S batch.1 batch.2
  | _ => 0

/-- While a run is on, and when it has come to its end, the tracker has the sum of the costs that
were reported. -/
def Balanced (c : Chain σ) : Prop := c.mode ≠ .idle → c.engine.costTracker.totalUsd = c.spent

instance (c : Chain σ) : Decidable c.Balanced :=
  inferInstanceAs (Decidable (c.mode ≠ .idle → c.engine.costTracker.totalUsd = c.spent))

/-- An iteration tracks all that is reported, and a run begins from the sum so far. -/
def CostsCarried (S : Setup σ) (c : Chain σ) : ChainStep → Prop
  | .begin => c.mode = .idle → ∀ d, c.engine.checkpoint = some d → d.loadedTotal = c.spent
  | .advance => c.untracked S = 0
  | _ => True

variable {S : Setup σ} {c : Chain σ}

theorem balanced_idle (e : Engine σ) (spent : ℚ) : Balanced ⟨e, .idle, spent⟩ :=
  fun hid => absurd rfl hid

variable {spent : ℚ}

theorem balanced_iff {mode : Mode} (hmo : mode ≠ .idle) :
    Balanced ⟨e, mode, spent⟩ ↔ e.costTracker.totalUsd = spent :=
  ⟨fun h => h hmo, fun h _ => h⟩

/-- The tracker has all of what was reported if nothing is missing. -/
theorem balance_iff {total missing cost : ℚ} (h : total + missing = spent + cost) :
    total = spent + cost ↔ missing = 0 := by
  constructor
  · intro _
    linarith
  · intro _
    linarith

theorem balanced_closeRun_iff (m : Option String) (e : Engine σ) (spent : ℚ) :
    Balanced ⟨closeRun m e, .ended m, spent⟩ ↔ e.costTracker.totalUsd = spent := by
  have htr : (closeRun m e).costTracker = e.costTracker := by
    unfold closeRun
    split
    · split <;> rfl
    · rfl
  rw [← htr]
  exact ⟨fun h => h nofun, fun h _ => h⟩

theorem loaded_totalUsd (S : Setup σ) (c : Chain σ) :
    (c.loaded S).costTracker.totalUsd = (c.engine.checkpoint.map (·.loadedTotal)).getD 0 := by
  unfold loaded resumeEngine
  cases c.engine.checkpoint with
  | none => rfl
  | some d =>
    dsimp only [Option.map_some, Checkpoint.loadedTotal]
    cases d.completedStages.max? with
    | none | some => rfl

theorem balanced_begin_iff :
    Balanced (c.begin S) ↔ ∀ d, c.engine.checkpoint = some d → d.loadedTotal = c.spent := by
  have hbe : Balanced (c.begin S) ↔ (c.loaded S).costTracker.totalUsd = c.carriedOver := by
    unfold begin
    rcases launch_cases S (resumeEngine S c.engine.checkpoint c.engine.env).1 (c.loaded S)
      c.carriedOver with ⟨message, -, hla⟩ | ⟨dag, mode, -, hla, hmo⟩
    · rw [hla]
      exact ⟨fun h => h nofun, fun h _ => h⟩
    rw [hla]
    refine ⟨fun h => h ?_, fun h _ => h⟩
    rcases hmo with rfl | ⟨rfl, -⟩
    · nofun
    · nofun
  rw [hbe, loaded_totalUsd, carriedOver]
  cases c.engine.checkpoint with
  | none => exact ⟨nofun, fun _ => rfl⟩
  | some d => exact ⟨fun h d' hd' => Option.some.inj hd' ▸ h, fun h => h d rfl⟩

/-- A pass that raises has reported no cost of an action. -/
theorem untracked_of_raise {dag : List Int} {idx : Nat}
    (h : loopStep S dag idx m e = .raise err e') :
    untracked S ⟨e, .looping dag idx m, spent⟩ = 0 := by
  dsimp only [untracked]
  rcases hrun : stageToRun S dag idx e with _ | out
  · rfl
  obtain ⟨stage, e₁⟩ := out
  rw [loopStep_of_stageToRun m hrun] at h
  dsimp only [untrackedRun]
  split
  · rename_i hki
    cases hout : (executeStage S stage e₁).1 with
    | ok =>
      rw [hout] at h
      exact absurd h settleResult_ne_raise
    | error =>
      rw [hout] at h
      obtain ⟨text, rfl⟩ := foreign_of_raise h
      exact (executeStage_action S hki e₁).2 text hout
  · rfl

/-- A batch adds what was reported but for the actions that failed. -/
theorem batchBooked_totalUsd {p : Parallel σ} (hpe : Pending S p.pending p.engine.state) :
    (batchBooked S (batchToRun S p).1.length p).engine.costTracker.totalUsd +
        untrackedBatch S (batchToRun S p).1 (batchToRun S p).2 =
      p.engine.costTracker.totalUsd + batchCost S (batchToRun S p).1 (batchToRun S p).2 := by
  have hki : ∀ stage ∈ (batchToRun S p).1, stage.kind = .action := fun stage hst =>
    hpe.actions stage ((batchToRun_sublist S p).subset hst)
  obtain ⟨hto, _⟩ := runBatch_totalUsd S hki (batchToRun S p).2
  have hco : (batchToRun S p).2.costTracker = p.engine.costTracker :=
    (quiet_waitForControl S p.engine).costTracker
  rw [← batchPass_eq_batchBooked, batchPass, foldl_settleOutcome_totalUsd]
  rw [hto, hco]
  linarith

theorem balanced_advance_iff (hpl : Placed S c) (h : Balanced c) :
    Balanced (c.advance S) ↔ c.untracked S = 0 := by
  obtain ⟨e, mode, spent⟩ := c
  cases mode with
  | idle | ended => exact ⟨fun _ => rfl, fun _ => h⟩
  | looping dag idx m =>
    have hhe : e.costTracker.totalUsd = spent := h nofun
    have hpa : (loopStep S dag idx m e).engine.costTracker.totalUsd +
        untracked S ⟨e, .looping dag idx m, spent⟩ =
        spent + iterationCost S ⟨e, .looping dag idx m, spent⟩ := by
      rw [← hhe]
      exact loopStep_totalUsd S dag idx m e
    dsimp only [advance]
    cases hst : loopStep S dag idx m e with
    | next idx' m' =>
      rw [hst] at hpa
      have hmo : Mode.looping dag idx' m' ≠ .idle := nofun
      exact (balanced_iff hmo).trans (balance_iff hpa)
    | stop m' e' =>
      rw [hst] at hpa
      exact (balanced_closeRun_iff m' e' _).trans (balance_iff hpa)
    | raise => exact ⟨fun _ => untracked_of_raise hst, fun _ => balanced_idle _ _⟩
  | batching pending m =>
    have hhe : e.costTracker.totalUsd = spent := h nofun
    dsimp only [advance]
    rcases batchStep_cases S { pending, errorMsg := m, engine := e } with
      ⟨hno, skipped, env, p', hsp, -, he'⟩ | ⟨p', hp', hgo⟩
    · -- no stage runs, so nothing is reported
      have hqu : Quiet e p'.engine := by
        rw [he']
        exact ((Quiet.refl e).setEnv env).skipAll skipped
      rw [hsp]
      refine (balanced_closeRun_iff _ _ _).trans ?_
      rw [hqu.costTracker, hhe]
      simp only [iterationCost, untracked, hno, batchCost, untrackedBatch, add_zero]
    · have hba := batchBooked_totalUsd (p := { pending, errorMsg := m, engine := e }) hpl
      rw [← hp'] at hba
      have hpa : p'.engine.costTracker.totalUsd + untracked S ⟨e, .batching pending m, spent⟩ =
          spent + iterationCost S ⟨e, .batching pending m, spent⟩ := by
        rwa [← hhe]
      rcases hgo with hne | hsp
      · rw [hne]
        have hmo : Mode.batching p'.pending p'.errorMsg ≠ .idle := nofun
        exact (balanced_iff hmo).trans (balance_iff hpa)
      · rw [hsp]
        exact (balanced_closeRun_iff _ _ _).trans (balance_iff hpa)

/-- A step keeps the balance if and only if it carries the costs over. -/
theorem balanced_step_iff (hpl : Placed S c) (h : Balanced c) (i : ChainStep) :
    Balanced (c.step S i) ↔ CostsCarried S c i := by
  cases i with
  | begin =>
    dsimp only [step]
    split
    · rename_i hid
      rw [balanced_begin_iff]
      exact ⟨fun hall _ => hall, fun hall => hall hid⟩
    · rename_i hbu
      exact ⟨fun _ hid => absurd hid hbu, fun _ => h⟩
  | advance => exact balanced_advance_iff hpl h
  | cutRun =>
    refine ⟨fun _ => trivial, fun _ => ?_⟩
    dsimp only [step]
    unfold cutRun
    split
    · split <;> exact balanced_idle _ _
    all_goals exact balanced_idle _ _
  | cutBooked =>
    refine ⟨fun _ => trivial, fun _ => ?_⟩
    dsimp only [step]
    unfold cutBooked
    split
    · split <;> exact balanced_idle _ _
    all_goals exact balanced_idle _ _
  | kill => exact ⟨fun _ => trivial, fun _ => balanced_idle _ _⟩
  | close =>
    refine ⟨fun _ => trivial, fun _ => ?_⟩
    dsimp only [step]
    unfold close
    split
    · exact balanced_idle _ _
    · exact balanced_idle _ _
    · exact balanced_idle _ _
    · exact h
  | shutdown =>
    refine ⟨fun _ => trivial, fun _ => ?_⟩
    dsimp only [step]
    split
    · exact h
    · exact balanced_idle _ _

/-- **The tracker has the sum of all reported costs throughout a chain if and only if every
iteration tracks what it reports and every run begins from the sum so far.** -/
theorem balanced_throughout_iff (S : Setup σ) (env : σ) (steps : List ChainStep) :
    Guarded (step S) (CostsCarried S) (start S env) steps ↔
      ∀ done, done <+: steps → Balanced (runFrom (step S) (start S env) done) := by
  have hpl : ∀ (c : Chain σ) i, Placed S c → Placed S (c.step S i) := fun c i h => h.step i
  have hst : ∀ (c : Chain σ) i, Placed S c → Balanced c →
      (Balanced (c.step S i) ↔ CostsCarried S c i) := fun c i hc h => balanced_step_iff hc h i
  exact Guarded.iff_throughout hpl hst trivial (balanced_idle _ _)

/-- One stage that costs two dollars. -/
def priced (kind : StageKind) : Setup Unit where
  workflow :=
    { name := "priced"
      stages := [{ id := 1, name := "Work", kind, uses := "tool" }]
      distinct := nodup_singleton 1 }
  stageRunner := some {
    run := fun _ _ env => (.returned { success := true, costUsd := 2 }, env)
    runAction := fun _ _ env => (.returned { success := true, costUsd := 2 }, env)
    runGate := fun _ _ env => (.returned { approved := true }, env)
    runDecision := fun _ _ env => (.returned { outcome := "proceed" }, env) }
  validateAll := fun _ env => ([], env)
  restoreSnapshot := fun _ env => (true, env)
  checkpointManager := some fun env => (true, env)

/-- An agent's cost is still there when the process died and another one goes on. -/
theorem balanced_agent : ∀ done, done <+: [.begin, .advance, .kill, .begin] →
      Balanced (runFrom (step (priced .agent)) (start (priced .agent) ()) done) := by
  refine (balanced_throughout_iff (priced .agent) () _).mp ⟨?_, ?_, trivial, ?_, trivial⟩
  · rintro _ d ⟨⟩
  · show untracked (priced .agent) _ = 0
    decide +kernel
  intro _ d hd
  have hlo : (runFrom (step (priced .agent)) (start (priced .agent) ())
      [.begin, .advance, .kill]).engine.checkpoint.map (·.loadedTotal) =
      some (runFrom (step (priced .agent)) (start (priced .agent) ())
        [.begin, .advance, .kill]).spent := by decide +kernel
  have hhe : Option.map (·.loadedTotal) (some d) = _ := hd ▸ hlo
  exact Option.some.inj hhe

/-- An action of the sequential loop reports two dollars. The run succeeds, and its total is
zero. -/
theorem action_untracked :
    let c := runFrom (step (priced .action)) (start (priced .action) ())
      [.begin, .advance, .advance]
    c.mode = .ended none ∧ c.spent = 2 ∧ c.engine.costTracker.totalUsd = 0 ∧ ¬ Balanced c := by
  decide +kernel

end Chain

end Orchestratord.Workflow
