import Orchestratord.Workflow.Chains

/-!
# Decision budgets along a chain

An outcome with `max_times` is followed as long as the decision history counts it less often. The
history is in the checkpoints that the engine writes when it books a stage. It is not in the one
that is written when a run fails or is shut down, and a decision that was followed after the last
checkpoint is not in that one. So the budgets hold over a chain of runs if no run ends with followed
outcomes that the checkpoint it leaves does not count.
-/

namespace Orchestratord.Workflow

open Foundation
open DecisionHistory (count)
open List Checkpoint

variable {σ : Type}

/-! ## §1 Budgets -/

/-- The history that a run over the checkpoint begins with. -/
def Checkpoint.loadedHistory (d : Checkpoint) : List DecisionRecord :=
  match d.completedStages.max? with
  | none => []
  | some _ => d.decisionHistory

variable (w : WorkflowSchema)

/-- The outcome of the stage has a bound. -/
def Budgeted (i : Int) (o : String) : Prop :=
  ∃ stage ∈ w.stages, stage.id = i ∧ (specOf stage o).maxTimes.isSome

/-- No outcome is followed more often than its bound says. -/
def BudgetKept (log : List Event) : Prop :=
  ∀ stage ∈ w.stages, ∀ o m, (specOf stage o).maxTimes = some m → follows stage.id o log ≤ m.toNat

/-- The history counts a bounded outcome at least as often as it was followed. -/
def Covers (history : List DecisionRecord) (log : List Event) : Prop :=
  ∀ i o, Budgeted w i o → follows i o log ≤ count history o i

/-- No bounded outcome was followed. -/
def NothingFollowed (log : List Event) : Prop := ∀ i o, Budgeted w i o → follows i o log = 0

variable {history : List DecisionRecord} {w : WorkflowSchema} {log log' : List Event}
  {history' : List DecisionRecord}

theorem Covers.next (h : Covers w history log) (hne : Tallies w log history log' history') :
    Covers w history' log' := by
  intro i o hbu
  have hrec := h i o hbu
  have hgr := hne.recorded i o
  rcases hne.followed i o with hsa | ⟨hfo, hnew, -⟩
  · omega
  · omega

theorem BudgetKept.next (h : BudgetKept w log) (hco : Covers w history log)
    (hne : Tallies w log history log' history') : BudgetKept w log' := by
  intro stage hst o m hm
  have hbo := h stage hst o m hm
  rcases hne.followed stage.id o with hsa | ⟨hfo, -, hbe⟩
  · omega
  · have hle := hbe stage hst rfl m hm
    have hrec := hco stage.id o ⟨stage, hst, rfl, by rw [hm]; rfl⟩
    omega

/-- Logs in which the same is followed. -/
def SameFollows (log log' : List Event) : Prop := ∀ i o, follows i o log' = follows i o log

theorem SameFollows.covers (h : SameFollows log log')
    (hco : Covers w history log) : Covers w history log' := by
  intro i o hbu
  rw [h i o]
  exact hco i o hbu

theorem SameFollows.budgetKept (h : SameFollows log log')
    (hke : BudgetKept w log) : BudgetKept w log' := by
  intro stage hst o m hm
  rw [h stage.id o]
  exact hke stage hst o m hm

theorem sameFollows_concat (log : List Event) {a : Event} (ha : a.isComplete = false) :
    SameFollows log (log ++ [a]) := by
  intro i o
  rw [follows_append (by rintro b ⟨⟩; exact ha)]
  rfl

/-! ## §2 Events that follow nothing -/

/-- The last event decides nothing. -/
def Announced (log : List Event) : Prop := ∀ a ∈ log.getLast?, a.isDecision = false

variable {i : Int} {o : String}

theorem follows_append_of_announced {chunk : List Event}
    (h : Announced log) : follows i o (log ++ chunk) = follows i o log + follows i o chunk := by
  induction log with
  | nil => simp [follows]
  | cons a rest ih =>
    cases rest with
    | nil =>
      cases chunk with
      | nil => simp [follows]
      | cons b =>
        have ha := followed_of_not_isDecision (i := i) (o := o) (b := b) (h a rfl)
        simp [follows, ha]
    | cons b rest =>
      have hre : Announced (b :: rest) := fun c hc => h c (by simpa using hc)
      have := ih hre
      rw [cons_append] at this
      simp only [cons_append, follows]
      omega

variable {e e' : Engine σ}

theorem Undecided.sameFollows (h : Undecided e e')
    (han : Announced e.eventLog) : SameFollows e.eventLog e'.eventLog := by
  obtain ⟨-, _, hlog, hqu⟩ := h
  intro i o
  rw [hlog, follows_append_of_announced han, follows_of_noDecision hqu, add_zero]

theorem Undecided.announced (h : Undecided e e')
    (han : Announced e.eventLog) : Announced e'.eventLog := by
  obtain ⟨-, chunk, hlog, hqu⟩ := h
  intro a ha
  rw [hlog, getLast?_append] at ha
  cases hch : chunk.getLast? with
  | none =>
    rw [hch] at ha
    exact han a ha
  | some b =>
    rw [hch] at ha
    obtain rfl : b = a := Option.some.inj ha
    exact hqu b (mem_of_getLast? hch)

variable (S : Setup σ) (stage : StageNode)

/-- A stage that is run and not booked. -/
theorem executeStage_sameFollows (e : Engine σ) :
    SameFollows e.eventLog (executeStage S stage e).2.eventLog := by
  obtain ⟨inner, hlog, hev⟩ := (executeStage_run S stage e).log
  have hch : ∀ a ∈ .stageStart stage.id stage.name stage.phase :: inner, a.isComplete = false := by
    intro a ha
    rcases mem_cons.mp ha with rfl | ha
    · rfl
    · exact hev.noComplete a ha
  intro i o
  rw [hlog, follows_append (by rintro b ⟨⟩; rfl), follows_of_noComplete hch, add_zero]

/-! ## §3 What is on disk -/

/-- The next write of a checkpoint reaches the disk. -/
def writes (S : Setup σ) (e : Engine σ) : Bool :=
  match S.checkpointManager with
  | none => false
  | some write => (write e.env).1

theorem completeStage_checkpoint (r : StageResult) (e : Engine σ) :
    (completeStage S stage r e).checkpoint = if writes S e then
        some (.ofState (completeStage S stage r e).state e.decisionHistory)
      else e.checkpoint := by
  unfold completeStage saveCheckpoint writes
  cases S.checkpointManager with
  | none | some => rfl

theorem saveStateOnly_checkpoint (e : Engine σ) : (saveStateOnly S e).checkpoint =
      if writes S e then some (.ofState e.state []) else e.checkpoint := by
  unfold saveStateOnly writes
  cases S.checkpointManager with
  | none | some => rfl

/-- A checkpoint that the engine writes when it books a stage brings its whole history back. -/
theorem loadedHistory_completeStage (r : StageResult) (e : Engine σ) :
    (ofState (completeStage S stage r e).state e.decisionHistory).loadedHistory =
      e.decisionHistory := by
  unfold loadedHistory
  split
  · rename_i hno
    have hco := completeStage_completedStages S stage r e
    change (completeStage S stage r e).state.completedStages.max? = none at hno
    rw [hco] at hno
    simp at hno
  · rfl

theorem loadedHistory_stateOnly (s : WorkflowState) : (ofState s []).loadedHistory = [] := by
  unfold loadedHistory
  split
  · rfl
  · rfl

theorem settleOutcome_checkpoint (p : Parallel σ)
    (outcome : StageNode × Except EngineError StageResult) :
    (settleOutcome S p outcome).engine.checkpoint = p.engine.checkpoint ∨
      ∃ d, (settleOutcome S p outcome).engine.checkpoint = some d ∧
        d.loadedHistory = p.engine.decisionHistory := by
  obtain ⟨e, hch, ⟨_, heq⟩ | ⟨r, heq⟩⟩ := settleOutcome_engine S p outcome
  · rw [heq]
    exact .inl hch.checkpoint
  rw [heq, completeStage_checkpoint, ← hch.checkpoint, ← hch.decisionHistory]
  split
  · exact .inr ⟨_, rfl, loadedHistory_completeStage S outcome.1 r e⟩
  · exact .inl rfl

theorem foldl_settleOutcome_checkpoint (outs : List (StageNode × Except EngineError StageResult))
    (p : Parallel σ) : (outs.foldl (settleOutcome S) p).engine.checkpoint = p.engine.checkpoint ∨
      ∃ d, (outs.foldl (settleOutcome S) p).engine.checkpoint = some d ∧
        d.loadedHistory = p.engine.decisionHistory := by
  induction outs generalizing p with
  | nil => exact .inl rfl
  | cons out _ ih =>
    have hhi := ((Undecided.refl p.engine).settleOutcome S out).1
    rw [foldl_cons]
    rcases ih (settleOutcome S p out) with hsa | ⟨d, hd, hlo⟩
    · rw [hsa]
      exact settleOutcome_checkpoint S p out
    · exact .inr ⟨d, hd, hlo.trans hhi⟩

theorem runBatch_checkpoint (batch : List StageNode) (e : Engine σ) :
    (runBatch S batch e).2.checkpoint = e.checkpoint := by
  induction batch generalizing e with
  | nil => rfl
  | cons stage _ ih => exact (ih _).trans (executeStage_run S stage e).checkpoint

/-! ## §4 The budgets hold over a chain -/

namespace Chain

variable (S : Setup σ) (c : Chain σ)

/-- The checkpoint on disk counts what the chain has followed so far. -/
def DiskCovers : Prop :=
  ∀ d, c.engine.checkpoint = some d → Covers S.workflow d.loadedHistory c.engine.eventLog

/-- So does the one that is there when the state alone was saved. -/
def StateSaveCovers : Prop :=
  if writes S c.engine then NothingFollowed S.workflow c.engine.eventLog else c.DiskCovers S

/-- The next pass of the loop ends in an exception. -/
def raises : Bool :=
  match c.mode with
  | .looping dagOrder idx m =>
    match loopStep S dagOrder idx m c.engine with
    | .raise .. => true
    | _ => false
  | _ => false

/-- A decision that the next pass of the loop books gets to the disk. -/
def DecisionWritten : Prop :=
  match c.mode with
  | .looping dagOrder idx _ =>
    ∀ stage e, stageToRun S dagOrder idx c.engine = some (stage, e) → stage.kind = .decision →
      (executeStage S stage e).1.isOk → writes S (executeStage S stage e).2
  | _ => True

/-- The run does not end here, or it leaves a checkpoint that counts what was followed. -/
def KeepsHistory : ChainStep → Prop
  | .begin => True
  | .advance => c.raises S → c.DiskCovers S
  | .cutRun _ | .kill => c.DiskCovers S
  | .cutBooked _ => c.DiskCovers S ∧ c.DecisionWritten S
  | .close =>
    match c.mode with
    | .ended none => S.checkpointManager.isNone → c.DiskCovers S
    | .ended (some _) => c.StateSaveCovers S
    | _ => True
  | .shutdown => c.mode ≠ .idle → c.StateSaveCovers S

variable {S : Setup σ} {c : Chain σ}

structure Counted (S : Setup σ) (c : Chain σ) : Prop where
  kept : BudgetKept S.workflow c.engine.eventLog
  running : c.mode ≠ .idle → Covers S.workflow c.engine.decisionHistory c.engine.eventLog
  resting : c.mode = .idle → c.DiskCovers S
  announced : ∀ pending m, c.mode = .batching pending m → Announced c.engine.eventLog

theorem Counted.idle (spent : ℚ) (hke : BudgetKept S.workflow e.eventLog)
    (hdi : DiskCovers S ⟨e, .idle, spent⟩) : Counted S ⟨e, .idle, spent⟩ :=
  ⟨hke, fun hid => absurd rfl hid, fun _ => hdi, nofun⟩

theorem Counted.ended (m : Option String) (spent : ℚ) (hke : BudgetKept S.workflow e.eventLog)
    (hco : Covers S.workflow e.decisionHistory e.eventLog) : Counted S ⟨e, .ended m, spent⟩ :=
  ⟨hke, fun _ => hco, nofun, nofun⟩

/-- The scheduler comes to its end. -/
theorem Counted.closeRun (m : Option String) (spent : ℚ) (hke : BudgetKept S.workflow e.eventLog)
    (hco : Covers S.workflow e.decisionHistory e.eventLog) :
    Counted S ⟨closeRun m e, .ended m, spent⟩ := by
  obtain ⟨hhi, a, hlog, -, ha⟩ := closeRun_decisions m e
  have hsa := sameFollows_concat e.eventLog ha
  refine .ended m spent ?_ ?_
  · rw [hlog]
    exact hsa.budgetKept hke
  · rw [hlog, hhi]
    exact hsa.covers hco

theorem Counted.loaded (h : Counted S c) (hid : c.mode = .idle) :
    BudgetKept S.workflow (c.loaded S).eventLog ∧
      Covers S.workflow (c.loaded S).decisionHistory (c.loaded S).eventLog := by
  have hdi := h.resting hid
  unfold Chain.loaded resumeEngine
  rcases hch : c.engine.checkpoint with _ | d
  · exact ⟨fun _ _ _ _ _ => Nat.zero_le _, fun _ _ _ => Nat.zero_le _⟩
  have hco := hdi d hch
  unfold loadedHistory at hco
  dsimp only
  cases hmax : d.completedStages.max? with
  | none | some =>
    rw [hmax] at hco
    exact ⟨h.kept, hco⟩

theorem Counted.begin (h : Counted S c) (hid : c.mode = .idle) : Counted S (c.begin S) := by
  obtain ⟨hke, hco⟩ := h.loaded hid
  rcases launch_cases S (resumeEngine S c.engine.checkpoint c.engine.env).1 (c.loaded S)
    c.carriedOver with ⟨message, -, hla⟩ | ⟨dag, mode, -, hla, hmo⟩
  · rw [Chain.begin, hla]
    exact .ended _ _ hke hco
  rw [Chain.begin, hla]
  have hsa : SameFollows (c.loaded S).eventLog (prepareRun S dag
      (resumeEngine S c.engine.checkpoint c.engine.env).1 (c.loaded S)).eventLog :=
    sameFollows_concat _ rfl
  refine ⟨hsa.budgetKept hke, fun _ => hsa.covers hco, fun hmo' => ?_, ?_⟩
  · rcases hmo with rfl | ⟨rfl, -⟩
    all_goals cases hmo'
  intro _ m _ a ha
  have hls : (prepareRun S dag (resumeEngine S c.engine.checkpoint c.engine.env).1
      (c.loaded S)).eventLog.getLast? =
      some (.workflowStart S.workflow.name S.workflow.stages.length) :=
    getLast?_concat
  rw [hls] at ha
  cases ha
  rfl

/-- A pass that raises leaves the disk as it was, and follows nothing. -/
theorem raised_same {dag : List Int} {idx : Nat} {m : Option String}
    {err : EngineError} (h : loopStep S dag idx m e = .raise err e') :
    e'.checkpoint = e.checkpoint ∧ SameFollows e.eventLog e'.eventLog := by
  have hpa := Pass.of_loopStep S dag idx m e
  rw [h] at hpa
  cases hpa with
  | raised stage _ _ hst =>
    obtain ⟨env, hran⟩ := hst.ran
    have hsa := executeStage_sameFollows S stage { e with env := env }
    rw [hran] at hsa
    exact ⟨hst.run.checkpoint, hsa⟩

variable {p : Parallel σ}

variable (hpending : Pending S p.pending p.engine.state)

include hpending

/-- A batch decides nothing. -/
theorem undecided_runBatch {batch : List StageNode} (hba : batch.Sublist (batchToRun S p).1) :
    Undecided p.engine (runBatch S batch (batchToRun S p).2).2 := by
  obtain ⟨_, _, hctl⟩ := waitForControl_eq S p.engine
  have hco : Undecided p.engine (batchToRun S p).2 := by
    show Undecided p.engine (waitForControl S p.engine).2
    rw [hctl]
    exact .refl p.engine
  refine hco.runBatch S fun stage hst => ?_
  exact hpending.actions stage ((hba.trans (batchToRun_sublist S p)).subset hst)

theorem undecided_batchBooked (n : Nat) : Undecided p.engine (batchBooked S n p).engine :=
  .foldl_settleOutcome S _ (undecided_runBatch hpending (.refl _))

/-- It saves the history of the engine, if it saves anything. -/
theorem batchBooked_checkpoint (n : Nat) :
    (batchBooked S n p).engine.checkpoint = p.engine.checkpoint ∨
      ∃ d, (batchBooked S n p).engine.checkpoint = some d ∧
        d.loadedHistory = p.engine.decisionHistory := by
  have hhi := (undecided_runBatch hpending (.refl (batchToRun S p).1)).1
  have hran : (runBatch S (batchToRun S p).1 (batchToRun S p).2).2.checkpoint =
      p.engine.checkpoint :=
    (runBatch_checkpoint S _ _).trans (quiet_waitForControl S p.engine).checkpoint
  rw [← hran, ← hhi]
  exact foldl_settleOutcome_checkpoint S _ _

omit hpending

theorem Counted.advance (h : Counted S c) (hpl : Placed S c)
    (hke : KeepsHistory S c .advance) : Counted S (c.advance S) := by
  obtain ⟨e, mode, _⟩ := c
  cases mode with
  | idle | ended => exact h
  | looping dag idx m =>
    have hco := h.running nofun
    have hta := loopStep_tallies S dag idx m e
    have hke' := h.kept.next hco hta
    have hco' := hco.next hta
    dsimp only [Chain.advance]
    cases hst : loopStep S dag idx m e with
    | next =>
      rw [hst] at hke' hco'
      exact ⟨hke', fun _ => hco', nofun, nofun⟩
    | stop m' =>
      rw [hst] at hke' hco'
      exact .closeRun m' _ hke' hco'
    | raise =>
      obtain ⟨hdi, hsa⟩ := raised_same hst
      rw [hst] at hke'
      have hco := hke (by simp only [raises, hst])
      refine .idle _ hke' fun d hd => ?_
      exact hsa.covers (hco d (hdi ▸ hd))
  | batching pending m =>
    have hco := h.running nofun
    have han := h.announced pending m rfl
    have hpending : Pending S pending e.state := hpl
    -- what a batch does to the log, whether the loop goes on or not
    have hba : ∀ {e' : Engine σ}, Undecided e e' → BudgetKept S.workflow e'.eventLog ∧
        Covers S.workflow e'.decisionHistory e'.eventLog ∧ Announced e'.eventLog := by
      intro _ hun
      have hsa := hun.sameFollows han
      rw [hun.1]
      exact ⟨hsa.budgetKept h.kept, hsa.covers hco, hun.announced han⟩
    dsimp only [Chain.advance]
    rcases batchStep_cases S { pending, errorMsg := m, engine := e } with
      ⟨-, skipped, env, p', hsp, -, he'⟩ | ⟨p', hp', hgo⟩
    · have hsk : Undecided e p'.engine := by
        rw [he']
        exact .skipAll (.refl e)
      obtain ⟨hke', hco', -⟩ := hba hsk
      rw [hsp]
      exact .closeRun _ _ hke' hco'
    · have hse : Undecided e p'.engine := by
        rw [hp']
        exact undecided_batchBooked hpending _
      obtain ⟨hke', hco', han'⟩ := hba hse
      rcases hgo with hne | hsp
      · rw [hne]
        exact ⟨hke', fun _ => hco', nofun, fun _ _ _ => han'⟩
      · rw [hsp]
        exact .closeRun _ _ hke' hco'

theorem Counted.cutRun (h : Counted S c) (hpl : Placed S c) (hdi : c.DiskCovers S) (n : Nat) :
    Counted S (c.cutRun S n) := by
  obtain ⟨e, mode, spent⟩ := c
  have hco := quiet_waitForControl S e
  cases mode with
  | idle | ended => exact .idle spent h.kept hdi
  | looping =>
    dsimp only [Chain.cutRun]
    split
    · exact .idle spent h.kept hdi
    rename_i stage e₁ hrun
    obtain ⟨rfl, hst⟩ := started_of_stageToRun hrun
    obtain ⟨env, hran⟩ := hst.ran
    have hsa := executeStage_sameFollows S stage { e with env := env }
    rw [hran] at hsa
    refine .idle _ (hsa.budgetKept h.kept) fun d hd => hsa.covers (hdi d ?_)
    exact hst.run.checkpoint ▸ hd
  | batching pending m =>
    have hran := undecided_runBatch (p := { pending, errorMsg := m, engine := e }) hpl
      (take_sublist n _)
    have hsa := hran.sameFollows (h.announced pending m rfl)
    refine .idle _ (hsa.budgetKept h.kept) fun d hd => hsa.covers (hdi d ?_)
    rw [← hco.checkpoint, ← hd]
    exact (runBatch_checkpoint S _ _).symm

theorem Counted.cutBooked (h : Counted S c) (hpl : Placed S c) (hdi : c.DiskCovers S)
    (hwn : c.DecisionWritten S) (n : Nat) : Counted S (c.cutBooked S n) := by
  obtain ⟨e, mode, spent⟩ := c
  cases mode with
  | idle | ended => exact .idle spent h.kept hdi
  | looping =>
    dsimp only [Chain.cutBooked]
    split
    · exact .idle spent h.kept hdi
    rename_i stage e₁ hrun
    have hst := (started_of_stageToRun hrun).2
    have hwr := hwn stage e₁ hrun
    cases hout : executeStage S stage e₁ with
    | mk out e' =>
      rw [hout] at hst hwr
      cases out with
      | error =>
        have hcut := h.cutRun hpl hdi n
        simpa only [Chain.cutRun, hrun, hout] using hcut
      | ok r =>
        have hta := hst.tallies_complete
        have hco := h.running nofun
        refine .idle _ (h.kept.next hco hta) fun d hd => ?_
        have hd' := (completeStage_checkpoint S stage r e').symm.trans hd
        split at hd'
        · -- the checkpoint has the history of the engine
          cases hd'
          rw [loadedHistory_completeStage]
          exact hco.next hta
        · rename_i hfa
          have hki : stage.kind ≠ .decision := fun hki => hfa (hwr hki rfl)
          have hsa : SameFollows e.eventLog (completeStage S stage r e').eventLog := by
            intro i o
            rw [hst.follows_complete, if_neg fun hc => hki hc.1, add_zero]
          exact hsa.covers (hdi d (hst.run.checkpoint ▸ hd'))
  | batching pending m =>
    have hpending : Pending S pending e.state := hpl
    have hsa := (undecided_batchBooked (p := { pending, errorMsg := m, engine := e })
      hpending n).sameFollows (h.announced pending m rfl)
    refine .idle _ (hsa.budgetKept h.kept) fun d hd => hsa.covers ?_
    rcases batchBooked_checkpoint (p := { pending, errorMsg := m, engine := e }) hpending n with
      hsv | ⟨d', hd', hlo⟩
    · exact hdi d (hsv.symm.trans hd)
    · cases Option.some.inj (hd.symm.trans hd')
      rw [hlo]
      exact h.running nofun

theorem StateSaveCovers.counted (h : c.StateSaveCovers S) (hke : BudgetKept S.workflow c.engine.eventLog)
    (spent : ℚ) : Counted S ⟨saveStateOnly S c.engine, .idle, spent⟩ := by
  have hlog : (saveStateOnly S c.engine).eventLog = c.engine.eventLog := by
    unfold saveStateOnly
    split <;> rfl
  refine .idle spent (hlog ▸ hke) fun d hd => ?_
  show Covers _ _ (saveStateOnly S c.engine).eventLog
  rw [hlog]
  have hd' := (saveStateOnly_checkpoint S c.engine).symm.trans hd
  unfold StateSaveCovers at h
  split at hd'
  · rename_i hwr
    rw [if_pos hwr] at h
    cases hd'
    rw [loadedHistory_stateOnly]
    exact fun i o hbu => (h i o hbu).le
  · rename_i hfa
    rw [if_neg hfa] at h
    exact h d hd'

theorem Counted.step (h : Counted S c) (hpl : Placed S c) (i : ChainStep)
    (hke : KeepsHistory S c i) : Counted S (c.step S i) := by
  cases i with
  | begin =>
    dsimp only [Chain.step]
    split
    · rename_i hid
      exact h.begin hid
    · exact h
  | advance => exact h.advance hpl hke
  | cutRun n => exact h.cutRun hpl hke n
  | cutBooked n => exact h.cutBooked hpl hke.1 hke.2 n
  | kill => exact .idle c.spent h.kept hke
  | close =>
    obtain ⟨e, mode, spent⟩ := c
    cases mode with
    | idle | looping | batching => exact h
    | ended m =>
      cases m with
      | none =>
        cases hma : S.checkpointManager with
        | none =>
          simp only [Chain.step, close, hma]
          exact .idle spent h.kept (hke (by rw [hma]; rfl))
        | some =>
          simp only [Chain.step, close, hma]
          exact .idle spent h.kept (by simp [DiskCovers])
      | some => exact hke.counted h.kept spent
  | shutdown =>
    dsimp only [Chain.step]
    split
    · exact h
    · rename_i hru
      exact (hke hru).counted h.kept c.spent

/-- **The budgets hold over a chain of runs**, if no run ends with followed outcomes that the
checkpoint it leaves does not count. -/
theorem budgetKept_throughout (S : Setup σ) (env : σ) (steps : List ChainStep)
    (hguard : Guarded (step S) (KeepsHistory S) (start S env) steps) (done : List ChainStep)
    (hdone : done <+: steps) :
    BudgetKept S.workflow (runFrom (step S) (start S env) done).engine.eventLog := by
  have hke : ∀ c i, Placed S c ∧ Counted S c → KeepsHistory S c i →
      Placed S (step S c i) ∧ Counted S (step S c i) :=
    fun c i h hok => ⟨h.1.step i, h.2.step h.1 i hok⟩
  have hst : Counted S (start S env) := .idle 0 (fun _ _ _ _ _ => Nat.zero_le _) nofun
  exact (hguard.throughout hke ⟨trivial, hst⟩ hdone).2.kept

/-- The draft that is refined at most twice, with checkpoints; the agent fails in its run number
`failing`. -/
def refineChain (failing : Nat) : Setup Nat where
  workflow := refineWorkflow
  stageRunner := some {
    run := fun _ _ n => (.returned { success := n ≠ failing }, n + 1)
    runAction := fun _ _ n => (.returned { success := true }, n)
    runGate := fun _ _ n => (.returned { approved := true }, n)
    runDecision := fun _ _ n => (.returned { outcome := "refine" }, n) }
  validateAll := fun _ n => ([], n)
  restoreSnapshot := fun _ n => (true, n)
  checkpointManager := some fun n => (true, n)

theorem budgeted_refine (h : Budgeted refineWorkflow i o) : i = 2 ∧ o = "refine" := by
  obtain ⟨_, hst, rfl, hm⟩ := h
  simp only [refineWorkflow, mem_cons, not_mem_nil, or_false] at hst
  rcases hst with rfl | rfl
  · cases hm
  refine ⟨rfl, ?_⟩
  by_contra hne
  rw [specOf, lookup_cons, beq_false_of_ne hne] at hm
  cases hm

/-- The process dies after the first refinement; the next run goes on with the budget that is
left. -/
theorem budgetKept_refine :
    follows 2 "refine" (runFrom (step (refineChain 9)) (start (refineChain 9) 0)
      [.begin, .advance, .advance, .kill, .begin, .advance, .advance]).engine.eventLog ≤ 2 := by
  have hdi : DiskCovers (refineChain 9) (runFrom (step (refineChain 9)) (start (refineChain 9) 0)
      [.begin, .advance, .advance]) := by
    intro d hd i o hbu
    obtain ⟨rfl, rfl⟩ := budgeted_refine hbu
    have hco : (runFrom (step (refineChain 9)) (start (refineChain 9) 0)
        [.begin, .advance, .advance]).engine.checkpoint.map
        (fun d => count d.loadedHistory "refine" 2) = some 1 := by decide +kernel
    rw [hd] at hco
    have hone : count d.loadedHistory "refine" 2 = 1 := Option.some.inj hco
    rw [hone]
    decide +kernel
  have hgu : Guarded (step (refineChain 9)) (KeepsHistory (refineChain 9)) (start (refineChain 9) 0)
      [.begin, .advance, .advance, .kill, .begin, .advance, .advance] := by
    refine ⟨trivial, fun h => ?_, fun h => ?_, hdi, trivial, fun h => ?_, fun h => ?_, trivial⟩
    all_goals exact absurd h (by decide +kernel)
  exact budgetKept_throughout (refineChain 9) 0 _ hgu _ (prefix_refl _)
    { id := 2, name := "Good enough?", kind := .decision, dependsOn := [1]
      decisionOutcomes := [("refine", { next := some 1, maxTimes := some 2 })] }
    (by decide) "refine" 2 rfl

/-- The second refinement fails. The checkpoint that is written then has no decisions in it, and
the next run refines a third time. -/
theorem refine_exceeds_budget :
    let c := runFrom (step (refineChain 2)) (start (refineChain 2) 0)
      ([.begin] ++ replicate 5 .advance ++ [.close, .begin, .advance, .advance])
    follows 2 "refine" c.engine.eventLog = 3 ∧
      ¬ BudgetKept (refineChain 2).workflow c.engine.eventLog := by
  have hfo : follows 2 "refine" (runFrom (step (refineChain 2)) (start (refineChain 2) 0)
      ([.begin] ++ replicate 5 .advance ++ [.close, .begin, .advance, .advance])).engine.eventLog
      = 3 := by decide +kernel
  refine ⟨hfo, fun hke => ?_⟩
  have hbo := hke
    { id := 2, name := "Good enough?", kind := .decision, dependsOn := [1]
      decisionOutcomes := [("refine", { next := some 1, maxTimes := some 2 })] }
    (by decide) "refine" 2 rfl
  rw [hfo] at hbo
  revert hbo
  decide

end Chain

end Orchestratord.Workflow
